import WebMigration.Backup.Store
import Mathlib.Data.List.Nodup
import WebMigration.Proofs.Failure.Run

/-!
# How the calls on a store end

For each call the outcome and the store that it leaves, read off from the store before it.  Snapshots
are ordered by the time at which they were taken and, at the same time, by the order of creation, and
a store that has one snapshot too many gives up the oldest one and no other.
-/

namespace WebMigration.Backup

open Run (Ends)

/-! ### The order of snapshots -/

namespace Snapshot

/-- One snapshot is older than another: by its time, or at the same time by the order of creation. -/
def Older (a b : Snapshot) : Prop := a.time < b.time ∨ a.time = b.time ∧ a.sequence < b.sequence

theorem newerOrEqual_iff {a b : Snapshot} :
    newerOrEqual a b = true ↔ b.time < a.time ∨ a.time = b.time ∧ b.sequence ≤ a.sequence := by
  simp only [newerOrEqual, Bool.or_eq_true, Bool.and_eq_true, decide_eq_true_eq, beq_iff_eq]

theorem newerOrEqual_trans (a b c : Snapshot) (hab : newerOrEqual a b = true)
    (hbc : newerOrEqual b c = true) : newerOrEqual a c = true := by
  rw [newerOrEqual_iff] at *
  omega

theorem newerOrEqual_total (a b : Snapshot) : (newerOrEqual a b || newerOrEqual b a) = true := by
  rw [Bool.or_eq_true, newerOrEqual_iff, newerOrEqual_iff]
  omega

/-- Snapshots with different numbers are never equally old. -/
theorem older_of_newerOrEqual {a b : Snapshot} (h : newerOrEqual a b = true)
    (hne : a.sequence ≠ b.sequence) : Older b a := by
  rw [newerOrEqual_iff] at h
  unfold Older
  omega

end Snapshot

/-- A snapshot is the oldest of some. -/
def IsOldest (x : Snapshot) (among : List Snapshot) : Prop :=
  x ∈ among ∧ ∀ y ∈ among, y ≠ x → x.Older y

namespace Store

variable {s : Store}

/-- The numbers of the snapshots of a store tell them apart. -/
def Numbered (s : Store) : Prop := (s.snapshots.map (·.sequence)).Nodup

theorem Numbered.eq_of_sequence (h : s.Numbered) {a b : Snapshot} (ha : a ∈ s.snapshots)
    (hb : b ∈ s.snapshots) (hab : a.sequence = b.sequence) : a = b :=
  List.inj_on_of_nodup_map h ha hb hab

/-- The snapshots from the newest to the oldest are all there, each newer than the next. -/
theorem newestFirst_descending (h : s.Numbered) :
    s.newestFirst.Perm s.snapshots ∧ s.newestFirst.Pairwise fun a b => b.Older a := by
  have hperm : s.newestFirst.Perm s.snapshots := List.mergeSort_perm _ _
  have hsorted : s.newestFirst.Pairwise fun a b => a.newerOrEqual b = true :=
    List.pairwise_mergeSort Snapshot.newerOrEqual_trans Snapshot.newerOrEqual_total _
  have hnumbered : s.newestFirst.Pairwise fun a b => a.sequence ≠ b.sequence :=
    List.pairwise_map.1 ((hperm.map Snapshot.sequence).nodup_iff.2 h)
  exact ⟨hperm, hsorted.imp₂ (fun _ _ => Snapshot.older_of_newerOrEqual) hnumbered⟩

/-! ### Eviction -/

theorem evict_of_le (h : s.snapshots.length ≤ s.capacity) : s.evict = s := by
  have hnone : s.surplus = [] := by
    rw [surplus, Nat.sub_eq_zero_of_le h, List.take_zero]
  rw [evict, hnone]
  rfl

/-- The first of the snapshots in the order of their age is the oldest. -/
theorem isOldest_of_sorted (h : s.Numbered) {x : Snapshot} {rest : List Snapshot}
    (hsorted : s.snapshots.mergeSort Snapshot.olderOrEqual = x :: rest) :
    IsOldest x s.snapshots := by
  have hperm : (x :: rest).Perm s.snapshots := hsorted ▸ List.mergeSort_perm _ _
  have hx : x ∈ s.snapshots := hperm.mem_iff.1 List.mem_cons_self
  refine ⟨hx, fun y hy hne => ?_⟩
  have hpairwise : (x :: rest).Pairwise fun a b => a.olderOrEqual b = true :=
    hsorted ▸ List.pairwise_mergeSort
      (fun a b c hab hbc => Snapshot.newerOrEqual_trans c b a hbc hab)
      (fun a b => Snapshot.newerOrEqual_total b a) _
  have hrest : y ∈ rest := (List.mem_cons.1 (hperm.mem_iff.2 hy)).resolve_left hne
  refine Snapshot.older_of_newerOrEqual ((List.pairwise_cons.1 hpairwise).1 y hrest) fun heq => ?_
  exact hne (h.eq_of_sequence hy hx heq)

/-- A store with one snapshot too many loses the oldest one. -/
theorem evict_of_full (h : s.Numbered) (hfull : s.snapshots.length = s.capacity + 1) :
    ∃ x, IsOldest x s.snapshots ∧ s.evict = s.remove x.jobId := by
  rcases hsorted : s.snapshots.mergeSort Snapshot.olderOrEqual with _ | ⟨x, rest⟩
  · have hlength := congrArg List.length hsorted
    rw [List.length_mergeSort, hfull] at hlength
    cases hlength
  · refine ⟨x, isOldest_of_sorted h hsorted, ?_⟩
    have hone : s.surplus = [x] := by
      rw [surplus, hsorted, hfull, Nat.add_sub_cancel_left]
      rfl
    rw [evict, hone]
    rfl

end Store

/-! ### Looking snapshots up -/

namespace Store

variable {s : Store} {jobId : String} {x : Snapshot}

theorem has_eq_isSome (s : Store) (jobId : String) : s.has jobId = (s.find? jobId).isSome :=
  List.isSome_find?.symm

theorem has_eq_false_iff : s.has jobId = false ↔ s.find? jobId = none := by
  rw [has_eq_isSome, Option.isSome_eq_false_iff, Option.isNone_iff_eq_none]

theorem has_of_mem (h : x ∈ s.snapshots) : s.has x.jobId = true :=
  List.any_eq_true.2 ⟨x, h, beq_self_eq_true _⟩

theorem jobId_ne_of_mem (h : s.has jobId = false) (hx : x ∈ s.snapshots) : x.jobId ≠ jobId := by
  rintro rfl
  rw [has_of_mem hx] at h
  cases h

theorem jobId_of_find? (h : s.find? jobId = some x) : x.jobId = jobId := by
  have hfound := List.find?_some h
  rwa [beq_iff_eq] at hfound

theorem mem_of_find? (h : s.find? jobId = some x) : x ∈ s.snapshots := List.mem_of_find?_eq_some h

@[simp] theorem mem_remove : x ∈ (s.remove jobId).snapshots ↔ x ∈ s.snapshots ∧ x.jobId ≠ jobId := by
  rw [remove, List.mem_filter, bne_iff_ne]

theorem mem_of_mem_evict (h : x ∈ s.evict.snapshots) : x ∈ s.snapshots := by
  unfold evict at h
  refine List.foldlRecOn (motive := fun t : Store =>
    x ∈ t.snapshots → x ∈ s.snapshots) _ _ id ?_ h
  exact fun t ih jobId _ hmem => ih (mem_remove.1 hmem).1

end Store

/-! ### Creating -/

/-- The snapshot that a store takes next. -/
def Store.nextSnapshot (s : Store) (jobId : String) (time : Int) (files : Contents)
    (metadata : List (String × Json)) : Snapshot :=
  ⟨jobId, time, files, Json.put metadata "total_files" (.ofNat files.length), s.created + 1⟩

/-- The store with the next snapshot, before any have to go. -/
def Store.enlarged (s : Store) (jobId : String) (time : Int) (files : Contents)
    (metadata : List (String × Json)) : Store :=
  s.add jobId time files (Json.put metadata "total_files" (.ofNat files.length))

theorem Store.enlarged_snapshots (s : Store) (jobId : String) (time : Int) (files : Contents)
    (metadata : List (String × Json)) : (s.enlarged jobId time files metadata).snapshots =
      s.snapshots ++ [s.nextSnapshot jobId time files metadata] := rfl

/-- What a new job has after its creation is the new snapshot. -/
theorem Store.eq_nextSnapshot {s : Store} {jobId : String} {time : Int} {files : Contents}
    {metadata : List (String × Json)} (hnew : s.has jobId = false) {x : Snapshot}
    (hx : (s.enlarged jobId time files metadata).evict.find? jobId = some x) :
    x = s.nextSnapshot jobId time files metadata := by
  have hadded := mem_of_mem_evict (mem_of_find? hx)
  rw [enlarged_snapshots, List.mem_append, List.mem_singleton] at hadded
  rcases hadded with hold | hlast
  · exact absurd (jobId_of_find? hx) (jobId_ne_of_mem hnew hold)
  · exact hlast

/-- The error that tells of a job with a snapshot already. -/
def duplicate (jobId : String) : Fault :=
  .failure (.backup ("Backup already exists for job " ++ jobId) .create)

/-- The error that tells of a job without a snapshot. -/
def missing (jobId : String) : Fault :=
  .failure (.backup ("No backup found for job " ++ jobId) .restore)

/-- The error that tells of a file that a snapshot does not hold. -/
def missingFile (jobId path : String) : Fault :=
  .failure (.backup ("File " ++ path ++ " not found in backup " ++ jobId) .restore)

/-- The sizes of files add up exactly when all of them have contents. -/
theorem isSome_totalSize_iff (files : Contents) :
    (totalSize files).isSome = true ↔ ∀ e ∈ files, e.2 ≠ none := by
  induction files with
  | nil => simp [totalSize]
  | cons e rest ih =>
    obtain ⟨path, content⟩ := e
    rw [totalSize, List.forall_mem_cons, ← ih]
    cases totalSize rest <;> cases content <;> simp

section Endings

variable {s : Logged Store} {jobId : String} {time : Int} {files : Contents}
  {metadata : List (String × Json)}

/-- A job that has a snapshot gets no other one, and nothing changes. -/
theorem create_duplicate (h : s.state.has jobId = true) :
    Ends (create jobId time files metadata) s (.error (duplicate jobId)) s.state := by
  unfold create
  refine Ends.state.bind fun log => ?_
  dsimp only
  rw [if_pos h]
  exact (Ends.warning _ _).bind fun log => .fail _

/-- The snapshot of a new job is kept, and then the oldest go; a file without contents is an error
that comes too late to change this. -/
theorem create_new (h : s.state.has jobId = false) :
    Ends (create jobId time files metadata) s
      (if (totalSize files).isSome then .ok jobId else .error (.of .type ""))
      (s.state.enlarged jobId time files metadata).evict := by
  unfold create
  refine Ends.state.bind fun log => ?_
  dsimp only
  rw [if_neg (by rw [h]; exact Bool.false_ne_true)]
  refine (Ends.update _).bind fun log => ?_
  refine (Ends.forM (fun _ _ => .event _ _) _).bind fun log => ?_
  rcases totalSize files with _ | size
  · exact .raise _
  · exact (Ends.event _ _).bind fun log => .pure _

/-! ### Restoring -/

theorem snapshotOf_ends : Ends (snapshotOf jobId) s
    (match s.state.find? jobId with
      | some x => .ok x
      | none => .error (missing jobId)) s.state := by
  unfold snapshotOf
  refine Ends.state.bind fun log => ?_
  cases s.state.find? jobId with
  | some x => exact .pure x
  | none => exact .fail _

/-- Restoring gives the contents of the snapshot of the job, which must exist. -/
theorem restore_ends : Ends (restore jobId) s
    (match s.state.find? jobId with
      | some x => .ok x.files
      | none => .error (missing jobId)) s.state := by
  have hsnapshot : Ends (snapshotOf jobId) s _ _ := snapshotOf_ends
  unfold restore
  cases hfind : s.state.find? jobId with
  | some x =>
    rw [hfind] at hsnapshot
    exact hsnapshot.bind fun log => (Ends.event _ _).bind fun log => .pure _
  | none =>
    rw [hfind] at hsnapshot
    exact hsnapshot.bind_error

/-- Restoring a file gives its content in the snapshot of the job; both must exist. -/
theorem restoreFile_ends {path : String} : Ends (restoreFile jobId path) s
    (match s.state.find? jobId with
      | some x =>
          match x.files.get? path with
          | some content => .ok content
          | none => .error (missingFile jobId path)
      | none => .error (missing jobId)) s.state := by
  have hsnapshot : Ends (snapshotOf jobId) s _ _ := snapshotOf_ends
  unfold restoreFile
  cases hfind : s.state.find? jobId with
  | some x =>
    rw [hfind] at hsnapshot
    refine hsnapshot.bind fun log => ?_
    dsimp only
    cases x.files.get? path with
    | some content => exact .pure content
    | none => exact .fail _
  | none =>
    rw [hfind] at hsnapshot
    exact hsnapshot.bind_error

/-! ### Removing -/

theorem cleanup_ends : Ends (cleanup jobId) s (.ok ()) (s.state.remove jobId) := by
  unfold cleanup
  refine Ends.state.bind fun log => ?_
  cases hfind : s.state.find? jobId with
  | some x => exact (Ends.update _).bind fun log => .event _ _
  | none =>
    have hsame : s.state.remove jobId = s.state := by
      have hnone := Store.has_eq_false_iff.2 hfind
      unfold Store.remove
      rw [List.filter_eq_self.2 fun x hx => bne_iff_ne.2 (Store.jobId_ne_of_mem hnone hx)]
    rw [hsame]
    exact .event _ _

theorem clear_ends : Ends clear s (.ok ()) { s.state with snapshots := [] } := by
  unfold clear
  exact Ends.state.bind fun log => (Ends.update _).bind fun log => .event _ _

end Endings

end WebMigration.Backup
