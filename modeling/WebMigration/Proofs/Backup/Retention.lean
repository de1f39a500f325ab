import WebMigration.Proofs.Backup.History

/-!
# What a store keeps

At any time a store is in order, each call on it does what it is for and nothing else, and a job gets
back what was given to it.  A snapshot that was just taken can be given up again at once: in a full
store the oldest one goes, and that is the new one if the clock reads earlier for it than for all
others.
-/

namespace WebMigration.Backup

open Run (Ends)

/-- A store that has seen no call yet. -/
def unused (capacity : Nat) (log : List LogLine) : Logged Store := ⟨{ capacity }, log⟩

theorem after_unused_sound (capacity : Nat) (log : List LogLine) (calls : List Call) :
    (after calls (unused capacity log)).state.Sound ∧
      (after calls (unused capacity log)).state.capacity = capacity :=
  after_sound calls (Store.sound_empty capacity)

/-! ### The store -/

/-- A store is in order: it holds no more snapshots than it may, each is found under the name of its
own job, their numbers differ, and they are listed from the newest to the oldest. -/
structure Store.InOrder (capacity : Nat) (s : Store) : Prop where
  limit : s.capacity = capacity
  bounded : s.snapshots.length ≤ capacity
  own : ∀ x ∈ s.snapshots, s.find? x.jobId = some x
  numbered : (s.snapshots.map (·.sequence)).Nodup
  listed : ∃ snapshots : List Snapshot, list s = snapshots.map (·.info) ∧
    snapshots.Perm s.snapshots ∧ snapshots.Pairwise fun a b => b.Older a

theorem Store.Sound.inOrder {s : Store} (h : s.Sound) {capacity : Nat}
    (hlimit : s.capacity = capacity) : s.InOrder capacity where
  limit := hlimit
  bounded := hlimit ▸ h.bounded
  own _ hx := h.find?_of_mem hx
  numbered := h.numbered
  listed := ⟨s.newestFirst, rfl, Store.newestFirst_descending h.numbered⟩

/-! ### Creating -/

/-- A store takes a new snapshot: as long as there is room, all others stay; else the oldest of all goes
and no other. -/
structure Store.Takes (s : Store) (new : Snapshot) (t : Store) : Prop where
  room : s.snapshots.length < s.capacity → t.snapshots = s.snapshots ++ [new]
  full : s.snapshots.length = s.capacity → ∃ oldest, IsOldest oldest (s.snapshots ++ [new]) ∧
    ∀ x, x ∈ t.snapshots ↔ x ∈ s.snapshots ++ [new] ∧ x ≠ oldest

theorem Store.Sound.takes {s : Store} (h : s.Sound) {jobId : String} (hnew : s.has jobId = false)
    (time : Int) (files : Contents) (metadata : List (String × Json)) :
    s.Takes (s.nextSnapshot jobId time files metadata)
      (s.enlarged jobId time files metadata).evict := by
  have hlabelled := h.toLabelled.enlarged hnew time files metadata
  rcases h.evict_enlarged hnew time files metadata with
    ⟨hroom, hevict⟩ | ⟨hfull, oldest, holdest, hevict⟩ <;> rw [hevict]
  · exact ⟨fun _ => rfl, fun hfull => absurd hfull (Nat.ne_of_lt hroom)⟩
  · refine ⟨fun hroom => absurd hfull (Nat.ne_of_lt hroom), fun _ => ⟨oldest, holdest, fun x => ?_⟩⟩
    rw [Store.mem_remove, Store.enlarged_snapshots]
    refine and_congr_right fun hx => not_congr ⟨fun hname => ?_, fun heq => heq ▸ rfl⟩
    exact hlabelled.eq_of_jobId hx holdest.1 hname

/-- How creating the snapshot of a job ends in a state. -/
structure Creates (s : Logged Store) (jobId : String) (time : Int) (files : Contents)
    (metadata : List (String × Json)) : Prop where
  /-- A job that has a snapshot gets no other one, and nothing changes. -/
  refused : s.state.has jobId = true →
    (create jobId time files metadata s).1 = .error (duplicate jobId) ∧
      (create jobId time files metadata s).2.state = s.state
  /-- Any other job gets one, if all files have contents. -/
  accepted : ∀ name, (create jobId time files metadata s).1 = .ok name ↔
    name = jobId ∧ s.state.has jobId = false ∧ ∀ e ∈ files, e.2 ≠ none
  /-- The new snapshot is taken, and with it at most the oldest one goes. -/
  taken : ∀ name, (create jobId time files metadata s).1 = .ok name →
    s.state.Takes (s.state.nextSnapshot jobId time files metadata)
      (create jobId time files metadata s).2.state

theorem creates {s : Logged Store} (h : s.state.Sound) (jobId : String) (time : Int)
    (files : Contents) (metadata : List (String × Json)) : Creates s jobId time files metadata := by
  by_cases hhas : s.state.has jobId = true
  · obtain ⟨hanswer, hstate⟩ :=
      (create_duplicate hhas : Ends (create jobId time files metadata) s _ _)
    refine ⟨fun _ => ⟨hanswer, hstate⟩, fun name => ?_, fun name hok => ?_⟩
    · simp [hanswer, hhas]
    · rw [hanswer] at hok
      cases hok
  · have hnew := Bool.eq_false_iff.2 hhas
    obtain ⟨hanswer, hstate⟩ := (create_new hnew : Ends (create jobId time files metadata) s _ _)
    refine ⟨fun hold => absurd hold hhas, fun name => ?_, fun name _ => ?_⟩
    · rw [hanswer, ← isSome_totalSize_iff]
      by_cases hsize : (totalSize files).isSome = true <;> simp [hsize, hnew, eq_comm]
    · rw [hstate]
      exact h.takes hnew time files metadata

/-! ### Restoring -/

/-- How restoring ends after some calls, for a job and for a file of a job: it gives what the job has
held since it was given, fails where there is nothing to give, and changes nothing. -/
structure Restores (calls : List Call) (start : Logged Store) (jobId : String) : Prop where
  contents : ∀ files, (restore jobId (after calls start)).1 = .ok files ↔
    HeldSince calls start jobId files
  absent : ∀ fault, (restore jobId (after calls start)).1 = .error fault ↔
    (after calls start).state.has jobId = false ∧ fault = missing jobId
  fileContent : ∀ path content, (restoreFile jobId path (after calls start)).1 = .ok content ↔
    ∃ files, HeldSince calls start jobId files ∧ files.get? path = some content
  fileAbsent : ∀ path fault, (restoreFile jobId path (after calls start)).1 = .error fault ↔
    (after calls start).state.has jobId = false ∧ fault = missing jobId ∨
    ∃ files, HeldSince calls start jobId files ∧ files.get? path = none ∧
      fault = missingFile jobId path
  unchanged : (restore jobId (after calls start)).2.state = (after calls start).state ∧
    ∀ path, (restoreFile jobId path (after calls start)).2.state = (after calls start).state

section Restores

variable {start : Logged Store} (h : start.state.Sound) (hempty : start.state.snapshots = [])
  (calls : List Call) (jobId : String)

include h hempty

/-- What a job has held is what is found under its name. -/
theorem heldSince_iff (files : Contents) : HeldSince calls start jobId files ↔
    ∃ x, (after calls start).state.find? jobId = some x ∧ x.files = files := by
  constructor
  · exact find?_of_heldSince h
  · rintro ⟨x, hx, rfl⟩
    exact heldSince_of_find? h hempty hx

theorem restores : Restores calls start jobId := by
  have hheld := heldSince_iff h hempty calls jobId
  obtain ⟨hanswer, hstate⟩ := (restore_ends : Ends (restore jobId) (after calls start) _ _)
  have hfile path := (restoreFile_ends : Ends (restoreFile jobId path) (after calls start) _ _)
  refine ⟨fun files => ?_, fun fault => ?_, fun path content => ?_, fun path fault => ?_,
    hstate, fun path => (hfile path).2⟩
  · rw [hanswer, hheld]
    cases (after calls start).state.find? jobId <;> simp
  · rw [hanswer, Store.has_eq_isSome]
    cases (after calls start).state.find? jobId <;> simp [eq_comm]
  · rw [(hfile path).1]
    simp only [hheld]
    rcases (after calls start).state.find? jobId with _ | x
    · simp
    · cases hx : x.files.get? path <;> simp [hx]
  · rw [(hfile path).1, Store.has_eq_isSome]
    simp only [hheld]
    rcases (after calls start).state.find? jobId with _ | x
    · simp [eq_comm]
    · cases hx : x.files.get? path <;> simp [hx, eq_comm]

end Restores

/-! ### Removing -/

/-- How removing the snapshot of a job ends in a state: it never fails, and only this one goes. -/
def Cleans (s : Logged Store) (jobId : String) : Prop :=
  (cleanup jobId s).1 = .ok () ∧ ∀ x, x ∈ (cleanup jobId s).2.state.snapshots ↔
    x ∈ s.state.snapshots ∧ x.jobId ≠ jobId

theorem cleans (s : Logged Store) (jobId : String) : Cleans s jobId := by
  obtain ⟨hanswer, hstate⟩ := (cleanup_ends : Ends (cleanup jobId) s _ _)
  exact ⟨hanswer, fun x => hstate ▸ Store.mem_remove⟩

/-! ### What was just created -/

/-- A store has a place for a snapshot of some time: there is room, or another snapshot is not newer. -/
def Store.HasPlaceFor (s : Store) (time : Int) : Prop :=
  s.snapshots.length < s.capacity ∨ ∃ x ∈ s.snapshots, x.time ≤ time

/-- The new snapshot stays exactly when there is a place for it. -/
theorem Store.Takes.mem_iff {s t : Store} (hs : s.Sound) {new : Snapshot} (htakes : s.Takes new t)
    (hnumber : new.sequence = s.created + 1) : new ∈ t.snapshots ↔ s.HasPlaceFor new.time := by
  have hnew : new ∈ s.snapshots ++ [new] := by simp
  unfold HasPlaceFor
  rcases Nat.lt_or_eq_of_le hs.bounded with hroom | hfull
  · rw [htakes.room hroom]
    exact iff_of_true hnew (.inl hroom)
  · obtain ⟨oldest, ⟨holdest, hothers⟩, hmem⟩ := htakes.full hfull
    rw [hmem, and_iff_right hnew]
    constructor
    · intro hne
      rcases List.mem_append.1 holdest with hold | hlast
      · -- The one that goes is older than the new one, so the clock did not read later for it.
        have holder := hothers new hnew hne
        refine .inr ⟨oldest, hold, ?_⟩
        unfold Snapshot.Older at holder
        omega
      · exact absurd (List.mem_singleton.1 hlast).symm hne
    · rintro (hroom | ⟨x, hx, hle⟩) rfl
      · exact absurd hfull (Nat.ne_of_lt hroom)
      · -- At equal times the new one has the greater number, so another one would have to go.
        have hcount := hs.counted x hx
        have holder := hothers x (List.mem_append_left _ hx) fun heq => by
          rw [heq] at hcount
          omega
        unfold Snapshot.Older at holder
        omega

/-- A new job has a snapshot after its creation exactly when the new snapshot stays. -/
theorem Store.has_iff_mem {s : Store} {jobId : String} (hnew : s.has jobId = false) (time : Int)
    (files : Contents) (metadata : List (String × Json)) :
    (s.enlarged jobId time files metadata).evict.has jobId = true ↔
      s.nextSnapshot jobId time files metadata ∈
        (s.enlarged jobId time files metadata).evict.snapshots := by
  refine ⟨fun hhas => ?_, fun hmem => Store.has_of_mem hmem⟩
  rw [Store.has_eq_isSome, Option.isSome_iff_exists] at hhas
  obtain ⟨x, hx⟩ := hhas
  have hmem := Store.mem_of_find? hx
  rwa [Store.eq_nextSnapshot hnew hx] at hmem

/-- After a creation that succeeded, the job has a snapshot exactly when there was a place for it, and
then restoring gives the contents back. -/
theorem restore_created {s t : Logged Store} (h : s.state.Sound) {jobId name : String} {time : Int}
    {files : Contents} {metadata : List (String × Json)}
    (hcreate : create jobId time files metadata s = (.ok name, t)) :
    (t.state.has jobId = true ↔ s.state.HasPlaceFor time) ∧
      (restore jobId t).1 = if t.state.has jobId then .ok files else .error (missing jobId) := by
  have haccepted := (creates h jobId time files metadata).accepted name
  rw [hcreate] at haccepted
  have hnew : s.state.has jobId = false := (haccepted.1 rfl).2.1
  obtain ⟨-, hstate⟩ := (create_new hnew).eq hcreate
  have hrestore := (restore_ends : Ends (restore jobId) t _ _).1
  have hhas := Store.has_iff_mem hnew time files metadata
  rw [hrestore, hstate]
  refine ⟨hhas.trans ((h.takes hnew time files metadata).mem_iff h rfl), ?_⟩
  split_ifs with hkept
  · have hfound := (h.create hnew time files metadata).find?_of_mem (hhas.1 hkept)
    rw [show (s.state.enlarged jobId time files metadata).evict.find? jobId = some _ from hfound]
    rfl
  · rw [Store.has_eq_false_iff.1 (Bool.eq_false_iff.2 hkept)]

/-! ### Results -/

/-- **A store is in order at all times.**  After any calls at any times of the clock, also after calls
that failed, the store is in order; creating, restoring and removing do what they are for and leave
everything else as it was. -/
theorem backups_in_order (capacity : Nat) (log : List LogLine) (calls : List Call) :
    (after calls (unused capacity log)).state.InOrder capacity ∧
    (∀ jobId time files metadata,
      Creates (after calls (unused capacity log)) jobId time files metadata) ∧
    (∀ jobId, Restores calls (unused capacity log) jobId) ∧
    (∀ jobId, Cleans (after calls (unused capacity log)) jobId) ∧
    (clear (after calls (unused capacity log))).1 = .ok () ∧
    (clear (after calls (unused capacity log))).2.state.snapshots = [] := by
  obtain ⟨hsound, hcapacity⟩ := after_unused_sound capacity log calls
  obtain ⟨hanswer, hstate⟩ := (clear_ends : Ends clear (after calls (unused capacity log)) _ _)
  refine ⟨hsound.inOrder hcapacity, creates hsound, fun jobId => ?_, cleans _, hanswer, ?_⟩
  · exact restores (Store.sound_empty capacity) rfl calls jobId
  · rw [hstate]

/-- **A backup that was just created can be restored exactly when there was a place for it.**  There is
none in a full store when the clock reads earlier for the new snapshot than for all others; then the
job has no snapshot although creating it succeeded. -/
theorem created_restorable_iff {capacity : Nat} {log : List LogLine} {calls : List Call}
    {jobId name : String} {time : Int} {files : Contents} {metadata : List (String × Json)}
    {s t : Logged Store} (hs : after calls (unused capacity log) = s)
    (hcreate : create jobId time files metadata s = (.ok name, t)) :
    ((t.state.has jobId = true ∧ (restore jobId t).1 = .ok files) ↔ s.state.HasPlaceFor time) ∧
    (¬ s.state.HasPlaceFor time →
      t.state.has jobId = false ∧ (restore jobId t).1 = .error (missing jobId)) := by
  have hsound : s.state.Sound := hs ▸ (after_unused_sound capacity log calls).1
  obtain ⟨hhas, hrestore⟩ := restore_created hsound hcreate
  refine ⟨⟨fun h => hhas.1 h.1, fun hplace => ?_⟩, fun hplace => ?_⟩
  · have hkept := hhas.2 hplace
    rw [hrestore, if_pos hkept]
    exact ⟨hkept, rfl⟩
  · have hgone : ¬ t.state.has jobId = true := fun hkept => hplace (hhas.1 hkept)
    rw [hrestore, if_neg hgone]
    exact ⟨Bool.eq_false_iff.2 hgone, rfl⟩

/-- A store for one snapshot, which it has. -/
def fullStore : Logged Store :=
  after [.create "a" 10 (.table [("a.js", some "f();\n")]) []] (unused 1 [])

/-- There is no place for a snapshot that is taken earlier than the one that fills the store. -/
theorem no_place_in_fullStore : ¬ fullStore.state.HasPlaceFor 5 := by
  unfold Store.HasPlaceFor
  decide

theorem create_in_fullStore :
    ∃ t, create "b" 5 [("b.js", some "g();\n")] [] fullStore = (.ok "b", t) :=
  ⟨_, Prod.ext (create_new rfl).1 rfl⟩

theorem created_restorable_iff_late :
    ∃ t, create "b" 5 [("b.js", some "g();\n")] [] fullStore = (.ok "b", t) ∧
      ¬ fullStore.state.HasPlaceFor 5 ∧
      t.state.has "b" = false ∧ (restore "b" t).1 = .error (missing "b") := by
  obtain ⟨t, hcreate⟩ := create_in_fullStore
  exact ⟨t, hcreate, no_place_in_fullStore,
    (created_restorable_iff rfl hcreate).2 no_place_in_fullStore⟩

/-- The snapshot of a job goes at once when the clock reads earlier for it than for the one that fills
the store. -/
theorem late_backup_given_up :
    ∃ t, create "b" 5 [("b.js", some "g();\n")] [] fullStore = (.ok "b", t) ∧
      ¬ (t.state.has "b" = true ∧ (restore "b" t).1 = .ok [("b.js", some "g();\n")]) := by
  obtain ⟨t, hcreate⟩ := create_in_fullStore
  have hsound : fullStore.state.Sound := (after_unused_sound 1 [] _).1
  exact ⟨t, hcreate, fun h => no_place_in_fullStore ((restore_created hsound hcreate).1.1 h.1)⟩

end WebMigration.Backup
