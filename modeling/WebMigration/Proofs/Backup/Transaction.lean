import WebMigration.Backup.Transaction
import WebMigration.Proofs.Backup.Calls
import Mathlib.Tactic.SplitIfs

/-!
# How transactions end

A commit or a rollback either ends an active transaction or fails and changes nothing.  The store keeps
under the name of a job what was given when its snapshot was taken, so a transaction that is rolled
back gives back these contents, or nothing if its snapshot had to go.
-/

namespace WebMigration.Backup

open Run (Ends)

namespace Transaction

variable {t : Transaction} {s : Logged Store}

theorem isComplete_eq_false_iff : t.isComplete = false ↔ t.state = .active := by
  rw [isComplete, bne_eq_false_iff_eq]

/-! ### Committing and rolling back -/

/-- A transaction that has ended is not committed. -/
theorem commit_complete (h : t.isComplete = true) :
    ∃ fault, Ends t.commit s (.error fault) s.state := by
  unfold commit
  cases hstate : t.state with
  | active => rw [isComplete_eq_false_iff.2 hstate] at h; cases h
  | committed => exact ⟨_, .fail _⟩
  | rolledBack contents => exact ⟨_, .fail _⟩

/-- A commit of an active transaction succeeds and removes the snapshot of the job. -/
theorem commit_active (h : t.isComplete = false) :
    Ends t.commit s (.ok { t with state := .committed }) (s.state.remove t.jobId) := by
  unfold commit
  rw [isComplete_eq_false_iff.1 h]
  exact cleanup_ends.bind fun log => .pure _

/-- A transaction that has ended is not rolled back. -/
theorem rollback_complete (h : t.isComplete = true) :
    ∃ fault, Ends t.rollback s (.error fault) s.state := by
  unfold rollback
  cases hstate : t.state with
  | active => rw [isComplete_eq_false_iff.2 hstate] at h; cases h
  | committed => exact ⟨_, .fail _⟩
  | rolledBack contents => exact ⟨_, .fail _⟩

/-- A rollback of an active transaction gives back what the store has for the job; it fails if there is
nothing. -/
theorem rollback_active (h : t.isComplete = false) : Ends t.rollback s
    (match s.state.find? t.jobId with
      | some x => .ok { t with state := .rolledBack x.files }
      | none => .error (missing t.jobId)) s.state := by
  have hrestore : Ends (restore t.jobId) s _ _ := restore_ends
  unfold rollback
  rw [isComplete_eq_false_iff.1 h]
  cases hfind : s.state.find? t.jobId with
  | some x =>
    rw [hfind] at hrestore
    exact hrestore.bind fun log => .pure _
  | none =>
    rw [hfind] at hrestore
    exact hrestore.bind_error

/-- A transaction that was active has ended. -/
structure Over (t t' : Transaction) : Prop where
  active : t.isComplete = false
  complete : t'.isComplete = true
  jobId : t'.jobId = t.jobId

/-- A commit or rollback that succeeds ends an active transaction. -/
theorem over_of_ok {r : Run Store Transaction} (hr : r = t.commit ∨ r = t.rollback)
    {t' : Transaction} (h : (r s).1 = .ok t') : t.Over t' := by
  cases hcomplete : t.isComplete with
  | true =>
    obtain ⟨fault, hfails⟩ : ∃ fault, Ends r s (.error fault) s.state := by
      rcases hr with rfl | rfl
      · exact commit_complete hcomplete
      · exact rollback_complete hcomplete
    rw [hfails.1] at h
    cases h
  | false =>
    rcases hr with rfl | rfl
    · rw [(commit_active hcomplete).1] at h
      obtain rfl := Except.ok.inj h
      exact ⟨hcomplete, rfl, rfl⟩
    · rw [(rollback_active hcomplete).1] at h
      cases hfind : s.state.find? t.jobId <;> rw [hfind] at h
      · cases h
      · obtain rfl := Except.ok.inj h
        exact ⟨hcomplete, rfl, rfl⟩

/-! ### Closing -/

/-- The commit or rollback by which a transaction is closed, if there is anything to do. -/
def closing? (t : Transaction) (failed : Bool) (store : Store) : Option (Run Store Transaction) :=
  if t.isComplete then none
  else if failed then if store.has t.jobId then some t.rollback else none
  else some t.commit

theorem closing?_cases {failed : Bool} {store : Store} {r : Run Store Transaction}
    (h : t.closing? failed store = some r) : r = t.commit ∨ r = t.rollback := by
  unfold closing? at h
  split_ifs at h
  · exact .inr (Option.some.inj h).symm
  · exact .inl (Option.some.inj h).symm

theorem close_eq (t : Transaction) (failed : Bool) (s : Logged Store) :
    t.close failed s = match t.closing? failed s.state with
      | some r => r s
      | none => (.ok t, s) := by
  unfold close closing?
  cases t.isComplete <;> cases failed
  · rfl
  · rw [if_neg Bool.false_ne_true, if_pos rfl, if_neg Bool.false_ne_true, if_pos rfl,
      Run.bind_of_ok Run.state_eq]
    cases s.state.has t.jobId <;> rfl
  · rfl
  · rfl

/-- A transaction that has ended stays as it is. -/
theorem close_complete (h : t.isComplete = true) (failed : Bool) :
    Ends (t.close failed) s (.ok t) s.state := by
  unfold Ends
  rw [close_eq, closing?, if_pos h]
  exact ⟨rfl, rfl⟩

/-- A clean end commits. -/
theorem close_clean (h : t.isComplete = false) :
    Ends (t.close false) s (.ok { t with state := .committed }) (s.state.remove t.jobId) := by
  unfold Ends
  rw [close_eq, closing?, if_neg (ne_true_of_eq_false h), if_neg Bool.false_ne_true]
  exact commit_active h

/-- A failed end rolls back where there is a snapshot, and does nothing where there is none. -/
theorem close_failed (h : t.isComplete = false) : Ends (t.close true) s
    (.ok (match s.state.find? t.jobId with
      | some x => { t with state := .rolledBack x.files }
      | none => t)) s.state := by
  have hrollback := rollback_active (s := s) h
  unfold Ends
  rw [close_eq, closing?, if_neg (ne_true_of_eq_false h), if_pos rfl, Store.has_eq_isSome]
  cases hfind : s.state.find? t.jobId with
  | some x =>
    rw [hfind] at hrollback
    exact hrollback
  | none => exact ⟨rfl, rfl⟩

/-- Leaving a block closes the transaction and holds no error back. -/
theorem leave_eq (t : Transaction) (exception : Option Fault) :
    t.leave exception = (fun t => (t, false)) <$> t.close exception.isSome :=
  bind_pure_comp _ _

end Transaction

/-! ### What is given back -/

/-- Once a snapshot was taken, what is found under the name of the job has the contents that were
given. -/
theorem files_of_create {jobId name : String} {time : Int} {files : Contents}
    {metadata : List (String × Json)} {s s' : Logged Store}
    (h : create jobId time files metadata s = (.ok name, s')) {snapshot : Snapshot}
    (hfind : s'.state.find? jobId = some snapshot) : snapshot.files = files := by
  by_cases hhas : s.state.has jobId = true
  · cases ((create_duplicate hhas).eq h).1
  · have hnew := Bool.eq_false_iff.2 hhas
    rw [((create_new hnew).eq h).2] at hfind
    rw [Store.eq_nextSnapshot hnew hfind]
    rfl

/-- A transaction that is closed after a failure gives back what is found under the name of its job,
or nothing. -/
theorem restored?_of_close {jobId : String} {t : Transaction} {s s' : Logged Store}
    (h : Transaction.close { jobId } true s = (.ok t, s')) :
    t.restored? = none ∨ ∃ snapshot, s.state.find? jobId = some snapshot ∧
      t.restored? = some snapshot.files := by
  obtain ⟨hanswer, -⟩ := (Transaction.close_failed rfl).eq h
  obtain rfl := Except.ok.inj hanswer
  dsimp only
  cases hfind : s.state.find? jobId with
  | some x => exact .inr ⟨x, rfl, rfl⟩
  | none => exact .inl rfl

/-- A transaction that took the snapshot of some files and is closed after a failure gives these files
back, or nothing. -/
theorem restored?_of_begin {jobId : String} {time : Int} {files : Contents}
    {metadata : List (String × Json)} {t : Transaction} {s begun u closed : Logged Store}
    (hbegin : Transaction.begin { jobId } time files metadata s = (.ok (), begun))
    (hkept : u.state = begun.state) (hclose : Transaction.close { jobId } true u = (.ok t, closed)) :
    t.restored? = none ∨ t.restored? = some files := by
  rcases restored?_of_close hclose with hnone | ⟨snapshot, hfind, hsome⟩
  · exact .inl hnone
  · obtain ⟨_, _, hcreate, hdone⟩ := Run.bind_ok.1 hbegin
    rw [hkept, ← (Run.pure_ok.1 hdone).2] at hfind
    exact .inr (hsome.trans (congrArg some (files_of_create hcreate hfind)))

end WebMigration.Backup
