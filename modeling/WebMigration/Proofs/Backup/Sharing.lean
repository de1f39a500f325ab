import WebMigration.Proofs.Backup.History
import WebMigration.Proofs.Backup.Transaction
import Mathlib.Logic.Function.Basic

/-!
# Transactions that share a store

Any number of transactions work on one store, for different jobs or for the same job, and others call
the store in between.  Whatever the order, a transaction ends at most once, and only by a commit or a
rollback of its own that succeeds.
-/

namespace WebMigration.Backup

open Run (Ends)

variable {ι : Type}

/-- A store and the transactions that work on it. -/
structure Shared (ι : Type) where
  store : Store
  transactions : ι → Transaction

namespace Shared

variable {α : Type}

/-- A store and new transactions for some jobs. -/
def opened (store : Store) (jobs : ι → String) : Shared ι where
  store
  transactions i := { jobId := jobs i }

/-- Work on the store alone. -/
def onStore (r : Run Store α) : Run (Shared ι) α :=
  Run.onPart (·.store) (fun s store => { s with store }) r

theorem onStore_ends {s : Logged (Shared ι)} {r : Run Store α} {x : Except Fault α} {u : Store}
    (h : Ends r ⟨s.state.store, s.log⟩ x u) : Ends (onStore r) s x { s.state with store := u } :=
  h.onPart

/-- Work on the store leaves all transactions as they were. -/
theorem onStore_transactions (r : Run Store α) (s : Logged (Shared ι)) :
    ((fun _ => (none : Option Contents)) <$> onStore r) s |>.2.state.transactions =
      s.state.transactions := by
  have hstore : Ends (onStore r) s _ _ := onStore_ends ⟨rfl, rfl⟩
  rw [hstore.map.2]

variable [DecidableEq ι]

/-- A transaction stands in another way, and the store is another one. -/
def ended (s : Shared ι) (i : ι) (state : TransactionState) (store : Store) : Shared ι where
  store
  transactions := Function.update s.transactions i { s.transactions i with state }

/-- Work of a transaction on the store, after which the transaction may stand in another way. -/
def turn (i : ι) (work : Transaction → Run Store (Transaction × α)) : Run (Shared ι) α := do
  let (t, answer) ← onStore (work ((← Run.state).transactions i))
  Run.update fun s => { s with transactions := Function.update s.transactions i t }
  return answer

section Turn

variable {s : Logged (Shared ι)} {u : Store} {i : ι}
  {work : Transaction → Run Store (Transaction × α)}

/-- Work that answers leaves the transaction in its way. -/
theorem turn_ok {t : Transaction} {answer : α}
    (h : Ends (work (s.state.transactions i)) ⟨s.state.store, s.log⟩ (.ok (t, answer)) u) :
    Ends (turn i work) s (.ok answer) ⟨u, Function.update s.state.transactions i t⟩ := by
  unfold turn Ends
  rw [Run.bind_of_ok Run.state_eq]
  exact (onStore_ends h).bind fun log => (Ends.update _).bind fun log => .pure _

/-- Work that fails leaves all transactions as they were. -/
theorem turn_error {fault : Fault}
    (h : Ends (work (s.state.transactions i)) ⟨s.state.store, s.log⟩ (.error fault) u) :
    Ends (turn i work) s (.error fault) ⟨u, s.state.transactions⟩ := by
  unfold turn Ends
  rw [Run.bind_of_ok Run.state_eq]
  exact (onStore_ends h).bind_error

/-- After work that gives the transaction back in its new way and fails or not. -/
theorem turn_transactions (i : ι) (work : Transaction → Run Store Transaction)
    (answer : Transaction → α) (s : Logged (Shared ι)) :
    (turn i (fun t => (fun t => (t, answer t)) <$> work t) s).2.state.transactions =
      match (work (s.state.transactions i) ⟨s.state.store, s.log⟩).1 with
      | .ok t => Function.update s.state.transactions i t
      | .error _ => s.state.transactions := by
  rcases hr : work (s.state.transactions i) ⟨s.state.store, s.log⟩ with ⟨fault | t, u⟩
  · have hturn : Ends (turn i fun t => (fun t => (t, answer t)) <$> work t) s (.error fault) _ :=
      turn_error (Ends.of_eq hr).map
    rw [hturn.2]
  · have hturn : Ends (turn i fun t => (fun t => (t, answer t)) <$> work t) s (.ok (answer t)) _ :=
      turn_ok (Ends.of_eq hr).map
    rw [hturn.2]

end Turn

end Shared

/-! ### Steps -/

/-- A call on the store, or something that is done with a transaction. -/
inductive Step (ι : Type)
  | call (c : Call)
  | begin (i : ι) (time : Int) (input : FileInput) (metadata : List (String × Json))
  | commit (i : ι)
  | rollback (i : ι)
  /-- Leaving a block of work, which an error may have ended. -/
  | leave (i : ι) (exception : Option Fault)

namespace Step

/-- The commit or rollback that a step makes, and of which transaction. -/
def ending? : Step ι → Shared ι → Option (ι × Run Store Transaction)
  | call _, _ => none
  | begin _ _ _ _, _ => none
  | commit i, s => some (i, (s.transactions i).commit)
  | rollback i, s => some (i, (s.transactions i).rollback)
  | leave i exception, s =>
      ((s.transactions i).closing? exception.isSome s.store).map fun r => (i, r)

/-- What makes an end is a commit or a rollback. -/
theorem ending?_cases {step : Step ι} {s : Shared ι} {i : ι} {r : Run Store Transaction}
    (h : step.ending? s = some (i, r)) :
    r = (s.transactions i).commit ∨ r = (s.transactions i).rollback := by
  cases step with
  | call c => cases h
  | begin j time input metadata => cases h
  | commit j =>
    obtain ⟨rfl, rfl⟩ := Prod.mk.inj (Option.some.inj h)
    exact .inl rfl
  | rollback j =>
    obtain ⟨rfl, rfl⟩ := Prod.mk.inj (Option.some.inj h)
    exact .inr rfl
  | leave j exception =>
    obtain ⟨r', hr, heq⟩ := Option.map_eq_some_iff.1 h
    obtain ⟨rfl, rfl⟩ := Prod.mk.inj heq
    exact Transaction.closing?_cases hr

variable [DecidableEq ι]

/-- Raises an error that has not been held back. -/
def reraise (exception : Option Fault) (heldBack : Bool) : Run (Shared ι) (Option Contents) :=
  match exception with
  | some fault => if heldBack then pure none else Run.raise fault
  | none => pure none

/-- Makes a step; a rollback answers with what it gives back. -/
def perform : Step ι → Run (Shared ι) (Option Contents)
  | call c => (fun _ => none) <$> Shared.onStore c.perform
  | begin i time input metadata => do
      let t := (← Run.state).transactions i
      let taken := do
        let files ← Run.ofExcept input.contents
        t.begin time files metadata
      (fun _ => none) <$> Shared.onStore taken
  | commit i => Shared.turn i fun t => (fun t => (t, none)) <$> t.commit
  | rollback i => Shared.turn i fun t => (fun t => (t, t.restored?)) <$> t.rollback
  | leave i exception => do
      let heldBack ← Shared.turn i (·.leave exception)
      reraise exception heldBack

/-- Whether a step makes a commit or rollback of a transaction that succeeds. -/
def succeeds (i : ι) (step : Step ι) (s : Logged (Shared ι)) : Bool :=
  match step.ending? s.state with
  | none => false
  | some (j, r) => j = i && (r ⟨s.state.store, s.log⟩).1.isOk

/-- The transactions after a step: if it makes a commit or rollback that succeeds, this transaction has
ended, and all others stand as before. -/
def turned (step : Step ι) (s : Logged (Shared ι)) : ι → Transaction :=
  match step.ending? s.state with
  | none => s.state.transactions
  | some (i, r) =>
      match (r ⟨s.state.store, s.log⟩).1 with
      | .ok t => Function.update s.state.transactions i t
      | .error _ => s.state.transactions

/-- What follows when a block is left touches nothing. -/
theorem leave_state (i : ι) (exception : Option Fault) (s : Logged (Shared ι)) :
    ((leave i exception).perform s).2.state = (Shared.turn i (·.leave exception) s).2.state := by
  rcases hturn : Shared.turn i (·.leave exception) s with ⟨fault | heldBack, u⟩
  · rw [perform, Run.bind_of_error hturn]
  · rw [perform, Run.bind_of_ok hturn]
    rcases exception with _ | fault
    · rfl
    · cases heldBack <;> rfl

theorem perform_transactions (step : Step ι) (s : Logged (Shared ι)) :
    (step.perform s).2.state.transactions = step.turned s := by
  cases step with
  | call c => exact Shared.onStore_transactions _ s
  | begin i time input metadata =>
    rw [perform, Run.bind_of_ok Run.state_eq]
    exact Shared.onStore_transactions _ s
  | commit i => exact Shared.turn_transactions i (·.commit) _ s
  | rollback i => exact Shared.turn_transactions i (·.rollback) _ s
  | leave i exception =>
    rw [leave_state]
    simp only [Transaction.leave_eq]
    rw [Shared.turn_transactions i (·.close exception.isSome) _ s, Transaction.close_eq, turned,
      ending?]
    rcases (s.state.transactions i).closing? exception.isSome s.state.store with _ | r
    · -- With nothing to do the transaction is put back as it was.
      exact Function.update_eq_self i _
    · rfl

/-- A step ends a transaction exactly when it makes a commit or rollback of it that succeeds; any other
step leaves the transaction as it is. -/
theorem perform_cases (i : ι) (step : Step ι) (s : Logged (Shared ι)) :
    step.succeeds i s = false ∧
      (step.perform s).2.state.transactions i = s.state.transactions i ∨
    step.succeeds i s = true ∧
      (s.state.transactions i).Over ((step.perform s).2.state.transactions i) := by
  rw [perform_transactions, turned, succeeds]
  rcases hending : step.ending? s.state with _ | ⟨j, r⟩
  · exact .inl ⟨rfl, rfl⟩
  · dsimp only
    rcases hr : (r ⟨s.state.store, s.log⟩).1 with fault | t
    · exact .inl ⟨Bool.and_false _, rfl⟩
    · by_cases hij : j = i
      · subst hij
        refine .inr ⟨by simp [Except.isOk, Except.toBool], ?_⟩
        dsimp only
        rw [Function.update_self]
        exact Transaction.over_of_ok (ending?_cases hending) hr
      · exact .inl ⟨by simp [hij], Function.update_of_ne (Ne.symm hij) _ _⟩

end Step

/-! ### A transaction ends once -/

variable [DecidableEq ι]

/-- A store and its transactions after some steps; one that fails is followed by the next one all the
same. -/
def afterSteps (steps : List (Step ι)) (s : Logged (Shared ι)) : Logged (Shared ι) :=
  steps.foldl (fun s step => (step.perform s).2) s

/-- How many of the steps make a commit or rollback of a transaction that succeeds. -/
def successes (i : ι) : List (Step ι) → Logged (Shared ι) → Nat
  | [], _ => 0
  | step :: rest, s => (if step.succeeds i s then 1 else 0) + successes i rest (step.perform s).2

section Once

variable {i : ι} {s : Logged (Shared ι)} (steps : List (Step ι))

/-- A transaction that has ended stays as it is: no commit and no rollback of it succeeds, and it keeps
what it gave back. -/
theorem afterSteps_of_complete (h : (s.state.transactions i).isComplete = true) :
    successes i steps s = 0 ∧
      (afterSteps steps s).state.transactions i = s.state.transactions i := by
  induction steps generalizing s with
  | nil => exact ⟨rfl, rfl⟩
  | cons step rest ih =>
    -- That the transaction has ended is what every step keeps.
    rcases step.perform_cases i s with ⟨hfails, hsame⟩ | ⟨-, hover⟩
    · obtain ⟨hrest, hafter⟩ := ih (s := (step.perform s).2) (by rw [hsame]; exact h)
      exact ⟨by simp [successes, hfails, hrest], hafter.trans hsame⟩
    · rw [hover.active] at h
      cases h

/-- Of the commits and rollbacks of an active transaction one succeeds if it has ended after the steps,
and none if it is still active. -/
theorem successes_of_active (h : (s.state.transactions i).isComplete = false) :
    successes i steps s =
      if ((afterSteps steps s).state.transactions i).isComplete then 1 else 0 := by
  induction steps generalizing s with
  | nil => simp [successes, afterSteps, h]
  | cons step rest ih =>
    rcases step.perform_cases i s with ⟨hfails, hsame⟩ | ⟨hsucceeds, hover⟩
    · rw [successes, hfails, ih (by rw [hsame]; exact h)]
      exact Nat.zero_add _
    · -- This was the one: the transaction has ended, so nothing that follows succeeds.
      obtain ⟨hrest, hafter⟩ := afterSteps_of_complete rest hover.complete
      have hended : ((afterSteps (step :: rest) s).state.transactions i).isComplete = true :=
        hafter ▸ hover.complete
      simp [successes, hsucceeds, hrest, hended]

theorem jobId_afterSteps :
    ((afterSteps steps s).state.transactions i).jobId = (s.state.transactions i).jobId := by
  induction steps generalizing s with
  | nil => rfl
  | cons step rest ih =>
    refine ih.trans ?_
    rcases step.perform_cases i s with ⟨-, hsame⟩ | ⟨-, hover⟩
    · rw [hsame]
    · exact hover.jobId

end Once

/-! ### How a step of a transaction ends -/

namespace Step

variable {i : ι} {s : Logged (Shared ι)}

theorem commit_complete (h : (s.state.transactions i).isComplete = true) :
    ∃ fault, Ends (commit i).perform s (.error fault) s.state := by
  obtain ⟨fault, hcommit⟩ := Transaction.commit_complete (s := ⟨s.state.store, s.log⟩) h
  exact ⟨fault, Shared.turn_error hcommit.map⟩

theorem commit_active (h : (s.state.transactions i).isComplete = false) :
    Ends (commit i).perform s (.ok none) (s.state.ended i .committed
      (s.state.store.remove (s.state.transactions i).jobId)) :=
  Shared.turn_ok (Transaction.commit_active h).map

theorem rollback_complete (h : (s.state.transactions i).isComplete = true) :
    ∃ fault, Ends (rollback i).perform s (.error fault) s.state := by
  obtain ⟨fault, hrollback⟩ := Transaction.rollback_complete (s := ⟨s.state.store, s.log⟩) h
  exact ⟨fault, Shared.turn_error hrollback.map⟩

theorem rollback_missing (h : (s.state.transactions i).isComplete = false)
    (hfind : s.state.store.find? (s.state.transactions i).jobId = none) :
    Ends (rollback i).perform s (.error (missing (s.state.transactions i).jobId)) s.state := by
  have hrollback := Transaction.rollback_active (s := ⟨s.state.store, s.log⟩) h
  rw [hfind] at hrollback
  exact Shared.turn_error hrollback.map

theorem rollback_found (h : (s.state.transactions i).isComplete = false) {x : Snapshot}
    (hfind : s.state.store.find? (s.state.transactions i).jobId = some x) :
    Ends (rollback i).perform s (.ok (some x.files))
      (s.state.ended i (.rolledBack x.files) s.state.store) := by
  have hrollback := Transaction.rollback_active (s := ⟨s.state.store, s.log⟩) h
  rw [hfind] at hrollback
  exact Shared.turn_ok hrollback.map

/-- Leaving a block closes the transaction, and raises the error that ended the block. -/
theorem leave_ends {exception : Option Fault} {t : Transaction} {u : Store}
    (h : Ends ((s.state.transactions i).close exception.isSome) ⟨s.state.store, s.log⟩ (.ok t) u) :
    Ends (leave i exception).perform s (exception.elim (.ok none) .error)
      ⟨u, Function.update s.state.transactions i t⟩ := by
  have hleave : Ends ((s.state.transactions i).leave exception) ⟨s.state.store, s.log⟩
      (.ok (t, false)) u := by
    rw [Transaction.leave_eq]
    exact h.map
  refine (Shared.turn_ok hleave).bind fun log => ?_
  rcases exception with _ | fault
  · exact .pure _
  · exact .raise _

theorem leave_complete (h : (s.state.transactions i).isComplete = true)
    (exception : Option Fault) :
    Ends (leave i exception).perform s (exception.elim (.ok none) .error) s.state := by
  have hleave := leave_ends (i := i) (s := s) (Transaction.close_complete h exception.isSome)
  rwa [Function.update_eq_self] at hleave

theorem leave_clean (h : (s.state.transactions i).isComplete = false) :
    Ends (leave i none).perform s (.ok none) (s.state.ended i .committed
      (s.state.store.remove (s.state.transactions i).jobId)) :=
  leave_ends (Transaction.close_clean h)

theorem leave_failed (h : (s.state.transactions i).isComplete = false) (fault : Fault) :
    Ends (leave i (some fault)).perform s (.error fault)
      (match s.state.store.find? (s.state.transactions i).jobId with
        | some x => s.state.ended i (.rolledBack x.files) s.state.store
        | none => s.state) := by
  have hclose := Transaction.close_failed (s := ⟨s.state.store, s.log⟩) h
  have hleave : Ends (leave i (some fault)).perform s (.error fault) _ := leave_ends hclose
  cases hfind : s.state.store.find? (s.state.transactions i).jobId with
  | some x =>
    rw [hfind] at hleave
    exact hleave
  | none =>
    rw [hfind, Function.update_eq_self] at hleave
    exact hleave

end Step

/-- A transaction is committed, and no snapshot goes but that of its job. -/
structure Shared.Commits (s : Shared ι) (i : ι) (s' : Shared ι) : Prop where
  ended : s' = s.ended i .committed (s.store.remove (s.transactions i).jobId)
  kept : ∀ x, x ∈ s'.store.snapshots ↔ x ∈ s.store.snapshots ∧ x.jobId ≠ (s.transactions i).jobId

/-- How committing a transaction ends: it fails exactly when the transaction has ended, and then it
changes nothing. -/
structure CommitEnds (s : Logged (Shared ι)) (i : ι) : Prop where
  fails : (∃ fault, ((Step.commit i).perform s).1 = .error fault) ↔
    (s.state.transactions i).isComplete = true
  refused : ∀ fault, ((Step.commit i).perform s).1 = .error fault →
    ((Step.commit i).perform s).2.state = s.state
  done : ∀ answer, ((Step.commit i).perform s).1 = .ok answer →
    s.state.Commits i ((Step.commit i).perform s).2.state

/-- How rolling a transaction back ends: it fails exactly when the transaction has ended or its job has
no snapshot, and then it changes nothing; else it answers with what is in the snapshot. -/
structure RollbackEnds (s : Logged (Shared ι)) (i : ι) : Prop where
  fails : (∃ fault, ((Step.rollback i).perform s).1 = .error fault) ↔
    (s.state.transactions i).isComplete = true ∨
      s.state.store.has (s.state.transactions i).jobId = false
  refused : ∀ fault, ((Step.rollback i).perform s).1 = .error fault →
    ((Step.rollback i).perform s).2.state = s.state
  done : ∀ answer, ((Step.rollback i).perform s).1 = .ok answer → ∃ x,
    s.state.store.find? (s.state.transactions i).jobId = some x ∧ answer = some x.files ∧
    ((Step.rollback i).perform s).2.state = s.state.ended i (.rolledBack x.files) s.state.store

/-- How leaving a block of work on a transaction ends: an error that ended the block is raised in any
case, and nothing else is. -/
structure LeaveEnds (s : Logged (Shared ι)) (i : ι) : Prop where
  raised : ∀ fault, ((Step.leave i (some fault)).perform s).1 = .error fault
  quiet : ((Step.leave i none).perform s).1 = .ok none
  complete : (s.state.transactions i).isComplete = true → ∀ exception,
    ((Step.leave i exception).perform s).2.state = s.state
  found : (s.state.transactions i).isComplete = false → ∀ x,
    s.state.store.find? (s.state.transactions i).jobId = some x → ∀ fault,
    ((Step.leave i (some fault)).perform s).2.state =
      s.state.ended i (.rolledBack x.files) s.state.store
  missing : (s.state.transactions i).isComplete = false →
    s.state.store.has (s.state.transactions i).jobId = false → ∀ fault,
    ((Step.leave i (some fault)).perform s).2.state = s.state
  clean : (s.state.transactions i).isComplete = false →
    s.state.Commits i ((Step.leave i none).perform s).2.state

theorem Shared.commits_remove (s : Shared ι) (i : ι) :
    s.Commits i (s.ended i .committed (s.store.remove (s.transactions i).jobId)) :=
  ⟨rfl, fun _ => Store.mem_remove⟩

theorem commitEnds (s : Logged (Shared ι)) (i : ι) : CommitEnds s i := by
  cases hcomplete : (s.state.transactions i).isComplete with
  | true =>
    obtain ⟨fault, hanswer, hstate⟩ := Step.commit_complete hcomplete
    refine ⟨iff_of_true ⟨fault, hanswer⟩ hcomplete, fun _ _ => hstate, fun answer hok => ?_⟩
    rw [hanswer] at hok
    cases hok
  | false =>
    obtain ⟨hanswer, hstate⟩ := Step.commit_active hcomplete
    refine ⟨?_, fun fault herror => ?_, fun _ _ => hstate ▸ s.state.commits_remove i⟩
    · simp [hanswer, hcomplete]
    · rw [hanswer] at herror
      cases herror

theorem rollbackEnds (s : Logged (Shared ι)) (i : ι) : RollbackEnds s i := by
  cases hcomplete : (s.state.transactions i).isComplete with
  | true =>
    obtain ⟨fault, hanswer, hstate⟩ := Step.rollback_complete hcomplete
    refine ⟨iff_of_true ⟨fault, hanswer⟩ (.inl hcomplete), fun _ _ => hstate, fun answer hok => ?_⟩
    rw [hanswer] at hok
    cases hok
  | false =>
    cases hfind : s.state.store.find? (s.state.transactions i).jobId with
    | none =>
      obtain ⟨hanswer, hstate⟩ := Step.rollback_missing hcomplete hfind
      refine ⟨iff_of_true ⟨_, hanswer⟩ (.inr (Store.has_eq_false_iff.2 hfind)), fun _ _ => hstate,
        fun answer hok => ?_⟩
      rw [hanswer] at hok
      cases hok
    | some x =>
      obtain ⟨hanswer, hstate⟩ := Step.rollback_found hcomplete hfind
      refine ⟨?_, fun fault herror => ?_, fun answer hok => ⟨x, hfind, ?_, hstate⟩⟩
      · simp [hanswer, hcomplete, Store.has_eq_isSome, hfind]
      · rw [hanswer] at herror
        cases herror
      · rw [hanswer] at hok
        exact (Except.ok.inj hok).symm

theorem leaveEnds (s : Logged (Shared ι)) (i : ι) : LeaveEnds s i := by
  cases hcomplete : (s.state.transactions i).isComplete with
  | true =>
    have hleave := Step.leave_complete hcomplete
    refine
      { raised := fun fault => (hleave (some fault)).1
        quiet := (hleave none).1
        complete := fun _ exception => (hleave exception).2
        found := fun hactive => ?_
        missing := fun hactive => ?_
        clean := fun hactive => ?_ } <;>
    · rw [hcomplete] at hactive
      cases hactive
  | false =>
    have hfailed := Step.leave_failed hcomplete
    have hclean := Step.leave_clean hcomplete
    refine
      { raised := fun fault => (hfailed fault).1
        quiet := hclean.1
        complete := fun hended => ?_
        found := fun _ x hfind fault => ?_
        missing := fun _ hhas fault => ?_
        clean := fun _ => hclean.2 ▸ s.state.commits_remove i }
    · rw [hcomplete] at hended
      cases hended
    · rw [(hfailed fault).2, hfind]
    · rw [(hfailed fault).2, Store.has_eq_false_iff.1 hhas]

/-- **A transaction ends once.**  Whatever is done with transactions that share a store and with the
store in between, of all commits and rollbacks of a transaction at most one succeeds, and the
transaction has ended when one has; and every commit, rollback and exit does what it is for and nothing
else. -/
theorem transactions_end_once (store : Store) (log : List LogLine) (jobs : ι → String)
    (steps : List (Step ι)) (i : ι) :
    successes i steps ⟨.opened store jobs, log⟩ ≤ 1 ∧
      (successes i steps ⟨.opened store jobs, log⟩ = 1 ↔
        ((afterSteps steps ⟨.opened store jobs, log⟩).state.transactions i).isComplete = true) ∧
      ((afterSteps steps ⟨.opened store jobs, log⟩).state.transactions i).jobId = jobs i ∧
      CommitEnds (afterSteps steps ⟨.opened store jobs, log⟩) i ∧
      RollbackEnds (afterSteps steps ⟨.opened store jobs, log⟩) i ∧
      LeaveEnds (afterSteps steps ⟨.opened store jobs, log⟩) i := by
  have hcount := successes_of_active (i := i) (s := ⟨.opened store jobs, log⟩) steps rfl
  refine ⟨?_, ?_, jobId_afterSteps steps, commitEnds _ i, rollbackEnds _ i, leaveEnds _ i⟩
  · rw [hcount]
    split_ifs <;> omega
  · rw [hcount]
    split_ifs with hended <;> simp [hended]

end WebMigration.Backup
