import WebMigration.Proofs.Failure.Closed
import WebMigration.Proofs.Table
import WebMigration.Recovery.Manager

/-!
# Recovering keeps to closed kinds

What a recovery manager does is built out of the failed step and of the conditions, hooks and
alternatives that its strategies were given.  If these are of a closed kind, so is recovering.
-/

namespace WebMigration.Recovery

open Run (Kind)

variable {σ α : Type} {Q : Kind σ}

mutual

/-- Whatever a strategy was given to run is of a kind. -/
def Strategy.Given (Q : Kind σ) : Strategy σ α → Prop
  | .retry _ => True
  | .fallback options => ∀ o ∈ options, (∀ failure, Q Bool (o.fits failure)) ∧ ∀ c, Q α (o.run c)
  | .skip condition hook =>
      (∀ failure c, Q Bool (condition failure c)) ∧ ∀ failure c, Q Unit (hook failure c)
  | .composite members => Strategy.AllGiven Q members
  | .custom _ accepts recover =>
      (∀ failure, Q Bool (accepts failure)) ∧
        ∀ failure c operation, Q α operation → Q (Outcome α) (recover failure c operation)

/-- Whatever some strategies were given to run is of a kind. -/
def Strategy.AllGiven (Q : Kind σ) : List (Strategy σ α) → Prop
  | [] => True
  | s :: rest => Strategy.Given Q s ∧ Strategy.AllGiven Q rest

end

namespace Strategy

variable {failure : Failure} {context : Context} {operation : Run σ α}

section

variable (hQ : Q.Closed)

include hQ

theorem log_closed (event : String) (data : List (String × Json)) :
    Q Unit (log event context data) := hQ.event _ _

theorem warn_closed (event : String) (data : List (String × Json)) :
    Q Unit (warn event context data) := hQ.warning _ _

theorem anyFits_closed {options : List (Fallback σ α)}
    (h : ∀ o ∈ options, ∀ failure, Q Bool (o.fits failure)) : Q Bool (anyFits failure options) := by
  induction options with
  | nil => exact hQ.pure false
  | cons o rest ih =>
    obtain ⟨ho, hrest⟩ := List.forall_mem_cons.1 h
    refine hQ.bind (ho failure) fun fits => ?_
    split
    · exact hQ.pure true
    · exact ih hrest

mutual

theorem accepts_closed : ∀ {s : Strategy σ α}, s.Given Q → Q Bool (accepts failure s)
  | .retry _, _ => by
    rw [accepts]
    exact hQ.pure _
  | .fallback options, h => by
    rw [Given] at h
    rw [accepts]
    exact anyFits_closed hQ fun o ho => (h o ho).1
  | .skip _ _, _ => by
    rw [accepts]
    exact hQ.pure _
  | .composite members, h => by
    rw [Given] at h
    rw [accepts]
    exact anyAccepts_closed h
  | .custom _ _ _, h => by
    rw [Given] at h
    rw [accepts]
    exact h.1 failure

theorem anyAccepts_closed : ∀ {members : List (Strategy σ α)}, AllGiven Q members →
    Q Bool (anyAccepts failure members)
  | [], _ => by
    rw [anyAccepts]
    exact hQ.pure false
  | s :: rest, h => by
    rw [AllGiven] at h
    rw [anyAccepts]
    refine hQ.bind (accepts_closed h.1) fun accepted => ?_
    split
    · exact hQ.pure true
    · exact anyAccepts_closed h.2

end

theorem tryOnce_closed (policy : RetryPolicy) (h : Q α operation) (count : Nat) :
    Q (Except Fault α) (tryOnce policy context operation count) :=
  hQ.bind (log_closed hQ _ _) fun _ => hQ.attempt h

theorem succeedAfter_closed (count : Nat) (data : α) :
    Q (Outcome α) (succeedAfter context count data) :=
  hQ.bind (log_closed hQ _ _) fun _ => hQ.pure _

theorem failAfter_closed (count : Nat) (fault : Fault) :
    Q (Outcome α) (failAfter context count fault) :=
  hQ.bind (warn_closed hQ _ _) fun _ => hQ.pure _

theorem tryAgain_closed (policy : RetryPolicy) (h : Q α operation) (left count steps : Nat) :
    Q (Outcome α) (tryAgain policy context operation left count steps) := by
  induction left generalizing count steps with
  | zero =>
    rw [tryAgain]
    refine hQ.bind (tryOnce_closed hQ policy h count) fun answer => ?_
    split
    · exact succeedAfter_closed hQ _ _
    · exact failAfter_closed hQ _ _
  | succ left ih =>
    rw [tryAgain]
    refine hQ.bind (tryOnce_closed hQ policy h count) fun answer => ?_
    split
    · exact succeedAfter_closed hQ _ _
    · split
      · exact failAfter_closed hQ _ _
      · split
        · exact hQ.pure _
        · exact hQ.bind (log_closed hQ _ _) fun _ => ih _ _

theorem runRetry_closed (policy : RetryPolicy) (h : Q α operation) :
    Q (Outcome α) (runRetry policy failure context operation) := by
  refine hQ.bind (log_closed hQ _ _) fun _ => ?_
  split
  · exact tryAgain_closed hQ policy h _ _ _
  · exact hQ.raise _

theorem runOptions_closed {options : List (Fallback σ α)} (count : Nat)
    (h : ∀ o ∈ options, (∀ failure, Q Bool (o.fits failure)) ∧ ∀ c, Q α (o.run c)) :
    Q (Outcome α) (runOptions failure context count options) := by
  induction options with
  | nil => exact hQ.bind (log_closed hQ _ _) fun _ => hQ.pure _
  | cons o rest ih =>
    obtain ⟨ho, hrest⟩ := List.forall_mem_cons.1 h
    refine hQ.bind (ho.1 failure) fun fits => ?_
    split
    · refine hQ.bind (hQ.attempt (ho.2 context)) fun answer => ?_
      split
      · exact hQ.bind (log_closed hQ _ _) fun _ => hQ.pure _
      · exact hQ.bind (log_closed hQ _ _) fun _ => ih hrest
    · exact ih hrest

theorem runFallback_closed {options : List (Fallback σ α)}
    (h : ∀ o ∈ options, (∀ failure, Q Bool (o.fits failure)) ∧ ∀ c, Q α (o.run c)) :
    Q (Outcome α) (runFallback options failure context) :=
  hQ.bind (log_closed hQ _ _) fun _ => runOptions_closed hQ _ h

theorem runSkip_closed {condition : Failure → Context → Run σ Bool}
    {hook : Failure → Context → Run σ Unit} (hcondition : ∀ failure c, Q Bool (condition failure c))
    (hhook : ∀ failure c, Q Unit (hook failure c)) :
    Q (Outcome α) (runSkip condition hook failure context) := by
  refine hQ.bind (hcondition failure context) fun skips => ?_
  split
  · exact hQ.bind (log_closed hQ _ _) fun _ => hQ.bind (hhook failure context) fun _ => hQ.pure _
  · exact hQ.pure _

mutual

/-- Recovering by a strategy is of a closed kind that the failed step is of and whatever the
strategy was given. -/
theorem recover_closed (h : Q α operation) : ∀ {s : Strategy σ α}, s.Given Q →
    Q (Outcome α) (recover failure context operation s)
  | .retry policy, _ => by
    rw [recover]
    exact runRetry_closed hQ policy h
  | .fallback options, hs => by
    rw [Given] at hs
    rw [recover]
    exact runFallback_closed hQ hs
  | .skip condition hook, hs => by
    rw [Given] at hs
    rw [recover]
    exact runSkip_closed hQ hs.1 hs.2
  | .composite members, hs => by
    rw [Given] at hs
    rw [recover]
    exact hQ.bind (log_closed hQ _ _) fun _ => recoverByFirst_closed h _ _ hs
  | .custom _ _ _, hs => by
    rw [Given] at hs
    rw [recover]
    exact hs.2 failure context operation h

theorem recoverByFirst_closed (h : Q α operation) (count : Nat) (tried : List String) :
    ∀ {members : List (Strategy σ α)}, AllGiven Q members →
      Q (Outcome α) (recoverByFirst failure context operation count tried members)
  | [], _ => by
    rw [recoverByFirst]
    exact hQ.bind (log_closed hQ _ _) fun _ => hQ.pure _
  | s :: rest, hs => by
    rw [AllGiven] at hs
    rw [recoverByFirst]
    refine hQ.bind (accepts_closed hQ hs.1) fun accepted => ?_
    split
    · refine hQ.bind (recover_closed h hs.1) fun outcome => ?_
      split
      · exact hQ.bind (log_closed hQ _ _) fun _ => hQ.pure _
      · exact hQ.bind (log_closed hQ _ _) fun _ => recoverByFirst_closed h _ _ hs.2
    · exact recoverByFirst_closed h _ _ hs.2

end

end

end Strategy

namespace Manager

/-- Whatever the strategies of a manager were given to run is of a kind. -/
structure Given (Q : Kind σ) (m : Manager σ α) : Prop where
  strategies : m.strategies.All fun s => s.Given Q
  default : ∀ s ∈ m.default, s.Given Q

theorem given_of_strategyFor? {m : Manager σ α} (h : m.Given Q) {code : String}
    {s : Strategy σ α} (hs : m.strategyFor? code = some s) : s.Given Q := by
  unfold strategyFor? at hs
  rcases hget : m.strategies.get? code with _ | own <;> rw [hget] at hs
  · exact h.default s hs
  · obtain rfl := Option.some.inj hs
    exact h.strategies _ (Table.mem_of_get? hget)

/-- Recovering is of a closed kind that the failed step is of and whatever the strategies were
given. -/
theorem recover_closed (hQ : Q.Closed) {m : Manager σ α} (h : m.Given Q) {operation : Run σ α}
    (hoperation : Q α operation) (fault : Fault) (context : Context) :
    Q (Outcome α) (m.recover fault context operation) := by
  unfold recover
  dsimp only
  split
  · exact hQ.bind (Strategy.warn_closed hQ _ _) fun _ => hQ.pure _
  · rename_i s hs
    have hgiven := given_of_strategyFor? h hs
    refine hQ.bind (Strategy.accepts_closed hQ hgiven) fun accepted => ?_
    split
    · refine hQ.bind (hQ.attempt (Strategy.recover_closed hQ hoperation hgiven)) fun answer => ?_
      split
      · exact hQ.pure _
      · exact hQ.pure _
    · exact hQ.bind (Strategy.warn_closed hQ _ _) fun _ => hQ.pure _

/-- The usual strategies were given nothing to run but answers. -/
theorem standard_given (hQ : Q.Closed) (policy : RetryPolicy) :
    (standard policy : Manager σ α).Given Q := by
  have hskip : (skipTransformation : Strategy σ α).Given Q := by
    rw [skipTransformation, Strategy.Given]
    exact ⟨fun _ _ => hQ.pure _, fun _ _ => hQ.pure _⟩
  have hretry : (Strategy.retry policy : Strategy σ α).Given Q := by
    rw [Strategy.Given]
    trivial
  constructor
  · intro entry hentry
    simp only [standard, List.mem_cons, List.not_mem_nil, or_false] at hentry
    rcases hentry with rfl | rfl | rfl | rfl
    · exact hretry
    · exact hretry
    · exact hretry
    · exact hskip
  · rintro s ⟨⟩
    rw [Strategy.Given, Strategy.AllGiven, Strategy.AllGiven, Strategy.AllGiven]
    exact ⟨hretry, hskip, trivial⟩

end Manager

end WebMigration.Recovery
