import WebMigration.Proofs.Failure.Run
import WebMigration.Recovery.Manager

/-!
# When recovering answers

A recovery manager first asks the strategy that it has chosen whether it takes on the failure, and only
then runs it under a guard.  A strategy that is asked asks in turn the conditions of its parts until
one says yes.  So an error of the failed step, of something run in its place, of a hook or of a
condition for skipping is an answer, and so is an error of a condition that is asked again under the
guard; an error of a condition that is asked first is not.
-/

namespace WebMigration.Recovery

variable {σ α : Type}

/-! ### Asking in turn -/

/-- Whether some question is answered with yes, asking in turn. -/
def firstYes : List (Run σ Bool) → Run σ Bool
  | [] => pure false
  | question :: rest => do if ← question then pure true else firstYes rest

section FirstYes

variable {question : Run σ Bool} {rest : List (Run σ Bool)} {s t : Logged σ}

theorem firstYes_of_error {raised : Fault} (h : question s = (.error raised, t)) :
    firstYes (question :: rest) s = (.error raised, t) :=
  Run.bind_of_error h

theorem firstYes_of_yes (h : question s = (.ok true, t)) :
    firstYes (question :: rest) s = (.ok true, t) :=
  Run.bind_of_ok h

theorem firstYes_of_no (h : question s = (.ok false, t)) :
    firstYes (question :: rest) s = firstYes rest t :=
  Run.bind_of_ok h

theorem firstYes_singleton (question : Run σ Bool) : firstYes [question] = question := by
  funext s
  rcases h : question s with ⟨raised | answer, t⟩
  · exact firstYes_of_error h
  · cases answer
    · exact firstYes_of_no h
    · exact firstYes_of_yes h

/-- More questions are only asked when none of the first ones is answered with yes. -/
theorem firstYes_append (asked more : List (Run σ Bool)) :
    firstYes (asked ++ more) = (do if ← firstYes asked then pure true else firstYes more) := by
  funext s
  induction asked generalizing s with
  | nil => rfl
  | cons question rest ih =>
    rw [List.cons_append]
    rcases h : question s with ⟨raised | answer, t⟩
    · rw [firstYes_of_error h, Run.bind_of_error (firstYes_of_error h)]
    · cases answer
      · rw [firstYes_of_no h, ih]
        rcases hrest : firstYes rest t with ⟨raised | answer, u⟩
        · rw [Run.bind_of_error hrest, Run.bind_of_error ((firstYes_of_no h).trans hrest)]
        · rw [Run.bind_of_ok hrest, Run.bind_of_ok ((firstYes_of_no h).trans hrest)]
      · rw [firstYes_of_yes h, Run.bind_of_ok (firstYes_of_yes h)]
        rfl

/-- A question that is reached, since all before it were answered with no, raises an error. -/
def Reaches (questions : List (Run σ Bool)) (s : Logged σ) (raised : Fault) : Prop :=
  ∃ asked question rest t, questions = asked ++ question :: rest ∧
    firstYes asked s = (.ok false, t) ∧ (question t).1 = .error raised

theorem reaches_nil {raised : Fault} : ¬ Reaches [] s raised := by
  rintro ⟨asked, question, rest, t, hquestions, -⟩
  cases asked <;> cases hquestions

theorem reaches_cons {raised : Fault} : Reaches (question :: rest) s raised ↔
    (question s).1 = .error raised ∨ ∃ t, question s = (.ok false, t) ∧ Reaches rest t raised := by
  constructor
  · rintro ⟨asked, reached, later, t, hquestions, hasked, hraised⟩
    cases asked with
    | nil =>
      obtain ⟨rfl, rfl⟩ := List.cons.inj hquestions
      obtain ⟨-, rfl⟩ := Run.pure_ok.1 hasked
      exact .inl hraised
    | cons first asked =>
      obtain ⟨rfl, rfl⟩ := List.cons.inj hquestions
      rcases h : question s with ⟨fault | answer, u⟩
      · rw [firstYes_of_error h] at hasked
        cases (Run.end_inj.1 hasked).1
      · cases answer
        · rw [firstYes_of_no h] at hasked
          exact .inr ⟨u, rfl, asked, reached, later, t, rfl, hasked, hraised⟩
        · rw [firstYes_of_yes h] at hasked
          cases (Run.end_inj.1 hasked).1
  · rintro (hraised | ⟨u, h, asked, reached, later, t, rfl, hasked, hraised⟩)
    · exact ⟨[], question, rest, s, rfl, rfl, hraised⟩
    · exact ⟨question :: asked, reached, later, t, rfl, (firstYes_of_no h).trans hasked, hraised⟩

/-- Asking in turn raises what a question raises that is reached. -/
theorem firstYes_error_iff {questions : List (Run σ Bool)} {raised : Fault} :
    (firstYes questions s).1 = .error raised ↔ Reaches questions s raised := by
  induction questions generalizing s with
  | nil => exact iff_of_false (fun h => by cases h) reaches_nil
  | cons question rest ih =>
    rw [reaches_cons]
    rcases h : question s with ⟨fault | answer, t⟩
    · rw [firstYes_of_error h]
      simp
    · cases answer
      · rw [firstYes_of_no h, ih]
        simp
      · rw [firstYes_of_yes h]
        simp

end FirstYes

namespace Strategy

mutual

/-- What a strategy asks in turn when it is asked whether it takes on a failure. -/
def questions (failure : Failure) : Strategy σ α → List (Run σ Bool)
  | retry _ => [pure failure.recoverable]
  | fallback options => options.map (·.fits failure)
  | skip _ _ => [pure true]
  | composite members => allQuestions failure members
  | custom _ accepts _ => [accepts failure]

/-- What some strategies ask in turn. -/
def allQuestions (failure : Failure) : List (Strategy σ α) → List (Run σ Bool)
  | [] => []
  | s :: rest => questions failure s ++ allQuestions failure rest

end

theorem anyFits_eq (failure : Failure) (options : List (Fallback σ α)) :
    anyFits failure options = firstYes (options.map (·.fits failure)) := by
  induction options with
  | nil => rfl
  | cons o rest ih => rw [anyFits, List.map_cons, firstYes, ih]

mutual

/-- A strategy takes on a failure when one of its questions is answered with yes. -/
theorem accepts_eq (failure : Failure) : ∀ strategy : Strategy σ α,
    accepts failure strategy = firstYes (questions failure strategy)
  | retry _ => by rw [accepts, questions, firstYes_singleton]
  | fallback options => by rw [accepts, questions, anyFits_eq]
  | skip _ _ => by rw [accepts, questions, firstYes_singleton]
  | composite members => by rw [accepts, questions, anyAccepts_eq failure members]
  | custom _ _ _ => by rw [accepts, questions, firstYes_singleton]

theorem anyAccepts_eq (failure : Failure) : ∀ members : List (Strategy σ α),
    anyAccepts failure members = firstYes (allQuestions failure members)
  | [] => by rw [anyAccepts, allQuestions, firstYes]
  | s :: rest => by
    rw [anyAccepts, allQuestions, firstYes_append, accepts_eq failure s, anyAccepts_eq failure rest]

end

end Strategy

/-! ### Recovering -/

namespace Manager

variable {m : Manager σ α} {fault : Fault} {context : Context} {operation : Run σ α} {s t : Logged σ}

/-- Without a strategy there is an outcome. -/
theorem recover_unknown (h : m.strategyFor? fault.toFailure.code = none) :
    ∃ outcome u, m.recover fault context operation s = (.ok outcome, u) := by
  unfold recover
  rw [h]
  exact ⟨_, _, rfl⟩

section Chosen

variable {strategy : Strategy σ α}
  (hchosen : m.strategyFor? fault.toFailure.code = some strategy)

include hchosen

/-- Once the strategy has said whether it takes on the failure, there is an outcome. -/
theorem recover_asked {accepted : Bool}
    (h : strategy.accepts fault.toFailure s = (.ok accepted, t)) :
    ∃ outcome u, m.recover fault context operation s = (.ok outcome, u) := by
  unfold recover
  rw [hchosen]
  dsimp only
  rw [Run.bind_of_ok h]
  cases accepted with
  | true =>
    -- From here on the strategy runs under the guard, whatever it asks again.
    rw [if_pos rfl, Run.bind_of_ok Run.attempt_eq]
    rcases (strategy.recover fault.toFailure context operation t).1 with raised | outcome
    · exact ⟨_, _, rfl⟩
    · exact ⟨_, _, rfl⟩
  | false => exact ⟨_, _, rfl⟩

/-- An error of asking the strategy is raised. -/
theorem recover_unasked {raised : Fault}
    (h : strategy.accepts fault.toFailure s = (.error raised, t)) :
    m.recover fault context operation s = (.error raised, t) := by
  unfold recover
  rw [hchosen]
  exact Run.bind_of_error h

end Chosen

/-- Recovering answers with an outcome exactly when no question of the chosen strategy that is reached
raises an error; whatever else raises errors does not matter. -/
theorem recover_answers_iff (m : Manager σ α) (fault : Fault) (context : Context)
    (operation : Run σ α) (s : Logged σ) :
    (∃ outcome t, m.recover fault context operation s = (.ok outcome, t)) ↔
      ∀ strategy, m.strategyFor? fault.toFailure.code = some strategy →
        ∀ raised, ¬ Reaches (strategy.questions fault.toFailure) s raised := by
  simp only [← firstYes_error_iff, ← Strategy.accepts_eq]
  constructor
  · rintro ⟨outcome, t, hrecover⟩ strategy hchosen raised hraised
    exact Run.error_ne_ok (recover_unasked hchosen (Prod.ext hraised rfl)) hrecover
  · intro hasked
    cases hchosen : m.strategyFor? fault.toFailure.code with
    | none => exact recover_unknown hchosen
    | some strategy =>
      rcases h : strategy.accepts fault.toFailure s with ⟨raised | accepted, t⟩
      · exact absurd (congrArg Prod.fst h) (hasked strategy hchosen raised)
      · exact recover_asked hchosen h

/-- What a condition raises that looks for a code in something that has no members. -/
def notIterable : Fault := .of .type "argument of type 'int' is not iterable"

/-- A manager whose only strategy asks a condition that raises an error. -/
def undecided : Manager Unit String where
  default := some (.fallback
    [{ name := "cached", fits := fun _ => Run.raise notIterable, run := fun _ => pure "cached" }])

/-- A failure of the service that might be recovered from. -/
def serviceDown : Fault := .failure (.aiService "down" "unknown" true)

theorem recover_undecided (operation : Run Unit String) (s : Logged Unit) :
    undecided.recover serviceDown { operation := "transform" } operation s =
      (.error notIterable, s) :=
  recover_unasked rfl rfl

/-- The error of a condition that is asked first is raised, though the failed step could succeed now. -/
theorem undecided_raises :
    ¬ ∃ outcome t, undecided.recover serviceDown { operation := "transform" } (pure "result")
      ⟨(), []⟩ = (.ok outcome, t) := by
  rintro ⟨outcome, t, hrecover⟩
  exact Run.error_ne_ok (recover_undecided _ _) hrecover

end Manager

end WebMigration.Recovery
