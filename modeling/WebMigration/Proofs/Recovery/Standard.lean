import WebMigration.Proofs.Failure.Run
import WebMigration.Proofs.Number.Overflow
import WebMigration.Proofs.Table
import WebMigration.Recovery.Manager

/-!
# What the usual strategies come to

Recovering by the usual strategies is told by the runs of the failed step: how many there are, and what
the last one came to.  To count them, the step is replaced by one that notes what each of its runs came
to; this changes nothing else.  A pause with too many milliseconds for a number of seconds keeps the
step from being run at all.
-/

namespace WebMigration.Recovery

open Number (Binary64)

variable {σ α β γ : Type}

/-! ### Noting runs -/

/-- What the runs of a step came to, in order. -/
abbrev Runs (α : Type) := List (Except Fault α)

/-- A step that notes what each of its runs comes to. -/
def noting (operation : Run σ α) : Run (σ × Runs α) α := fun s =>
  match operation ⟨s.state.1, s.log⟩ with
  | (x, t) => (x, ⟨(t.state, s.state.2 ++ [x]), t.log⟩)

/-- From a state a computation ends with an outcome and in a state after some runs of the step: `plain`
uses the step itself, and `noted` the one that notes its runs. -/
structure EndsAfter (plain : Run σ β) (noted : Run (σ × Runs α) β) (s : Logged σ) (x : Except Fault β)
    (runs : Runs α) (t : Logged σ) : Prop where
  plain : plain s = (x, t)
  noted : ∀ before, noted ⟨(s.state, before), s.log⟩ = (x, ⟨(t.state, before ++ runs), t.log⟩)

namespace EndsAfter

variable {plain : Run σ β} {noted : Run (σ × Runs α) β} {s t u : Logged σ} {runs more : Runs α}

theorem bind {next : β → Run σ γ} {next' : β → Run (σ × Runs α) γ} {b : β} {y : Except Fault γ}
    (h : EndsAfter plain noted s (.ok b) runs t) (hnext : EndsAfter (next b) (next' b) t y more u) :
    EndsAfter (plain >>= next) (noted >>= next') s y (runs ++ more) u where
  plain := (Run.bind_of_ok h.plain).trans hnext.plain
  noted before := by
    rw [Run.bind_of_ok (h.noted before), hnext.noted, List.append_assoc]

theorem bind_error {next : β → Run σ γ} {next' : β → Run (σ × Runs α) γ} {fault : Fault}
    (h : EndsAfter plain noted s (.error fault) runs t) :
    EndsAfter (plain >>= next) (noted >>= next') s (.error fault) runs t where
  plain := Run.bind_of_error h.plain
  noted before := Run.bind_of_error (h.noted before)

theorem attempt {x : Except Fault β} (h : EndsAfter plain noted s x runs t) :
    EndsAfter (Run.attempt plain) (Run.attempt noted) s (.ok x) runs t where
  plain := by rw [Run.attempt_eq, h.plain]
  noted before := by rw [Run.attempt_eq, h.noted]

theorem pure (b : β) (s : Logged σ) :
    EndsAfter (Pure.pure b) (Pure.pure b) s (.ok b) ([] : Runs α) s where
  plain := rfl
  noted before := by rw [List.append_nil]; rfl

theorem raise (fault : Fault) (s : Logged σ) :
    EndsAfter (Run.raise fault : Run σ β) (Run.raise fault) s (.error fault) ([] : Runs α) s where
  plain := rfl
  noted before := by rw [List.append_nil]; rfl

/-- A line of the log comes before the rest. -/
theorem write {l : LogLine} {next : Run σ β} {next' : Run (σ × Runs α) β} {x : Except Fault β}
    (h : EndsAfter next next' { s with log := l :: s.log } x runs t) :
    EndsAfter (do Run.write l; next) (do Run.write l; next') s x runs t where
  plain := h.plain
  noted := h.noted

/-- One run of the step is noted. -/
theorem step {operation : Run σ α} {x : Except Fault α} (h : operation s = (x, t)) :
    EndsAfter operation (noting operation) s x [x] t where
  plain := h
  noted before := by
    unfold noting
    rw [h]

end EndsAfter

/-- From a state a computation ends with an outcome after some runs of the step, in whatever state. -/
def Finishes (plain : Run σ β) (noted : Run (σ × Runs α) β) (s : Logged σ) (x : Except Fault β)
    (runs : Runs α) : Prop :=
  ∃ t, EndsAfter plain noted s x runs t

namespace Finishes

variable {plain : Run σ β} {noted : Run (σ × Runs α) β} {s t : Logged σ} {runs : Runs α}

theorem pure (b : β) (s : Logged σ) :
    Finishes (Pure.pure b) (Pure.pure b) s (.ok b) ([] : Runs α) :=
  ⟨s, .pure b s⟩

theorem write {l : LogLine} {next : Run σ β} {next' : Run (σ × Runs α) β} {x : Except Fault β}
    (h : Finishes next next' { s with log := l :: s.log } x runs) :
    Finishes (do Run.write l; next) (do Run.write l; next') s x runs := by
  obtain ⟨t, h⟩ := h
  exact ⟨t, h.write⟩

/-- What comes after the last run does not change the runs. -/
theorem after {next : β → Run σ γ} {next' : β → Run (σ × Runs α) γ} {b : β} {y : Except Fault γ}
    (h : EndsAfter plain noted s (.ok b) runs t)
    (hnext : Finishes (next b) (next' b) t y ([] : Runs α)) :
    Finishes (plain >>= next) (noted >>= next') s y runs := by
  obtain ⟨u, hnext⟩ := hnext
  have hend := h.bind hnext
  rw [List.append_nil] at hend
  exact ⟨u, hend⟩

end Finishes

/-! ### Trying again -/

/-- What trying a step at most `limit` times comes to: the last run decides. -/
structure Tried (limit : Nat) (runs : Runs α) (outcome : Outcome α) : Prop where
  ran : runs ≠ []
  bounded : runs.length ≤ limit
  success_iff : outcome.success = true ↔ ∃ v, runs.getLast? = some (.ok v)
  data : ∀ v, runs.getLast? = some (.ok v) → outcome.data = some v

namespace Tried

theorem succeeded (v : α) (count : Nat) :
    Tried 1 [.ok v] (.succeeded "RetryStrategy" count (some v)) where
  ran := List.cons_ne_nil _ _
  bounded := Nat.le_refl 1
  success_iff := iff_of_true rfl ⟨v, rfl⟩
  data := by
    rintro w ⟨⟩
    rfl

theorem failed (ended fault : Fault) (count : Nat) :
    Tried 1 [.error ended] (.failed "RetryStrategy" count fault : Outcome α) where
  ran := List.cons_ne_nil _ _
  bounded := Nat.le_refl 1
  success_iff := iff_of_false Bool.false_ne_true (by rintro ⟨v, ⟨⟩⟩)
  data := by rintro v ⟨⟩

variable {limit : Nat} {runs : Runs α} {outcome : Outcome α}

theorem mono {more : Nat} (h : Tried limit runs outcome) (hle : limit ≤ more) :
    Tried more runs outcome :=
  { h with bounded := h.bounded.trans hle }

/-- Another outcome that agrees on the success and, where there is one, on the data. -/
theorem congr {other : Outcome α} (h : Tried limit runs outcome)
    (hsuccess : other.success = outcome.success)
    (hdata : outcome.success = true → other.data = outcome.data) : Tried limit runs other :=
  { h with
    success_iff := by rw [hsuccess, h.success_iff]
    data := fun v hv => (hdata (h.success_iff.2 ⟨v, hv⟩)).trans (h.data v hv) }

/-- A run before the last one does not count. -/
theorem cons (x : Except Fault α) (h : Tried limit runs outcome) :
    Tried (limit + 1) (x :: runs) outcome where
  ran := List.cons_ne_nil _ _
  bounded := Nat.succ_le_succ h.bounded
  success_iff := by
    rw [List.getLast?_cons_of_ne_nil h.ran]
    exact h.success_iff
  data := by
    rw [List.getLast?_cons_of_ne_nil h.ran]
    exact h.data

end Tried

namespace Strategy

variable {policy : RetryPolicy} {failure : Failure} {context : Context} {operation : Run σ α}

theorem tryOnce_endsAfter (policy : RetryPolicy) (context : Context) (operation : Run σ α)
    (count : Nat) (s : Logged σ) :
    ∃ x t, EndsAfter (tryOnce policy context operation count)
      (tryOnce policy context (noting operation) count) s (.ok x) [x] t := by
  rcases h : operation { s with log := (Event.line .info "recovery:retry:attempt" (("context",
    context.toJson) :: [("attempt", .ofNat count), ("max_retries", .ofNat policy.maxRetries)])) ::
      s.log } with ⟨x, t⟩
  exact ⟨x, t, .write (.attempt (.step h))⟩

/-- Trying again ends with an outcome, after runs of which the last one decides. -/
theorem tryAgain_finishes (policy : RetryPolicy) (context : Context) (operation : Run σ α)
    (left count steps : Nat) (s : Logged σ) :
    ∃ outcome runs, Finishes (tryAgain policy context operation left count steps)
      (tryAgain policy context (noting operation) left count steps) s (.ok outcome) runs ∧
      Tried (left + 1) runs outcome := by
  induction left generalizing count steps s with
  | zero =>
    obtain ⟨x, t, hrun⟩ := tryOnce_endsAfter policy context operation count s
    rw [tryAgain, tryAgain]
    cases x with
    | ok v => exact ⟨_, _, .after hrun (.write (.pure _ _)), .succeeded v count⟩
    | error fault => exact ⟨_, _, .after hrun (.write (.pure _ _)), .failed fault fault count⟩
  | succ left ih =>
    obtain ⟨x, t, hrun⟩ := tryOnce_endsAfter policy context operation count s
    have hone : 1 ≤ left + 1 + 1 := by omega
    rw [tryAgain, tryAgain]
    cases x with
    | ok v => exact ⟨_, _, .after hrun (.write (.pure _ _)), (Tried.succeeded v count).mono hone⟩
    | error fault =>
      by_cases hfatal : fault.isFatal = true
      · refine ⟨_, _, .after hrun ?_, (Tried.failed fault fault count).mono hone⟩
        simp only [hfatal, if_true]
        exact .write (.pure _ _)
      by_cases houtgrown : policy.outgrows steps = true
      · refine ⟨_, _, .after hrun ?_, (Tried.failed fault policy.outgrown count).mono hone⟩
        simp only [hfatal, houtgrown, if_true]
        exact .pure _ _
      · -- The pause is logged, and the tries that are left come after it.
        obtain ⟨outcome, runs, ⟨u, hmore⟩, htried⟩ := ih (count + 1) (policy.nextStep steps) _
        refine ⟨outcome, .error fault :: runs, ⟨u, hrun.bind ?_⟩, htried.cons _⟩
        simp only [hfatal, houtgrown]
        exact .write hmore

/-- With pauses that are numbers of seconds a step is tried up to the limit. -/
theorem runRetry_timed (hlimit : 1 ≤ policy.maxRetries) (htimed : policy.isTimed = true)
    (failure : Failure) (context : Context) (operation : Run σ α) (s : Logged σ) :
    ∃ outcome runs t, EndsAfter (runRetry policy failure context operation)
      (runRetry policy failure context (noting operation)) s (.ok outcome) runs t ∧
      Tried policy.maxRetries runs outcome := by
  obtain ⟨outcome, runs, ⟨t, hend⟩, htried⟩ :=
    tryAgain_finishes policy context operation (policy.maxRetries - 1) 1 0
      { s with log := _ :: s.log }
  rw [Nat.sub_add_cancel hlimit] at htried
  refine ⟨outcome, runs, t, ?_, htried⟩
  unfold runRetry
  simp only [htimed, if_true]
  exact .write hend

/-- With other pauses it is not run. -/
theorem runRetry_untimed (htimed : policy.isTimed = false) (failure : Failure) (context : Context)
    (operation : Run σ α) (s : Logged σ) :
    Finishes (runRetry policy failure context operation)
      (runRetry policy failure context (noting operation)) s (.error RetryPolicy.untimed) [] := by
  unfold runRetry
  simp only [htimed]
  exact .write ⟨_, .raise _ _⟩

theorem recover_retry (failure : Failure) (context : Context) (operation : Run σ α) :
    recover failure context operation (.retry policy) =
      runRetry policy failure context operation := by
  rw [recover]

theorem recover_composite (failure : Failure) (context : Context) (operation : Run σ α)
    (members : List (Strategy σ α)) :
    recover failure context operation (.composite members) = (do
      log "composite:start" context
        [("error", .string failure.code), ("strategy_count", .ofNat members.length)]
      recoverByFirst failure context operation members.length [] members) := by
  rw [recover]

/-- A combination runs a member that takes on the failure, and goes on if it does not succeed. -/
theorem recoverByFirst_accepted {strategy : Strategy σ α}
    (h : accepts failure strategy = pure true) (context : Context) (operation : Run σ α)
    (count : Nat) (tried : List String) (rest : List (Strategy σ α)) :
    recoverByFirst failure context operation count tried (strategy :: rest) = (do
      let outcome ← recover failure context operation strategy
      if outcome.success then
        log "composite:success" context [("strategy", .string strategy.name)]
        return { outcome with tried := tried ++ [strategy.name] }
      else
        log "composite:failed" context [("strategy", .string strategy.name)]
        recoverByFirst failure context operation count (tried ++ [strategy.name]) rest) := by
  rw [recoverByFirst, h, pure_bind, if_pos rfl]

/-- It goes past a member that does not. -/
theorem recoverByFirst_declined {strategy : Strategy σ α}
    (h : accepts failure strategy = pure false) (context : Context) (operation : Run σ α)
    (count : Nat) (tried : List String) (rest : List (Strategy σ α)) :
    recoverByFirst failure context operation count tried (strategy :: rest) =
      recoverByFirst failure context operation count tried rest := by
  rw [recoverByFirst, h, pure_bind, if_neg Bool.false_ne_true]

end Strategy

namespace RetryPolicy

theorem seconds_isInfinite_iff (milliseconds : Nat) :
    (seconds milliseconds).isInfinite = true ↔ Binary64.limit * 1000 ≤ milliseconds :=
  Binary64.isInfinite_ofQuotient_iff (by norm_num)

theorem isTimed_iff (p : RetryPolicy) :
    p.isTimed = true ↔
      p.initialBackoff < Binary64.limit * 1000 ∧ p.maxBackoff < Binary64.limit * 1000 := by
  unfold isTimed
  rw [Bool.and_eq_true, Bool.not_eq_true', Bool.not_eq_true', ← Bool.not_eq_true,
    ← Bool.not_eq_true, seconds_isInfinite_iff, seconds_isInfinite_iff, not_le, not_le]

end RetryPolicy

/-! ### The usual strategies -/

/-- A context is marked as critical. -/
def Context.IsCritical (c : Context) : Prop :=
  ∃ mark, Json.lookup? c.metadata "critical" = some mark ∧ mark.isTruthy = true

namespace Manager

variable {policy : RetryPolicy} {fault : Fault} {context : Context} {operation : Run σ α}
  {s : Logged σ}

theorem mayBeSkipped_iff (failure : Failure) (context : Context) :
    mayBeSkipped failure context = true ↔
      failure.code = "TRANSFORMATION_ERROR" ∧ ¬ context.IsCritical := by
  unfold mayBeSkipped Context.IsCritical
  rw [Bool.and_eq_true, beq_iff_eq, Bool.not_eq_true', ← Bool.not_eq_true]
  cases Json.lookup? context.metadata "critical" <;> simp

/-- The codes of failures of services. -/
def serviceCodes : List String := ["RATE_LIMIT_EXCEEDED", "GITHUB_API_ERROR", "AI_SERVICE_ERROR"]

/-- The usual strategy for a code. -/
def usual (policy : RetryPolicy) (code : String) : Strategy σ α :=
  if code = "TRANSFORMATION_ERROR" then skipTransformation
  else if code ∈ serviceCodes then .retry policy
  else .composite [.retry policy, skipTransformation]

theorem strategyFor?_standard (policy : RetryPolicy) (code : String) :
    (standard policy : Manager σ α).strategyFor? code = some (usual policy code) := by
  unfold strategyFor? standard usual serviceCodes
  rw [Table.get?_cons, Table.get?_cons, Table.get?_cons, Table.get?_cons, Table.get?_nil]
  by_cases hskip : code = "TRANSFORMATION_ERROR"
  · subst hskip
    rfl
  by_cases hservice : code ∈ ["RATE_LIMIT_EXCEEDED", "GITHUB_API_ERROR", "AI_SERVICE_ERROR"]
  · rw [if_neg hskip, if_pos hservice]
    simp only [List.mem_cons, List.not_mem_nil, or_false] at hservice
    rcases hservice with rfl | rfl | rfl
    · rfl
    · rfl
    · rfl
  · rw [if_neg hskip, if_neg hservice]
    simp only [List.mem_cons, List.not_mem_nil, or_false, not_or] at hservice
    obtain ⟨hrate, hhost, hai⟩ := hservice
    rw [if_neg (Ne.symm hrate), if_neg (Ne.symm hhost), if_neg (Ne.symm hai), if_neg (Ne.symm hskip)]
    rfl

/-- What a manager makes of the end of its strategy. -/
def answer (name : String) : Except Fault (Outcome α) → Outcome α
  | .ok outcome => outcome
  | .error raised => .failed name 0 raised

/-- A strategy that takes on the failure is run, and its end is the answer. -/
theorem recover_accepted {m : Manager σ α} {m' : Manager (σ × Runs α) α} {strategy : Strategy σ α}
    {strategy' : Strategy (σ × Runs α) α} {x : Except Fault (Outcome α)} {runs : Runs α}
    {t : Logged σ} (hname : strategy'.name = strategy.name)
    (hchosen : m.strategyFor? fault.toFailure.code = some strategy)
    (hchosen' : m'.strategyFor? fault.toFailure.code = some strategy')
    (haccepts : EndsAfter (strategy.accepts fault.toFailure) (strategy'.accepts fault.toFailure) s
      (.ok true) ([] : Runs α) s)
    (hrecover : EndsAfter (strategy.recover fault.toFailure context operation)
      (strategy'.recover fault.toFailure context (noting operation)) s x runs t) :
    EndsAfter (m.recover fault context operation) (m'.recover fault context (noting operation)) s
      (.ok (answer strategy.name x)) runs t := by
  unfold recover
  dsimp only
  rw [hchosen, hchosen', ← List.nil_append runs]
  refine haccepts.bind ?_
  rw [if_pos rfl, if_pos rfl, ← List.append_nil runs]
  refine hrecover.attempt.bind ?_
  cases x with
  | ok outcome => exact .pure _ _
  | error raised =>
    rw [hname]
    exact .pure _ _

/-- Accepting a failure does not run the step. -/
theorem skip_finishes (failure : Failure) (context : Context) (operation : Run σ α) (s : Logged σ) :
    Finishes (Strategy.recover failure context operation skipTransformation)
      (Strategy.recover failure context (noting operation) skipTransformation) s
      (.ok (if mayBeSkipped failure context = true then .succeeded "SkipStrategy" 1 none
        else .failed "SkipStrategy" 0 (.failure failure))) [] := by
  unfold skipTransformation
  rw [Strategy.recover, Strategy.recover]
  unfold Strategy.runSkip
  by_cases hskip : mayBeSkipped failure context = true
  · simp only [pure_bind, hskip, if_true]
    exact .write (.pure _ _)
  · simp only [pure_bind, hskip]
    exact .pure _ _

theorem accepts_retry (failure : Failure) :
    Strategy.accepts failure (.retry policy : Strategy σ α) = pure failure.recoverable := by
  rw [Strategy.accepts]

theorem accepts_retry_eq {failure : Failure} {recoverable : Bool}
    (h : failure.recoverable = recoverable) :
    Strategy.accepts failure (.retry policy : Strategy σ α) = pure recoverable := by
  rw [accepts_retry, h]

theorem accepts_skip (failure : Failure) :
    Strategy.accepts failure (skipTransformation : Strategy σ α) = pure true := by
  rw [skipTransformation, Strategy.accepts]

/-- Trying both in turn is taken on for every failure, since accepting it is. -/
theorem accepts_both (failure : Failure) :
    Strategy.accepts failure (.composite [.retry policy, skipTransformation] : Strategy σ α) =
      pure true := by
  rw [Strategy.accepts, Strategy.anyAccepts, Strategy.anyAccepts, accepts_retry, accepts_skip]
  cases failure.recoverable <;> rfl

section Both

variable {failure : Failure} (hskip : mayBeSkipped failure context = false)

include hskip

/-- A failure that may not be skipped is left when a combination comes to its end. -/
theorem last_finishes (operation : Run σ α) (count : Nat) (tried : List String) (s : Logged σ) :
    Finishes
      (Strategy.recoverByFirst failure context operation count tried [skipTransformation])
      (Strategy.recoverByFirst failure context (noting operation) count tried [skipTransformation]) s
      (.ok { Outcome.failed "CompositeRecoveryStrategy" count (.failure failure) with
        tried := tried ++ ["SkipStrategy"] }) [] := by
  obtain ⟨t, hend⟩ := skip_finishes failure context operation s
  rw [hskip] at hend
  rw [Strategy.recoverByFirst_accepted (accepts_skip failure),
    Strategy.recoverByFirst_accepted (accepts_skip failure), Strategy.recoverByFirst,
    Strategy.recoverByFirst]
  exact .after hend (.write (.write (.pure _ _)))

/-- Of both in turn, trying again decides where it runs the step. -/
theorem both_timed (hrecoverable : failure.recoverable = true) (hlimit : 1 ≤ policy.maxRetries)
    (htimed : policy.isTimed = true) (operation : Run σ α) (s : Logged σ) :
    ∃ outcome runs, Finishes
      (Strategy.recover failure context operation (.composite [.retry policy, skipTransformation]))
      (Strategy.recover failure context (noting operation)
        (.composite [.retry policy, skipTransformation])) s (.ok outcome) runs ∧
      Tried policy.maxRetries runs outcome := by
  rw [Strategy.recover_composite, Strategy.recover_composite,
    Strategy.recoverByFirst_accepted (accepts_retry_eq hrecoverable),
    Strategy.recoverByFirst_accepted (accepts_retry_eq hrecoverable),
    Strategy.recover_retry, Strategy.recover_retry]
  obtain ⟨outcome, runs, t, hend, htried⟩ := Strategy.runRetry_timed hlimit htimed failure context
    operation { s with log := _ :: s.log }
  cases hsuccess : outcome.success with
  | true =>
    refine ⟨{ outcome with tried := ["RetryStrategy"] }, runs, .write (.after hend ?_),
      htried.congr rfl fun _ => rfl⟩
    simp only [hsuccess, if_true]
    exact .write (.pure _ _)
  | false =>
    have hlast := last_finishes hskip operation 2 ["RetryStrategy"]
    refine ⟨{ Outcome.failed "CompositeRecoveryStrategy" 2 (.failure failure) with
      tried := ["RetryStrategy", "SkipStrategy"] }, runs, .write (.after hend ?_),
      htried.congr hsuccess.symm fun h => ?_⟩
    · simp only [hsuccess]
      exact .write (hlast _)
    · rw [hsuccess] at h
      cases h

end Both

/-- With pauses that are no numbers of seconds, both in turn end with the error of the first. -/
theorem both_untimed {failure : Failure} (hrecoverable : failure.recoverable = true)
    (htimed : policy.isTimed = false) (context : Context) (operation : Run σ α) (s : Logged σ) :
    Finishes
      (Strategy.recover failure context operation (.composite [.retry policy, skipTransformation]))
      (Strategy.recover failure context (noting operation)
        (.composite [.retry policy, skipTransformation])) s (.error RetryPolicy.untimed) [] := by
  rw [Strategy.recover_composite, Strategy.recover_composite,
    Strategy.recoverByFirst_accepted (accepts_retry_eq hrecoverable),
    Strategy.recoverByFirst_accepted (accepts_retry_eq hrecoverable),
    Strategy.recover_retry, Strategy.recover_retry]
  obtain ⟨t, hend⟩ := Strategy.runRetry_untimed htimed failure context operation
    { s with log := _ :: s.log }
  exact .write ⟨t, hend.bind_error⟩

/-- A failure that trying again cannot help is left by both. -/
theorem both_declined {failure : Failure} (hrecoverable : failure.recoverable = false)
    (hskip : mayBeSkipped failure context = false) (operation : Run σ α) (s : Logged σ) :
    Finishes
      (Strategy.recover failure context operation (.composite [.retry policy, skipTransformation]))
      (Strategy.recover failure context (noting operation)
        (.composite [.retry policy, skipTransformation])) s
      (.ok { Outcome.failed "CompositeRecoveryStrategy" 2 (.failure failure) with
        tried := ["SkipStrategy"] }) [] := by
  rw [Strategy.recover_composite, Strategy.recover_composite,
    Strategy.recoverByFirst_declined (accepts_retry_eq hrecoverable),
    Strategy.recoverByFirst_declined (accepts_retry_eq hrecoverable)]
  exact .write (last_finishes hskip operation 2 [] _)

/-- What trying again comes to where the failure is not one of a transformation. -/
inductive Retried (policy : RetryPolicy) (failure : Failure) : Runs α → Outcome α → Prop
  | tried {runs outcome} : failure.recoverable = true → policy.isTimed = true →
      Tried policy.maxRetries runs outcome → Retried policy failure runs outcome
  | untimed (name) : failure.recoverable = true → policy.isTimed = false →
      Retried policy failure [] (.failed name 0 RetryPolicy.untimed)
  | declined {outcome} : failure.recoverable = false → outcome.success = false →
      Retried policy failure [] outcome

section Usual

variable {code : String} {runs : Runs α}

theorem usual_service (hcode : code ≠ "TRANSFORMATION_ERROR") (hservice : code ∈ serviceCodes) :
    (usual policy code : Strategy σ α) = .retry policy := by
  rw [usual, if_neg hcode, if_pos hservice]

theorem usual_other (hcode : code ≠ "TRANSFORMATION_ERROR") (hservice : code ∉ serviceCodes) :
    (usual policy code : Strategy σ α) = .composite [.retry policy, skipTransformation] := by
  rw [usual, if_neg hcode, if_neg hservice]

/-- A usual strategy that takes on the failure decides. -/
theorem standard_accepted {strategy : ∀ τ, Strategy τ α} {x : Except Fault (Outcome α)}
    (hname : ∀ τ, (strategy τ).name = (strategy σ).name)
    (husual : ∀ τ, usual policy fault.toFailure.code = strategy τ)
    (haccepts : ∀ τ, (strategy τ).accepts fault.toFailure = pure true)
    (hrecover : Finishes ((strategy σ).recover fault.toFailure context operation)
      ((strategy _).recover fault.toFailure context (noting operation)) s x runs) :
    Finishes ((standard policy).recover fault context operation)
      ((standard policy).recover fault context (noting operation)) s
      (.ok (answer (strategy σ).name x)) runs := by
  obtain ⟨t, hrecover⟩ := hrecover
  refine ⟨t, recover_accepted (hname _) ?_ ?_ ?_ hrecover⟩
  · rw [strategyFor?_standard, husual]
  · rw [strategyFor?_standard, husual]
  · rw [haccepts, haccepts]
    exact .pure _ _

/-- Where it does not take on the failure, the step is not run. -/
theorem standard_declined {strategy : ∀ τ, Strategy τ α}
    (hname : ∀ τ, (strategy τ).name = (strategy σ).name)
    (husual : ∀ τ, usual policy fault.toFailure.code = strategy τ)
    (haccepts : ∀ τ, (strategy τ).accepts fault.toFailure = pure false) :
    Finishes ((standard policy).recover fault context operation)
      ((standard policy).recover fault context (noting operation)) s
      (.ok (.failed (strategy σ).name 0 (.failure fault.toFailure))) ([] : Runs α) := by
  unfold recover
  dsimp only
  rw [strategyFor?_standard, strategyFor?_standard, husual, husual]
  dsimp only
  rw [haccepts, haccepts, pure_bind, pure_bind, if_neg Bool.false_ne_true,
    if_neg Bool.false_ne_true, hname (σ × Runs α)]
  exact .write (.pure _ _)

/-- Failures of services are only tried again. -/
theorem standard_retries_service (hlimit : 1 ≤ policy.maxRetries)
    (hcode : fault.toFailure.code ≠ "TRANSFORMATION_ERROR")
    (hservice : fault.toFailure.code ∈ serviceCodes) (context : Context) (operation : Run σ α)
    (s : Logged σ) :
    ∃ outcome runs, Finishes ((standard policy).recover fault context operation)
      ((standard policy).recover fault context (noting operation)) s (.ok outcome) runs ∧
      Retried policy fault.toFailure runs outcome := by
  have husual : ∀ τ, usual policy fault.toFailure.code = (.retry policy : Strategy τ α) :=
    fun _ => usual_service hcode hservice
  cases hrecoverable : fault.toFailure.recoverable with
  | true =>
    have haccepts : ∀ τ, Strategy.accepts fault.toFailure (.retry policy : Strategy τ α) =
        pure true := fun _ => accepts_retry_eq hrecoverable
    cases htimed : policy.isTimed with
    | true =>
      obtain ⟨outcome, runs, t, hend, htried⟩ :=
        Strategy.runRetry_timed hlimit htimed fault.toFailure context operation s
      rw [← Strategy.recover_retry, ← Strategy.recover_retry] at hend
      exact ⟨outcome, runs, standard_accepted (fun _ => rfl) husual haccepts ⟨t, hend⟩,
        .tried hrecoverable htimed htried⟩
    | false =>
      have hend := Strategy.runRetry_untimed htimed fault.toFailure context operation s
      rw [← Strategy.recover_retry, ← Strategy.recover_retry] at hend
      exact ⟨_, [], standard_accepted (fun _ => rfl) husual haccepts hend,
        .untimed _ hrecoverable htimed⟩
  | false =>
    have haccepts : ∀ τ, Strategy.accepts fault.toFailure (.retry policy : Strategy τ α) =
        pure false := fun _ => accepts_retry_eq hrecoverable
    exact ⟨_, [], standard_declined (fun _ => rfl) husual haccepts, .declined hrecoverable rfl⟩

/-- Other failures are tried again before it is asked whether they may be skipped, and only those of
transformations may. -/
theorem standard_retries_other (hlimit : 1 ≤ policy.maxRetries)
    (hcode : fault.toFailure.code ≠ "TRANSFORMATION_ERROR")
    (hservice : fault.toFailure.code ∉ serviceCodes) (context : Context) (operation : Run σ α)
    (s : Logged σ) :
    ∃ outcome runs, Finishes ((standard policy).recover fault context operation)
      ((standard policy).recover fault context (noting operation)) s (.ok outcome) runs ∧
      Retried policy fault.toFailure runs outcome := by
  have hskip : mayBeSkipped fault.toFailure context = false := by
    rw [← Bool.not_eq_true, mayBeSkipped_iff]
    exact fun h => hcode h.1
  have husual : ∀ τ, usual policy fault.toFailure.code =
      (.composite [.retry policy, skipTransformation] : Strategy τ α) :=
    fun _ => usual_other hcode hservice
  have haccepts : ∀ τ, Strategy.accepts fault.toFailure
      (.composite [.retry policy, skipTransformation] : Strategy τ α) = pure true :=
    fun _ => accepts_both _
  cases hrecoverable : fault.toFailure.recoverable with
  | true =>
    cases htimed : policy.isTimed with
    | true =>
      obtain ⟨outcome, runs, hend, htried⟩ := both_timed hskip hrecoverable hlimit htimed operation s
      exact ⟨outcome, runs, standard_accepted (fun _ => rfl) husual haccepts hend,
        .tried hrecoverable htimed htried⟩
    | false =>
      exact ⟨_, [], standard_accepted (fun _ => rfl) husual haccepts
        (both_untimed hrecoverable htimed context operation s), .untimed _ hrecoverable htimed⟩
  | false =>
    exact ⟨_, [], standard_accepted (fun _ => rfl) husual haccepts
      (both_declined hrecoverable hskip operation s), .declined hrecoverable rfl⟩

end Usual

/-- Whatever the code, failures that are not those of transformations are tried again. -/
theorem standard_retries (policy : RetryPolicy) (hlimit : 1 ≤ policy.maxRetries)
    (hcode : fault.toFailure.code ≠ "TRANSFORMATION_ERROR") (context : Context)
    (operation : Run σ α) (s : Logged σ) :
    ∃ outcome runs, Finishes ((standard policy).recover fault context operation)
      ((standard policy).recover fault context (noting operation)) s (.ok outcome) runs ∧
      Retried policy fault.toFailure runs outcome := by
  by_cases hservice : fault.toFailure.code ∈ serviceCodes
  · exact standard_retries_service hlimit hcode hservice context operation s
  · exact standard_retries_other hlimit hcode hservice context operation s

/-- A failure of a transformation is accepted or left; the step is not run. -/
theorem standard_skips (policy : RetryPolicy)
    (hcode : fault.toFailure.code = "TRANSFORMATION_ERROR") (context : Context)
    (operation : Run σ α) (s : Logged σ) :
    Finishes ((standard policy).recover fault context operation)
      ((standard policy).recover fault context (noting operation)) s
      (.ok (if mayBeSkipped fault.toFailure context = true then .succeeded "SkipStrategy" 1 none
        else .failed "SkipStrategy" 0 (.failure fault.toFailure))) [] := by
  have husual : ∀ τ, usual policy fault.toFailure.code = (skipTransformation : Strategy τ α) :=
    fun _ => by rw [usual, if_pos hcode]
  exact standard_accepted (fun _ => rfl) husual (fun _ => accepts_skip _)
    (skip_finishes fault.toFailure context operation s)

/-- What recovering comes to, told by the runs of the failed step: how often it runs, and when
recovering succeeds with which data. -/
structure Recovers (settings : RecoverySettings) (failure : Failure) (context : Context)
    (runs : Runs α) (outcome : Outcome α) : Prop where
  bounded : runs.length ≤ settings.maxRetries
  ran_iff : runs ≠ [] ↔ failure.recoverable = true ∧ failure.code ≠ "TRANSFORMATION_ERROR" ∧
    settings.initialBackoff < Binary64.limit * 1000 ∧ settings.maxBackoff < Binary64.limit * 1000
  success_iff : outcome.success = true ↔ (∃ v, runs.getLast? = some (.ok v)) ∨
    failure.code = "TRANSFORMATION_ERROR" ∧ ¬ context.IsCritical
  data_of_run : ∀ v, runs.getLast? = some (.ok v) → outcome.data = some v
  data_of_skip : failure.code = "TRANSFORMATION_ERROR" → outcome.data = none

section Recovers

variable {settings : RecoverySettings} {failure : Failure} {context : Context} {runs : Runs α}
  {outcome : Outcome α}

theorem isTimed_ofSettings (settings : RecoverySettings) :
    (RetryPolicy.ofSettings settings).isTimed = true ↔
      settings.initialBackoff < Binary64.limit * 1000 ∧
        settings.maxBackoff < Binary64.limit * 1000 :=
  RetryPolicy.isTimed_iff _

/-- What is true of a failure that is tried again. -/
theorem Retried.recovers (hcode : failure.code ≠ "TRANSFORMATION_ERROR") (context : Context)
    (h : Retried (.ofSettings settings) failure runs outcome) :
    Recovers settings failure context runs outcome := by
  have hskip : ¬ (failure.code = "TRANSFORMATION_ERROR" ∧ ¬ context.IsCritical) :=
    fun h => hcode h.1
  cases h with
  | tried hrecoverable htimed htried =>
    exact {
      bounded := htried.bounded
      ran_iff := iff_of_true htried.ran
        ⟨hrecoverable, hcode, (isTimed_ofSettings settings).1 htimed⟩
      success_iff := by rw [htried.success_iff, or_iff_left hskip]
      data_of_run := htried.data
      data_of_skip := fun h => absurd h hcode }
  | untimed name hrecoverable htimed =>
    have hran : ¬ (settings.initialBackoff < Binary64.limit * 1000 ∧
        settings.maxBackoff < Binary64.limit * 1000) := by
      rw [← isTimed_ofSettings, htimed]
      exact Bool.false_ne_true
    exact {
      bounded := Nat.zero_le _
      ran_iff := iff_of_false (fun h => h rfl) fun h => hran h.2.2
      success_iff := iff_of_false Bool.false_ne_true (by
        rintro (⟨v, ⟨⟩⟩ | h)
        exact hskip h)
      data_of_run := by rintro v ⟨⟩
      data_of_skip := fun h => absurd h hcode }
  | declined hrecoverable hsuccess =>
    exact {
      bounded := Nat.zero_le _
      ran_iff := iff_of_false (fun h => h rfl) fun h => by
        rw [hrecoverable] at h
        exact Bool.false_ne_true h.1
      success_iff := iff_of_false (by rw [hsuccess]; exact Bool.false_ne_true) (by
        rintro (⟨v, ⟨⟩⟩ | h)
        exact hskip h)
      data_of_run := by rintro v ⟨⟩
      data_of_skip := fun h => absurd h hcode }

/-- What is true of a failure of a transformation. -/
theorem skipped_recovers (settings : RecoverySettings)
    (hcode : failure.code = "TRANSFORMATION_ERROR") (context : Context) :
    Recovers settings failure context ([] : Runs α)
      (if mayBeSkipped failure context = true then .succeeded "SkipStrategy" 1 none
        else .failed "SkipStrategy" 0 (.failure failure)) where
  bounded := Nat.zero_le _
  ran_iff := iff_of_false (fun h => h rfl) fun h => h.2.1 hcode
  success_iff := by
    rw [← mayBeSkipped_iff]
    by_cases h : mayBeSkipped failure context = true
    · simp [h, Outcome.succeeded]
    · simp [h, Outcome.failed]
  data_of_run := by rintro v ⟨⟩
  data_of_skip _ := by
    split
    · rfl
    · rfl

end Recovers

/-- Recovering by the usual strategies answers, and noting the runs of the failed step changes nothing
else: the step runs at most as often as the settings allow, and at all exactly for failures that trying
again may help and that are not those of a transformation, if both pauses can be told in seconds.
Recovering succeeds when the last run does, and for failures of transformations that are not critical;
in no other case. -/
theorem standard_recovers (settings : RecoverySettings) (hlimit : 1 ≤ settings.maxRetries)
    (fault : Fault) (context : Context) (operation : Run σ α) (s : Logged σ) :
    ∃ runs outcome t,
      (standard (.ofSettings settings)).recover fault context operation s = (.ok outcome, t) ∧
      (standard (.ofSettings settings)).recover fault context (noting operation)
        ⟨(s.state, []), s.log⟩ = (.ok outcome, ⟨(t.state, runs), t.log⟩) ∧
      Recovers settings fault.toFailure context runs outcome := by
  by_cases hcode : fault.toFailure.code = "TRANSFORMATION_ERROR"
  · obtain ⟨t, hend⟩ :=
      standard_skips (.ofSettings settings) hcode context operation s
    exact ⟨[], _, t, hend.plain, hend.noted [], skipped_recovers settings hcode context⟩
  · obtain ⟨outcome, runs, ⟨t, hend⟩, hretried⟩ :=
      standard_retries (.ofSettings settings) hlimit hcode context operation s
    exact ⟨runs, outcome, t, hend.plain, hend.noted [], hretried.recovers hcode context⟩

/-- A service that does not answer now. -/
def unreachable : Fault := .failure (.aiService "down" "unknown" true)

/-- A step that fails while its state says so, once each time. -/
def flaky : Run Nat String := fun s =>
  match s.state with
  | 0 => (.ok "result", s)
  | left + 1 => (.error unreachable, { s with state := left })

theorem standard_recovers_flaky :
    1 ≤ ({} : RecoverySettings).maxRetries ∧ ∃ runs outcome t,
      (standard (.ofSettings {})).recover unreachable { operation := "transform" } flaky ⟨1, []⟩ =
        (.ok outcome, t) ∧
      (standard (.ofSettings {})).recover unreachable { operation := "transform" } (noting flaky)
        ⟨(1, []), []⟩ = (.ok outcome, ⟨(t.state, runs), t.log⟩) ∧
      Recovers {} unreachable.toFailure { operation := "transform" } runs outcome :=
  ⟨by decide, standard_recovers {} (by decide) unreachable { operation := "transform" } flaky ⟨1, []⟩⟩

/-- Settings whose first pause cannot be told in seconds. -/
def endless : RecoverySettings := { initialBackoff := 10 ^ 312 }

/-- With such settings a step that would succeed is not run, and recovering fails, though trying again
may help. -/
theorem endless_unrun :
    1 ≤ endless.maxRetries ∧ unreachable.toFailure.recoverable = true ∧
      unreachable.toFailure.code ≠ "TRANSFORMATION_ERROR" ∧
      ∃ (outcome : Outcome String) (log : List LogLine),
        (standard (.ofSettings endless)).recover unreachable { operation := "transform" }
          (noting (pure "result")) ⟨((), []), []⟩ = (.ok outcome, ⟨((), []), log⟩) ∧
        outcome.success = false := by
  have hcode : unreachable.toFailure.code ≠ "TRANSFORMATION_ERROR" := by decide
  have hrecoverable : unreachable.toFailure.recoverable = true := rfl
  refine ⟨by decide, hrecoverable, hcode, ?_⟩
  have hlarge : ¬ endless.initialBackoff < Binary64.limit * 1000 := by decide +kernel
  have huntimed : (RetryPolicy.ofSettings endless).isTimed = false := by
    rw [← Bool.not_eq_true, isTimed_ofSettings]
    exact fun h => hlarge h.1
  obtain ⟨outcome, runs, ⟨⟨⟨⟩, log⟩, hend⟩, hretried⟩ :=
    standard_retries (.ofSettings endless) (by decide) hcode { operation := "transform" }
      (pure "result" : Run Unit String) ⟨(), []⟩
  cases hretried with
  | tried _ htimed =>
    rw [huntimed] at htimed
    cases htimed
  | untimed name => exact ⟨_, log, hend.noted [], rfl⟩
  | declined hdeclined =>
    rw [hrecoverable] at hdeclined
    cases hdeclined

end Manager

end WebMigration.Recovery
