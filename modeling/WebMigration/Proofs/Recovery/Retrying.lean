import WebMigration.Proofs.Number.Order
import WebMigration.Proofs.Recovery.Standard

/-!
# Trying again

A failed step is run until it succeeds, until it fails with an error that trying again cannot help, or
as often as the policy allows, and between two runs there is a pause.  The growth of the pauses stops
counting when the longest pause is reached; since growth keeps the order, each pause is still the lesser
of the longest one and of the growth after as many steps as there were pauses before it.
-/

namespace WebMigration.Recovery

open Number (Binary64)
open Number.Binary64 (AtMost IsNearest)

variable {σ α : Type}

/-! ### Pauses -/

namespace RetryPolicy

/-- Pauses can be calculated: the first and the longest one are numbers of seconds, and the growth is a
number for as long as pauses grow. -/
structure Calculable (p : RetryPolicy) : Prop where
  timed : p.isTimed = true
  grows : ∀ steps, steps + 1 < p.maxRetries →
    (∀ i < steps, (p.grown i).lt (seconds p.maxBackoff) = true) → p.outgrows steps = false

/-- A pause is calculated without rounding. -/
structure Exact (p : RetryPolicy) (μ : ℚ) (i : Nat) : Prop where
  grown : (p.grown i).value? = some ((p.initialBackoff : ℚ) / 1000 * μ ^ i)
  longest : (seconds p.maxBackoff).value? = some ((p.maxBackoff : ℚ) / 1000)

theorem isNearest_seconds (milliseconds : Nat) :
    IsNearest (seconds milliseconds) ((milliseconds : ℚ) / 1000) :=
  ⟨milliseconds, 1000, by norm_num, by norm_num, rfl⟩

section Growth

variable {p : RetryPolicy} {μ : ℚ}

/-- Both pauses of the policy are numbers. -/
theorem exists_values (htimed : p.isTimed = true) :
    (∃ v, (seconds p.initialBackoff).value? = some v) ∧
      ∃ w, (seconds p.maxBackoff).value? = some w := by
  unfold isTimed at htimed
  rw [Bool.and_eq_true, Bool.not_eq_true', Bool.not_eq_true'] at htimed
  exact ⟨(isNearest_seconds _).exists_value htimed.1, (isNearest_seconds _).exists_value htimed.2⟩

/-- Pauses that are calculated without rounding can be calculated. -/
theorem Calculable.of_exact {v w : ℚ} (hfirst : (seconds p.initialBackoff).value? = some v)
    (hlongest : (seconds p.maxBackoff).value? = some w)
    (hexact : ∀ i, i + 1 < p.maxRetries → p.Exact μ i) : p.Calculable where
  timed := by
    unfold isTimed
    rw [Binary64.isInfinite_of_value? hfirst, Binary64.isInfinite_of_value? hlongest]
    rfl
  grows steps hsteps _ := by
    obtain ⟨u, hu⟩ := Binary64.exists_value_of_mul (hexact steps hsteps).grown
    unfold outgrows
    rw [Binary64.isInfinite_of_value? hu, Bool.false_and]

variable (hvalue : p.multiplier.value? = some μ) (hμ : 1 ≤ μ)

include hvalue hμ

theorem isNegative_grown (i : Nat) : (p.grown i).isNegative = false :=
  Binary64.isNegative_mul (isNearest_seconds _).isNegative (Binary64.isNegative_pow hvalue hμ i)

/-- A pause is a number, and not more than the longest one. -/
theorem exists_pause (i : Nat) {w : ℚ} (hw : (seconds p.maxBackoff).value? = some w) :
    ∃ v, (p.pause i).value? = some v ∧ v ≤ w := by
  unfold pause
  by_cases hlt : (p.grown i).lt (seconds p.maxBackoff) = true
  · rw [if_pos hlt]
    obtain ⟨v, hv⟩ := Binary64.value?_of_lt (isNegative_grown hvalue hμ i) hw hlt
    exact ⟨v, hv, ((Binary64.lt_iff_value hv hw).1 hlt).le⟩
  · rw [if_neg hlt]
    exact ⟨w, hw, le_rfl⟩

variable (htimed : p.isTimed = true)

include htimed

/-- The growth does not decrease. -/
theorem grown_mono {i j : Nat} (hij : i ≤ j) : AtMost (p.grown i) (p.grown j) := by
  obtain ⟨⟨v, hv⟩, -⟩ := exists_values htimed
  exact (Binary64.pow_mono hvalue hμ hij).mul hv (isNearest_seconds _).isNegative
    (Binary64.isNegative_pow hvalue hμ i) (Binary64.isNegative_pow hvalue hμ j)

/-- While the growth is below the longest pause, it was so before. -/
theorem grown_lt_of_le {i j : Nat} (hij : i ≤ j)
    (h : (p.grown j).lt (seconds p.maxBackoff) = true) :
    (p.grown i).lt (seconds p.maxBackoff) = true := by
  obtain ⟨-, w, hw⟩ := exists_values htimed
  obtain ⟨v, hv⟩ := Binary64.value?_of_lt (isNegative_grown hvalue hμ j) hw h
  obtain ⟨u, hu, huv⟩ := grown_mono hvalue hμ htimed hij v hv
  rw [Binary64.lt_iff_value hv hw] at h
  rw [Binary64.lt_iff_value hu hw]
  exact huv.trans_lt h

theorem pause_le_longest (i : Nat) : (p.pause i).le (seconds p.maxBackoff) = true := by
  obtain ⟨-, w, hw⟩ := exists_values htimed
  obtain ⟨v, hv, hle⟩ := exists_pause hvalue hμ i hw
  exact (Binary64.le_iff_value hv hw).2 hle

/-- Pauses do not decrease. -/
theorem pause_mono {i j : Nat} (hij : i ≤ j) : (p.pause i).le (p.pause j) = true := by
  obtain ⟨-, w, hw⟩ := exists_values htimed
  by_cases hj : (p.grown j).lt (seconds p.maxBackoff) = true
  · have hi := grown_lt_of_le hvalue hμ htimed hij hj
    obtain ⟨v, hv⟩ := Binary64.value?_of_lt (isNegative_grown hvalue hμ j) hw hj
    obtain ⟨u, hu, huv⟩ := grown_mono hvalue hμ htimed hij v hv
    unfold pause
    rw [if_pos hi, if_pos hj, Binary64.le_iff_value hu hv]
    exact huv
  · have hlongest : p.pause j = seconds p.maxBackoff := if_neg hj
    rw [hlongest]
    exact pause_le_longest hvalue hμ htimed i

end Growth

/-- Without rounding a pause is the lesser of the growth and of the longest one. -/
theorem pause_of_exact {p : RetryPolicy} {μ : ℚ} {i : Nat} (h : p.Exact μ i) :
    (p.pause i).value? =
      some (min ((p.initialBackoff : ℚ) / 1000 * μ ^ i) ((p.maxBackoff : ℚ) / 1000)) := by
  unfold pause
  by_cases hlt : (p.grown i).lt (seconds p.maxBackoff) = true
  · rw [if_pos hlt, h.grown, min_eq_left ((Binary64.lt_iff_value h.grown h.longest).1 hlt).le]
  · rw [if_neg hlt, h.longest]
    rw [Binary64.lt_iff_value h.grown h.longest, not_lt] at hlt
    rw [min_eq_right hlt]

/-- Pauses that grow up to the longest one.  Numbers are rounded; without rounding a pause is exactly the
lesser of the longest one and of the first one times a power of the multiplier. -/
structure Paced (p : RetryPolicy) (μ : ℚ) (pauses : List Binary64) : Prop where
  each : ∀ i (h : i < pauses.length), pauses[i] = (seconds p.maxBackoff).min (p.grown i)
  exact : ∀ i (h : i < pauses.length), p.Exact μ i →
    pauses[i].value? = some (min ((p.initialBackoff : ℚ) / 1000 * μ ^ i) ((p.maxBackoff : ℚ) / 1000))
  nondecreasing : pauses.Pairwise fun x y => x.le y = true
  bounded : ∀ x ∈ pauses, x.le (seconds p.maxBackoff) = true

theorem paced_pauses (p : RetryPolicy) {μ : ℚ} (hvalue : p.multiplier.value? = some μ) (hμ : 1 ≤ μ)
    (htimed : p.isTimed = true) (count : Nat) : p.Paced μ ((List.range' 0 count).map p.pause) where
  each i h := by
    rw [List.getElem_map, List.getElem_range', Nat.zero_add, Nat.one_mul]
    rfl
  exact i h hexact := by
    rw [List.getElem_map, List.getElem_range', Nat.zero_add, Nat.one_mul]
    exact pause_of_exact hexact
  nondecreasing := by
    rw [List.pairwise_map]
    refine (List.pairwise_lt_range' ..).imp fun hlt => ?_
    exact pause_mono hvalue hμ htimed (Nat.le_of_lt hlt)
  bounded x hx := by
    obtain ⟨i, -, rfl⟩ := List.mem_map.1 hx
    exact pause_le_longest hvalue hμ htimed i

/-- The number of steps of growth after some pauses: one for each pause, until the longest one is
reached. -/
structure Grows (p : RetryPolicy) (pauses steps : Nat) : Prop where
  le : steps ≤ pauses
  below : ∀ i < steps, (p.grown i).lt (seconds p.maxBackoff) = true
  reached : steps = pauses ∨ (p.grown steps).lt (seconds p.maxBackoff) = false

namespace Grows

variable {p : RetryPolicy} {μ : ℚ} {pauses steps : Nat}

theorem zero (p : RetryPolicy) : Grows p 0 0 where
  le := Nat.le_refl 0
  below i hi := absurd hi (Nat.not_lt_zero i)
  reached := .inl rfl

/-- One more pause. -/
theorem next (h : Grows p pauses steps) : Grows p (pauses + 1) (p.nextStep steps) := by
  have hle := h.le
  unfold nextStep
  by_cases hlt : (p.grown steps).lt (seconds p.maxBackoff) = true
  · rw [if_pos hlt]
    refine ⟨by omega, fun i hi => ?_, ?_⟩
    · rcases Nat.lt_succ_iff_lt_or_eq.1 hi with hbefore | rfl
      · exact h.below i hbefore
      · exact hlt
    · rcases h.reached with heq | hcapped
      · exact .inl (by omega)
      · rw [hcapped] at hlt
        cases hlt
  · rw [if_neg hlt]
    exact ⟨by omega, h.below, .inr (Bool.not_eq_true _ ▸ hlt)⟩

/-- The pause is the one after as many steps as there were pauses. -/
theorem pause_eq (h : Grows p pauses steps) (hvalue : p.multiplier.value? = some μ) (hμ : 1 ≤ μ)
    (htimed : p.isTimed = true) : p.pause steps = p.pause pauses := by
  rcases h.reached with rfl | hcapped
  · rfl
  · have hstill : ¬ (p.grown pauses).lt (seconds p.maxBackoff) = true := by
      intro hlt
      rw [grown_lt_of_le hvalue hμ htimed h.le hlt] at hcapped
      cases hcapped
    unfold pause
    rw [if_neg (by rw [hcapped]; exact Bool.false_ne_true), if_neg hstill]

end Grows

end RetryPolicy

/-! ### The runs -/

/-- A run after which there is no other one: it succeeds, or trying again cannot help. -/
def Decides : Except Fault α → Prop
  | .ok _ => True
  | .error fault => fault.isFatal = true

/-- Runs of a step that stop at the first one that decides, or at the limit. -/
structure UpTo (limit : Nat) (runs : Runs α) (last : Except Fault α) : Prop where
  bounded : runs.length ≤ limit
  first : ∃ before, runs = before ++ [last] ∧ ∀ x ∈ before, ¬ Decides x
  stopped : Decides last ∨ runs.length = limit

namespace UpTo

variable {limit : Nat} {runs : Runs α} {x last : Except Fault α}

theorem decided (limit : Nat) (h : Decides x) : UpTo (limit + 1) [x] x where
  bounded := by simp
  first := ⟨[], rfl, fun _ hx => absurd hx List.not_mem_nil⟩
  stopped := .inl h

theorem single (x : Except Fault α) : UpTo 1 [x] x where
  bounded := Nat.le_refl 1
  first := ⟨[], rfl, fun _ hx => absurd hx List.not_mem_nil⟩
  stopped := .inr rfl

theorem cons (h : UpTo limit runs last) (hx : ¬ Decides x) : UpTo (limit + 1) (x :: runs) last where
  bounded := Nat.succ_le_succ h.bounded
  first := by
    obtain ⟨before, rfl, hbefore⟩ := h.first
    refine ⟨x :: before, rfl, fun y hy => ?_⟩
    rcases List.mem_cons.1 hy with rfl | hy
    · exact hx
    · exact hbefore y hy
  stopped := h.stopped.imp_right fun heq => by rw [List.length_cons, heq]

theorem ne_nil (h : UpTo limit runs last) : runs ≠ [] := by
  obtain ⟨before, rfl, -⟩ := h.first
  exact List.append_ne_nil_of_right_ne_nil before (List.cons_ne_nil last [])

end UpTo

/-- What a step comes to by its last run. -/
def Outcome.ofRun (count : Nat) : Except Fault α → Outcome α
  | .ok v => .succeeded "RetryStrategy" count (some v)
  | .error fault => .failed "RetryStrategy" count fault

namespace Strategy

/-- After an event about a recovery. -/
def told (event : String) (context : Context) (data : List (String × Json)) (s : Logged σ) :
    Logged σ :=
  { s with log := Event.line .info ("recovery:" ++ event) (("context", context.toJson) :: data) ::
      s.log }

theorem log_eq (event : String) (context : Context) (data : List (String × Json)) (s : Logged σ) :
    log event context data s = (.ok (), told event context data s) := rfl

/-- After a warning about a recovery. -/
def warned (event : String) (context : Context) (data : List (String × Json)) (s : Logged σ) :
    Logged σ :=
  { s with log := Event.line .warning ("recovery:" ++ event) (("context", context.toJson) :: data) ::
      s.log }

variable {policy : RetryPolicy} {context : Context} {operation : Run σ α}

/-- After the event that comes before a run. -/
def attempting (policy : RetryPolicy) (context : Context) (count : Nat) (s : Logged σ) : Logged σ :=
  told "retry:attempt" context
    [("attempt", .ofNat count), ("max_retries", .ofNat policy.maxRetries)] s

/-- After the event that tells a pause. -/
def waiting (context : Context) (count : Nat) (pause : Binary64) (fault : Fault) (s : Logged σ) :
    Logged σ :=
  told "retry:waiting" context [("attempt", .ofNat count), ("wait_s", .float (pause.roundPlaces 3)),
    ("error", .string fault.message)] s

/-- After the event that tells how the last run ended. -/
def ended (context : Context) (count : Nat) : Except Fault α → Logged σ → Logged σ
  | .ok _ => told "retry:success" context [("attempt", .ofNat count)]
  | .error _ => warned "retry:exhausted" context [("attempts", .ofNat count)]

/-- From a state the step is run, for the first of these times as the `count`-th one, with pauses in
between; nothing else is done. -/
inductive Tries (policy : RetryPolicy) (context : Context) (operation : Run σ α) :
    Nat → Logged σ → Runs α → List Binary64 → Logged σ → Prop
  | last {count s x t} : operation (attempting policy context count s) = (x, t) →
      Tries policy context operation count s [x] [] t
  | again {count s fault t pause runs pauses u} :
      operation (attempting policy context count s) = (.error fault, t) →
      Tries policy context operation (count + 1) (waiting context count pause fault t) runs pauses u →
      Tries policy context operation count s (.error fault :: runs) (pause :: pauses) u

theorem tryOnce_of {count : Nat} {s t : Logged σ} {x : Except Fault α}
    (h : operation (attempting policy context count s) = (x, t)) :
    EndsAfter (tryOnce policy context operation count)
      (tryOnce policy context (noting operation) count) s (.ok x) [x] t :=
  .write (.attempt (.step h))

/-- The pauses before and after a run that fails. -/
theorem range'_map_pause (policy : RetryPolicy) (pauses : Nat) {runs : Runs α} (hruns : runs ≠ [])
    (x : Except Fault α) :
    (List.range' pauses ((x :: runs).length - 1)).map policy.pause =
      policy.pause pauses :: (List.range' (pauses + 1) (runs.length - 1)).map policy.pause := by
  have hlength : (x :: runs).length - 1 = runs.length - 1 + 1 := by
    have := List.length_pos_iff.2 hruns
    rw [List.length_cons]
    omega
  rw [hlength, List.range'_succ, List.map_cons]

section Loop

variable {μ : ℚ} (hvalue : policy.multiplier.value? = some μ) (hμ : 1 ≤ μ)
  (hcalculable : policy.Calculable)

include hvalue hμ hcalculable

/-- Trying again after some pauses: the runs that follow, with the pauses between them. -/
theorem tryAgain_tries {left pauses steps : Nat} (hleft : left + (pauses + 1) = policy.maxRetries)
    (hgrows : policy.Grows pauses steps) (s : Logged σ) :
    ∃ runs last t, UpTo (left + 1) runs last ∧
      Tries policy context operation (pauses + 1) s runs
        ((List.range' pauses (runs.length - 1)).map policy.pause) t ∧
      EndsAfter (tryAgain policy context operation left (pauses + 1) steps)
        (tryAgain policy context (noting operation) left (pauses + 1) steps) s
        (.ok (.ofRun (pauses + runs.length) last)) runs
        (ended context (pauses + runs.length) last t) := by
  induction left generalizing pauses steps s with
  | zero =>
    rcases hrun : operation (attempting policy context (pauses + 1) s) with ⟨x, t⟩
    refine ⟨[x], x, t, .single x, .last hrun, ?_⟩
    rw [tryAgain, tryAgain]
    cases x with
    | ok v => exact (tryOnce_of hrun).bind (.write (.pure _ _))
    | error fault => exact (tryOnce_of hrun).bind (.write (.pure _ _))
  | succ left ih =>
    rcases hrun : operation (attempting policy context (pauses + 1) s) with ⟨x, t⟩
    rw [tryAgain, tryAgain]
    cases x with
    | ok v =>
      exact ⟨[.ok v], _, t, .decided _ trivial, .last hrun,
        (tryOnce_of hrun).bind (.write (.pure _ _))⟩
    | error fault =>
      by_cases hfatal : fault.isFatal = true
      · refine ⟨[.error fault], _, t, .decided _ hfatal, .last hrun, (tryOnce_of hrun).bind ?_⟩
        simp only [hfatal, if_true]
        exact .write (.pure _ _)
      · -- The runs that are left come after the pause, which is the one after `pauses` steps of growth
        -- even where the steps have stopped counting.
        have hnumber : policy.outgrows steps = false :=
          hcalculable.grows steps (by have := hgrows.le; omega) hgrows.below
        have hpause : policy.pause steps = policy.pause pauses :=
          hgrows.pause_eq hvalue hμ hcalculable.timed
        obtain ⟨runs, last, u, hupto, htries, hend⟩ := ih
          (show left + (pauses + 1 + 1) = policy.maxRetries by omega) hgrows.next
          (waiting context (pauses + 1) (policy.pause pauses) fault t)
        have hlength : pauses + (Except.error fault :: runs).length = pauses + 1 + runs.length := by
          rw [List.length_cons]
          omega
        refine ⟨.error fault :: runs, last, u, hupto.cons hfatal, ?_, ?_⟩
        · rw [range'_map_pause policy pauses hupto.ne_nil]
          exact .again hrun htries
        · rw [hlength]
          refine (tryOnce_of hrun).bind ?_
          simp only [hfatal, hnumber, hpause]
          exact .write hend

end Loop

/-- **A step is run up to the first run that decides, or as often as the policy allows, with pauses in
between that grow up to the longest one.**  The outcome counts the runs and is what the last one came
to; each run but the last one is followed by one pause, and the log tells all of them. -/
theorem recover_retry_paced {μ : ℚ} (hvalue : policy.multiplier.value? = some μ) (hμ : 1 ≤ μ)
    (hcalculable : policy.Calculable) (hlimit : 1 ≤ policy.maxRetries) (failure : Failure)
    (context : Context) (operation : Run σ α) (s : Logged σ) :
    ∃ runs last pauses t, UpTo policy.maxRetries runs last ∧
      Tries policy context operation 1 (told "retry:start" context
        [("error", .string failure.code), ("max_retries", .ofNat policy.maxRetries)] s) runs pauses t ∧
      EndsAfter (recover failure context operation (.retry policy))
        (recover failure context (noting operation) (.retry policy)) s
        (.ok (.ofRun runs.length last)) runs (ended context runs.length last t) ∧
      pauses.length + 1 = runs.length ∧ policy.Paced μ pauses := by
  obtain ⟨runs, last, t, hupto, htries, hend⟩ :=
    tryAgain_tries hvalue hμ hcalculable
      (show policy.maxRetries - 1 + (0 + 1) = policy.maxRetries by omega) (.zero policy)
      (told "retry:start" context
        [("error", .string failure.code), ("max_retries", .ofNat policy.maxRetries)] s)
  rw [Nat.sub_add_cancel hlimit] at hupto
  simp only [Nat.zero_add] at htries hend
  refine ⟨runs, last, _, t, hupto, htries, ?_, ?_, policy.paced_pauses hvalue hμ hcalculable.timed _⟩
  · rw [recover_retry, recover_retry]
    unfold runRetry
    simp only [hcalculable.timed, if_true]
    exact .write hend
  · have := List.length_pos_iff.2 hupto.ne_nil
    rw [List.length_map, List.length_range']
    omega

theorem value?_two : (Binary64.ofNat 2).value? = some 2 := by
  have htwo : Binary64.ofNat 2 = .finite false (2 ^ 52) (-51) := by decide +kernel
  rw [htwo, Binary64.value?_finite]
  norm_num

theorem longest_usual : (RetryPolicy.seconds 30000).value? = some 30 := by
  have hthirty : RetryPolicy.seconds 30000 = .finite false (30 * 2 ^ 48) (-48) := by decide +kernel
  rw [hthirty, Binary64.value?_finite]
  norm_num

theorem first_usual : (RetryPolicy.seconds 1000).value? = some 1 := by
  have hone : RetryPolicy.seconds 1000 = .finite false (2 ^ 52) (-52) := by decide +kernel
  rw [hone, Binary64.value?_finite]
  norm_num

/-- The pauses of the usual policy are calculated without rounding. -/
theorem exact_usual {i : Nat} (hi : i + 1 < ({} : RetryPolicy).maxRetries) :
    ({} : RetryPolicy).Exact 2 i where
  grown := by
    have hcases : i = 0 ∨ i = 1 := by
      change i + 1 < 3 at hi
      omega
    rcases hcases with rfl | rfl
    · have hone : ({} : RetryPolicy).grown 0 = .finite false (2 ^ 52) (-52) := by decide +kernel
      rw [hone, Binary64.value?_finite]
      norm_num
    · have htwo : ({} : RetryPolicy).grown 1 = .finite false (2 ^ 52) (-51) := by decide +kernel
      rw [htwo, Binary64.value?_finite]
      norm_num
  longest := by
    rw [longest_usual]
    norm_num

theorem calculable_usual : ({} : RetryPolicy).Calculable :=
  .of_exact first_usual longest_usual fun _ => exact_usual

theorem recover_retry_paced_flaky :
    1 ≤ ({} : RetryPolicy).maxRetries ∧ (Binary64.ofNat 2).value? = some 2 ∧ (1 : ℚ) ≤ 2 ∧
      ({} : RetryPolicy).Calculable ∧
      ∃ runs last pauses t, UpTo 3 runs last ∧
        Tries {} { operation := "transform" } Manager.flaky 1 (told "retry:start"
          { operation := "transform" }
          [("error", .string "AI_SERVICE_ERROR"), ("max_retries", .ofNat 3)] ⟨1, []⟩) runs pauses t ∧
        EndsAfter
          (recover Manager.unreachable.toFailure { operation := "transform" } Manager.flaky (.retry {}))
          (recover Manager.unreachable.toFailure { operation := "transform" } (noting Manager.flaky)
            (.retry {}))
          ⟨1, []⟩ (.ok (.ofRun runs.length last)) runs
          (ended { operation := "transform" } runs.length last t) ∧
        pauses.length + 1 = runs.length ∧ ({} : RetryPolicy).Paced 2 pauses :=
  ⟨by decide, value?_two, one_le_two, calculable_usual,
    recover_retry_paced value?_two one_le_two calculable_usual (by decide)
      Manager.unreachable.toFailure { operation := "transform" } Manager.flaky ⟨1, []⟩⟩

/-- The usual pauses double up to half a minute. -/
example : (List.range 7).map ({} : RetryPolicy).pause = [1, 2, 4, 8, 16, 30, 30].map .ofNat := by
  decide

end Strategy

end WebMigration.Recovery
