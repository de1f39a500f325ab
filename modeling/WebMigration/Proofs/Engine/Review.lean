import WebMigration.Validation.Outcome
import WebMigration.Proofs.Engine.Batch
import WebMigration.Proofs.Engine.Pass
import WebMigration.Proofs.Settings.Limits

/-!
# The review gate

Each check of a file records its own finding and leaves those of the others alone, so the outcome of
all checks can be read off the code and the verdict of the rules.  What does not have to be reviewed
can be trusted: its score is high enough, and for a script the code can be read, the rules found no
error in it and the semantic pass did not fail for good.
-/

namespace WebMigration

namespace Validation

open WebMigration.Module (Source)

/-! ### Single checks -/

@[simp] theorem withSyntax_syntaxValid (readable : Bool) (o : ValidationOutcome) :
    (withSyntax readable o).syntaxValid = (readable && o.syntaxValid) := by
  cases readable <;> rfl

@[simp] theorem withSyntax_violations (readable : Bool) (o : ValidationOutcome) :
    (withSyntax readable o).violations = o.violations := by
  cases readable <;> rfl

@[simp] theorem withEquivalence_syntaxValid (e : Equivalence) (o : ValidationOutcome) :
    (withEquivalence e o).syntaxValid = o.syntaxValid := by
  unfold withEquivalence
  split <;> rfl

@[simp] theorem withEquivalence_violations (e : Equivalence) (o : ValidationOutcome) :
    (withEquivalence e o).violations = o.violations := by
  unfold withEquivalence
  split <;> rfl

@[simp] theorem withImports_syntaxValid (problems : List String) (o : ValidationOutcome) :
    (withImports problems o).syntaxValid = o.syntaxValid := by
  unfold withImports
  split <;> rfl

@[simp] theorem withImports_violations (problems : List String) (o : ValidationOutcome) :
    (withImports problems o).violations = o.violations := by
  unfold withImports
  split <;> rfl

@[simp] theorem withLeftovers_syntaxValid (found : List String) (o : ValidationOutcome) :
    (withLeftovers found o).syntaxValid = o.syntaxValid := by
  unfold withLeftovers
  split <;> rfl

@[simp] theorem withLeftovers_violations (found : List String) (o : ValidationOutcome) :
    (withLeftovers found o).violations = o.violations := by
  unfold withLeftovers
  split <;> rfl

/-! ### All checks -/

variable [Module.Salvage] {settings : EquivalenceSettings} {lanes : LaneRegistry}
  {spec : Specification} {r : Rewritten} {v : RuleVerdict}

/-- The syntax of a script is valid when its new code can be read. -/
theorem outcome_syntaxValid : (outcome settings lanes spec r (some v)).syntaxValid =
    !(Source.parse r.code r.targetPath (some spec.target.language)).hasError := by
  simp [outcome, scriptOutcome, ValidationOutcome.finish]

/-- The violations of a script are those of the verdict. -/
theorem outcome_violations :
    (outcome settings lanes spec r (some v)).violations = v.violations := by
  simp [outcome, scriptOutcome, ValidationOutcome.finish]

/-- A valid outcome has valid syntax and no violation that is an error. -/
theorem outcome_of_valid {verdict : Option RuleVerdict}
    (h : (outcome settings lanes spec r verdict).valid = true) :
    (outcome settings lanes spec r verdict).syntaxValid = true ∧
      ∀ x ∈ (outcome settings lanes spec r verdict).violations, x.isError = false := by
  unfold outcome at h ⊢
  simp only [ValidationOutcome.finish, Bool.and_eq_true, beq_iff_eq,
    ValidationOutcome.errorCount, List.countP_eq_zero] at h
  exact ⟨h.1.2, fun x hx => Bool.eq_false_iff.2 (h.2 x hx)⟩

/-- A valid script can be read, and the rules found no error in it. -/
theorem script_of_valid (h : (outcome settings lanes spec r (some v)).valid = true) :
    (Source.parse r.code r.targetPath (some spec.target.language)).hasError = false ∧
      ∀ x ∈ v.violations, x.isError = false := by
  obtain ⟨hreadable, hviolations⟩ := outcome_of_valid h
  rw [outcome_syntaxValid] at hreadable
  rw [outcome_violations] at hviolations
  exact ⟨by simpa using hreadable, hviolations⟩

end Validation

end WebMigration

namespace WebMigration.Engine

open WebMigration.Module (Source)

variable {σ : Type} {e : Engine σ} {job : Job} {settings : ScoringSettings}

/-! ### Scores -/

theorem clamp_range (n : Int) : 0 ≤ Scoring.clamp n ∧ Scoring.clamp n ≤ 100 := by
  unfold Scoring.clamp
  omega

/-- A blended score is a clamped one. -/
theorem confidence_range {score semantic passErrors c : Int} {valid : Bool}
    (h : Scoring.confidence score valid semantic passErrors = .ok c) : 0 ≤ c ∧ c ≤ 100 := by
  unfold Scoring.confidence at h
  rcases hb : Scoring.blend (Scoring.penalized score valid passErrors) semantic with fault | n
  · rw [hb] at h
    cases h
  · rw [hb] at h
    obtain rfl := Except.ok.inj h
    exact clamp_range n

theorem confidenceIn_range (hs : settings.InRange) {passed : Passed} {o : ValidationOutcome}
    {c : Int} (h : confidenceIn settings passed o = .ok c) : 0 ≤ c ∧ c ≤ 100 := by
  unfold confidenceIn at h
  split at h
  · obtain rfl := Except.ok.inj h
    have := hs.failedConfidence
    omega
  · exact confidence_range h

/-! ### The gate -/

/-- The score is in range, the risk is what the score leaves, and a low score asks for a review. -/
structure Gated (settings : ScoringSettings) (r : FileResult) : Prop where
  nonneg : 0 ≤ r.confidence
  le_hundred : r.confidence ≤ 100
  risk : r.metadata.risk = 100 - r.confidence
  review : r.confidence < settings.reviewThreshold → r.needsReview = true

theorem failed_gated (settings : ScoringSettings) (path : String) (original : Option String)
    (spec : Specification) (note warning : String) :
    Gated settings (.failed path original spec note warning) := by
  refine ⟨Int.le_refl 0, ?_, rfl, fun _ => rfl⟩
  show (0 : Int) ≤ 100
  omega

/-- A generated file has the highest score, which no threshold exceeds. -/
theorem generated_gated (hs : settings.InRange) (path : String) (code original : Option String)
    (role language : String) (spec : Specification) (notes added : List String)
    (change : Option ChangeSummary) :
    Gated settings (.generated path code original role language spec notes added change) := by
  refine ⟨?_, Int.le_refl 100, rfl, fun h => ?_⟩
  · show (0 : Int) ≤ 100
    omega
  · have hlow : (100 : Int) < settings.reviewThreshold := h
    have := hs.reviewThreshold
    omega

theorem result_gated {w : Rewriting} {spec : Specification} {o : ValidationOutcome} {c : Int}
    (hc : 0 ≤ c ∧ c ≤ 100) : Gated settings (w.result settings spec o c) := by
  refine ⟨hc.1, hc.2, rfl, fun h => ?_⟩
  have hlow : c < settings.reviewThreshold := h
  show needsReview settings w.passed o c = true
  simp [needsReview, Scoring.needsReview, hlow]

theorem Course.gated (hs : e.settings.scoring.InRange) {file : FileRecord} {planned : Option String}
    {s s' : Logged σ} {r : FileResult} (h : Course e job file planned s r s') :
    Gated e.settings.scoring r := by
  cases h with
  | unreadable => exact failed_gated ..
  | failed => exact failed_gated ..
  | concluded _ ht =>
    obtain ⟨w, o, c, -, -, hc, rfl⟩ := transformContent_result ht
    exact result_gated (confidenceIn_range hs hc)

/-! ### What stands behind a script -/

/-- What vouches for the result of a script: the run in which it was made.  The content was
obtained, both passes ran over it without the semantic pass failing for good, and the code they made
of it can be read and was judged to be without errors. -/
def Vouched (e : Engine σ) (job : Job) (file : FileRecord) (planned : Option String) (s : Logged σ)
    (r : FileResult) : Prop :=
  ∃ (w : Rewriting) (t t' u v : Logged σ) (verdict : RuleVerdict),
    let rewritten : Validation.Rewritten := ⟨w.original, w.code, file.path, some r.newPath⟩
    e.contentOf file s = (.ok (some w.original), t) ∧ t'.state = t.state ∧
    e.passesOver job file.path w.original t' = (.ok (w.passed, w.context), u) ∧
    ¬ SemanticFails e job file.path w.original t' ∧
    r.newPath = targetOf file.path planned job.spec ∧ r.code = some w.code ∧
    (@Source.parse e.salvage w.code rewritten.targetPath
      (some job.spec.target.language)).hasError = false ∧
    e.judge job.rules w.code rewritten.targetPath u = (.ok (some verdict), v) ∧
    ∀ x ∈ verdict.violations, x.isError = false

/-- A rewriting needs a review if the semantic pass failed or the checks are not met. -/
theorem of_not_needsReview {passed : Passed} {o : ValidationOutcome} {c : Int}
    (h : needsReview settings passed o c = false) :
    passed.semantic.failed = false ∧ o.valid = true := by
  simp only [needsReview, Scoring.needsReview, Bool.or_eq_false_iff, Bool.not_eq_false'] at h
  exact ⟨h.1, h.2.1.1.2⟩

theorem Course.vouched {file : FileRecord} {planned : Option String} {s s' : Logged σ}
    {r : FileResult} (h : Course e job file planned s r s')
    (hscript : Structure.isScript file.path = true) (hr : r.needsReview = false) :
    r.success = true ∧ Vouched e job file planned s r := by
  cases h with
  | unreadable => cases hr
  | failed => cases hr
  | @concluded content t _ _ hcontent ht =>
    obtain ⟨w, t', u, rfl, hpath, hnew, hstate, hpasses, -, hw⟩ := transformContent_ok ht
    obtain ⟨o, c, v, hvalidate, -, rfl⟩ := conclude_ok hw
    obtain ⟨hfailed, hvalid⟩ := of_not_needsReview hr
    rw [hpath, hscript] at hvalidate
    obtain ⟨verdict, rfl, hverdict⟩ := validate_ok hvalidate
    obtain ⟨verdict, rfl, hjudge⟩ := hverdict rfl
    obtain ⟨hreadable, hviolations⟩ := @Validation.script_of_valid e.salvage _ _ _ _ _ hvalid
    refine ⟨rfl, w, t, t', u, v, verdict, hcontent, hstate, hpasses, ?_, hnew, rfl, hreadable,
      hjudge, hviolations⟩
    rw [← passesOver_failed hpasses, hfailed]
    exact Bool.false_ne_true

/-! ### All results -/

theorem produces_gated (hs : e.settings.scoring.InRange) {changes : List FileChange}
    {f : String × Option String} {r : FileResult} (h : Produces e job changes f r) :
    Gated e.settings.scoring r := by
  obtain ⟨t, u, h⟩ := h
  exact (course_of_transformFor h).gated hs

/-- **The review gate.**  With accepted settings, the result of every file and every result of a
batch passes the gate, and a script whose result needs no review is vouched for. -/
theorem results_gated (e : Engine σ) {document : Json}
    (hs : Settings.ofDocument document = .ok e.settings) :
    (∀ file spec planned id s r s', e.transform file spec planned id s = (.ok r, s') →
      Gated e.settings.scoring r ∧
      (Structure.isScript file.path = true → r.needsReview = false →
        r.success = true ∧ Vouched e (e.jobOf spec id) file planned s r)) ∧
    ∀ records spec jobId s batch s', e.transformBatch records spec jobId s = (.ok batch, s') →
      ∀ x ∈ batch.results, Gated e.settings.scoring x.2 := by
  have hrange := Settings.inRange_of_ofDocument hs
  refine ⟨fun file spec planned id s r s' h => ?_, fun records spec jobId s batch s' h => ?_⟩
  · have course := course_of_transformFor h
    exact ⟨course.gated hrange, course.vouched⟩
  · obtain ⟨b, rfl⟩ := transformBatch_ok h
    exact b.all_results (fun _ _ => failed_gated ..) (fun _ _ => produces_gated hrange)
      (fun _ _ _ _ _ _ _ _ => generated_gated hrange ..)

section

attribute [local instance] Module.Salvage.stopping

/-- The default settings are accepted.  A small script that is transformed under them needs no
review, and the gate holds for it, alone and in a batch. -/
theorem results_gated_plain :
    Settings.ofDocument (.record []) = .ok plain.settings ∧
    (∃ r s', plain.transform smallScript laneless none none ⟨(), []⟩ = (.ok r, s') ∧
      Gated plain.settings.scoring r ∧ Structure.isScript smallScript.path = true ∧
      r.needsReview = false ∧ r.success = true ∧
      Vouched plain (plain.jobOf laneless none) smallScript none ⟨(), []⟩ r) ∧
    ∃ batch s', plain.transformBatch [smallScript] laneless none ⟨(), []⟩ = (.ok batch, s') ∧
      batch.results.has "A.tsx" = true ∧ ∀ x ∈ batch.results, Gated plain.settings.scoring x.2 := by
  have accepted : Settings.ofDocument (.record []) = .ok plain.settings := rfl
  obtain ⟨gate, batchGate⟩ := results_gated plain accepted
  refine ⟨accepted, ?_, ?_⟩
  · have answers : ((plain.transform smallScript laneless none none ⟨(), []⟩).1.toOption.any
        fun r => !r.needsReview) = true := by decide +kernel
    obtain ⟨r, s', hr, hreview⟩ := Run.ok_of_any answers
    obtain ⟨hgated, hvouched⟩ := gate _ _ _ _ _ _ _ hr
    have hscript : Structure.isScript smallScript.path = true := by decide +kernel
    rw [Bool.not_eq_true'] at hreview
    obtain ⟨hsuccess, hv⟩ := hvouched hscript hreview
    exact ⟨r, s', hr, hgated, hscript, hreview, hsuccess, hv⟩
  · have answers : ((plain.transformBatch [smallScript] laneless none ⟨(), []⟩).1.toOption.any
        fun batch => batch.results.has "A.tsx") = true := by decide +kernel
    obtain ⟨batch, s', hb, hkey⟩ := Run.ok_of_any answers
    exact ⟨batch, s', hb, hkey, batchGate _ _ _ _ _ _ hb⟩

end

end WebMigration.Engine
