import WebMigration.Engine.File
import WebMigration.Proofs.Failure.Run

/-!
# When the semantic pass fails for good

The semantic pass says of its outcome whether it failed.  This is so exactly when it asked a
transformer that failed and that no recovery made up for.
-/

namespace WebMigration.Engine

variable {σ : Type}

/-- The semantic pass asks a transformer that fails, and recovery has no result either. -/
def FailsForGood (e : Engine σ) (code : String) (spec : Specification) (jobId : Option String)
    (context : FileContext) (s : Logged (Work σ)) : Prop :=
  ∃ t s₁ fault s₂ s₃ outcome s₄,
    Work.elsewhere e.transformer? s = (.ok (some t), s₁) ∧
    ((Structure.isScript context.path || isManifest context.path) &&
      needsSemantic code context) = true ∧
    Work.elsewhere (t.transform code spec context) s₁ = (.error fault, s₂) ∧
    reportFailure "semantic" context.path fault s₂ = (.ok (), s₃) ∧
    e.semanticRecovery.recover fault (passContext "semantic-transform" jobId spec context)
      (Work.elsewhere (t.transform code spec context)) s₃ = (.ok outcome, s₄) ∧
    recovered? outcome = none

variable {e : Engine σ} {t : Semantic.Transformer σ} {code : String} {spec : Specification}
  {jobId : Option String} {context : FileContext} {s s' : Logged (Work σ)} {o : SemanticOutcome}

/-- A transformer that is asked fails for good when it fails and recovery has no result. -/
theorem askTransformer_failed
    (h : e.askTransformer t code spec jobId context s = (.ok (some o), s')) :
    o.failed = true ↔ ∃ fault s₂ s₃ outcome s₄,
      Work.elsewhere (t.transform code spec context) s = (.error fault, s₂) ∧
      reportFailure "semantic" context.path fault s₂ = (.ok (), s₃) ∧
      e.semanticRecovery.recover fault (passContext "semantic-transform" jobId spec context)
        (Work.elsewhere (t.transform code spec context)) s₃ = (.ok outcome, s₄) ∧
      recovered? outcome = none := by
  unfold askTransformer at h
  rw [Run.bind_of_ok Run.attempt_eq] at h
  rcases ht : Work.elsewhere (t.transform code spec context) s with ⟨fault | result, s₂⟩ <;>
    rw [ht] at h <;> dsimp only at h
  · obtain ⟨⟨⟩, s₃, hreport, h⟩ := Run.bind_ok.1 h
    obtain ⟨outcome, s₄, hrecover, h⟩ := Run.bind_ok.1 h
    rcases hr : recovered? outcome with _ | result <;> rw [hr] at h <;> dsimp only at h
    · obtain ⟨h, -⟩ := Run.pure_ok.1 h
      rw [← Option.some.inj h]
      exact iff_of_true rfl ⟨fault, s₂, s₃, outcome, s₄, rfl, hreport, hrecover, hr⟩
    · obtain ⟨-, s₅, -, h⟩ := Run.bind_ok.1 h
      obtain ⟨h, -⟩ := Run.pure_ok.1 h
      rw [← Option.some.inj h]
      refine iff_of_false Bool.false_ne_true ?_
      -- A run has one answer, so the run that is said to have no result is this one, which has one.
      rintro ⟨fault', s₂', s₃', outcome', s₄', hf, hp, hc, hn⟩
      simp only [Run.end_inj, Except.error.injEq] at hf
      obtain ⟨rfl, rfl⟩ := hf
      obtain ⟨-, rfl⟩ := Run.answer_unique hreport hp
      obtain ⟨rfl, -⟩ := Run.answer_unique hrecover hc
      cases hr.symm.trans hn
  · obtain ⟨h, -⟩ := Run.pure_ok.1 h
    obtain ⟨r, -, rfl⟩ := Option.map_eq_some_iff.1 h
    refine iff_of_false Bool.false_ne_true ?_
    rintro ⟨fault, s₂', s₃, outcome, s₄, hf, -⟩
    simp at hf

/-- The outcome of the semantic pass is marked as failed exactly when the pass fails for good. -/
theorem runSemantic_failed (h : e.runSemantic code spec jobId context s = (.ok (some o), s')) :
    o.failed = true ↔ FailsForGood e code spec jobId context s := by
  unfold runSemantic at h
  obtain ⟨found, s₁, ht, h⟩ := Run.bind_ok.1 h
  cases found with
  | none =>
    obtain ⟨h, -⟩ := Run.pure_ok.1 h
    rw [← Option.some.inj h]
    refine iff_of_false Bool.false_ne_true ?_
    rintro ⟨t, s₁', fault, s₂, s₃, outcome, s₄, hf, -⟩
    cases (Run.answer_unique ht hf).1
  | some t =>
    dsimp only at h
    split at h
    · rename_i hasks
      rw [askTransformer_failed h]
      constructor
      · rintro ⟨fault, s₂, s₃, outcome, s₄, hfail⟩
        exact ⟨t, s₁, fault, s₂, s₃, outcome, s₄, ht, hasks, hfail⟩
      · rintro ⟨t', s₁', fault, s₂, s₃, outcome, s₄, hf, -, hfail⟩
        obtain ⟨hsome, rfl⟩ := Run.answer_unique ht hf
        obtain rfl := Option.some.inj hsome
        exact ⟨fault, s₂, s₃, outcome, s₄, hfail⟩
    · rename_i hasks
      obtain ⟨h, -⟩ := Run.pure_ok.1 h
      rw [← Option.some.inj h]
      refine iff_of_false Bool.false_ne_true ?_
      rintro ⟨t', s₁', fault, s₂, s₃, outcome, s₄, -, hf, -⟩
      exact hasks hf

/-- The semantic pass over a file fails for good, after the syntax pass. -/
def SemanticFails (e : Engine σ) (job : Job) (path original : String) (s : Logged σ) : Prop :=
  let context := Module.contextOf path original (some job.spec.source.language)
  ∃ rewritten s₁,
    e.rewriteScript original job.spec job.id context ⟨⟨context, s.state⟩, s.log⟩ =
      (.ok rewritten, s₁) ∧
    FailsForGood e rewritten.code job.spec job.id s₁.state.context s₁

/-- Both passes over a file tell whether the semantic pass failed for good. -/
theorem passesOver_failed {job : Job} {path original : String} {s s' : Logged σ} {passed : Passed}
    {after : FileContext} (h : e.passesOver job path original s = (.ok (passed, after), s')) :
    passed.semantic.failed = true ↔ SemanticFails e job path original s := by
  unfold passesOver at h
  rw [Work.begin_ok, Run.bind_of_ok Run.state_eq] at h
  obtain ⟨rewritten, s₁, hrewritten, h⟩ := Run.bind_ok.1 h
  rw [Run.bind_of_ok Run.state_eq] at h
  obtain ⟨result, s₂, hresult, h⟩ := Run.bind_ok.1 h
  obtain ⟨semantic, s₃, hsemantic, h⟩ := Run.bind_ok.1 h
  rw [Run.demand_ok] at hsemantic
  obtain ⟨rfl, rfl⟩ := hsemantic
  obtain ⟨h, -⟩ := Run.pure_ok.1 h
  rw [← h, runSemantic_failed hresult]
  constructor
  · exact fun hfails => ⟨rewritten, s₁, hrewritten, hfails⟩
  · rintro ⟨rewritten', s₁', hrewritten', hfails⟩
    obtain ⟨rfl, rfl⟩ := Run.answer_unique hrewritten hrewritten'
    exact hfails

end WebMigration.Engine
