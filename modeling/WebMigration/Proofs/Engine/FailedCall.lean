import WebMigration.Proofs.Engine.File
import WebMigration.Proofs.Engine.Pass
import WebMigration.Proofs.Failure.Closed

/-!
# When the first call of the semantic pass fails

A file whose semantic pass fails at first is either recovered or not.  If not, it keeps what the syntax
pass made of it, with a fixed low score, a review and a warning that tells the error.  If so, its result
is the one of an engine whose semantic pass answers at once with what recovery came up with: the
recovery leaves no trace in it.
-/

namespace WebMigration

/-- Work on a file fails as the work from its context on does. -/
theorem Work.begin_error {σ α : Type} {context : FileContext} {r : Run (Work σ) α} {s : Logged σ}
    {fault : Fault} {t : Logged (Work σ)} (h : r ⟨⟨context, s.state⟩, s.log⟩ = (.error fault, t)) :
    Work.begin context r s = (.error fault, ⟨t.state.outside, t.log⟩) := by
  unfold Work.begin
  rw [h]

namespace Engine

open Rewrite (PassResult)

variable {σ : Type}

/-! ### What follows the passes -/

/-- The event that starts a file. -/
def startLine (job : Job) (path : String) : LogLine :=
  Event.line .info "transformation:start"
    [("file_path", .string path), ("source_framework", .string job.spec.source.framework),
      ("target_framework", .string job.spec.target.framework)]

/-- After the event that starts a file. -/
def started (job : Job) (path : String) (s : Logged σ) : Logged σ :=
  { s with log := startLine job path :: s.log }

/-- The passes over a file begin in its context. -/
def entered (job : Job) (path original : String) (s : Logged σ) : Logged (Work σ) :=
  ⟨⟨Module.contextOf path original (some job.spec.source.language), s.state⟩, s.log⟩

/-- The passes over a file leave the state of everyone else. -/
def leaving (s : Logged (Work σ)) : Logged σ := ⟨s.state.outside, s.log⟩

/-- The rewriting that the passes come to with some code. -/
def rewritingOf (job : Job) (path original : String) (planned : Option String) (passed : Passed)
    (context : FileContext) (code : String) : Rewriting :=
  ⟨original, code, path, targetOf path planned job.spec, passed, context⟩

/-- What follows the passes: the code must be a text, and it is checked and scored. -/
def finish (e : Engine σ) (job : Job) (path original : String) (planned : Option String)
    (passed : Passed) (context : FileContext) : Run σ FileResult := do
  let code ← Run.ofExcept (codeOf (Structure.isScript path) passed.semantic.result.code)
  e.conclude job (rewritingOf job path original planned passed context code)

/-- The result of a file for the end of its transformation. -/
def settled (job : Job) (path original : String) : Except Fault FileResult → FileResult
  | .ok r => r
  | .error fault => givenUp job path (some original) fault

variable {e : Engine σ} {job : Job} {file : FileRecord} {path original : String}
  {planned : Option String} {s : Logged σ}

theorem codeOf_some (isScript : Bool) (text : String) :
    codeOf isScript (.optional (some text)) = .ok text := rfl

theorem start_eq (job : Job) (path : String) (s : Logged σ) :
    Run.event "transformation:start"
      [("file_path", .string path), ("source_framework", .string job.spec.source.framework),
        ("target_framework", .string job.spec.target.framework)] s =
      (.ok (), started job path s) := rfl

/-- A content is transformed by both passes and what follows them. -/
theorem transformContent_eq (s : Logged σ) :
    e.transformContent job path (some original) planned s =
      (do
        let (passed, context) ← e.passesOver job path original
        e.finish job path original planned passed context) (started job path s) := by
  unfold transformContent
  rw [Run.bind_of_ok (start_eq job path s), codeOf_some, Run.bind_of_ok (Run.ofExcept_ok.2 ⟨rfl, rfl⟩)]
  rfl

/-- A file that could be read gets the result for the end of its transformation. -/
theorem transformFor_settled (planned : Option String) {read : Logged σ}
    (hread : e.contentOf file s = (.ok (some original), read)) :
    ∃ s', e.transformFor job file planned s = (.ok (settled job file.path original
      (e.transformContent job file.path (some original) planned read).1), s') := by
  unfold transformFor
  rw [Run.bind_of_ok Run.attempt_eq, hread]
  dsimp only
  rw [Run.bind_of_ok Run.attempt_eq]
  rcases e.transformContent job file.path (some original) planned read with ⟨fault | r, t⟩
  · exact ⟨_, rfl⟩
  · exact ⟨_, rfl⟩

/-- How the checks and the score of a file end. -/
theorem conclude_fst (w : Rewriting) (s : Logged σ) :
    (e.conclude job w s).1 =
      (e.validate job.rules job.spec ⟨w.original, w.code, w.path, some w.newPath⟩
        (Structure.isScript w.path) s).1.bind fun o =>
          (confidenceIn e.settings.scoring w.passed o).map
            (w.result e.settings.scoring job.spec o) := by
  unfold conclude
  rcases hv : e.validate job.rules job.spec ⟨w.original, w.code, w.path, some w.newPath⟩
    (Structure.isScript w.path) s with ⟨fault | o, t⟩
  · rw [Run.bind_of_error hv]
    rfl
  · rw [Run.bind_of_ok hv]
    dsimp only [Except.bind]
    cases confidenceIn e.settings.scoring w.passed o with
    | error fault => rfl
    | ok confidence => rfl

theorem finish_fst (passed : Passed) (context : FileContext) (s : Logged σ) :
    (e.finish job path original planned passed context s).1 =
      (codeOf (Structure.isScript path) passed.semantic.result.code).bind fun code =>
        (e.conclude job (rewritingOf job path original planned passed context code) s).1 := by
  unfold finish
  cases codeOf (Structure.isScript path) passed.semantic.result.code with
  | error fault => rfl
  | ok code =>
    rw [Run.bind_of_ok (Run.ofExcept_ok.2 ⟨rfl, rfl⟩)]
    dsimp only [Except.bind]

/-- What follows the passes does not depend on the transformer. -/
theorem finish_withTransformer (t : Option (Semantic.Transformer σ)) (passed : Passed)
    (context : FileContext) :
    ({ e with semantic := t } : Engine σ).finish job path original planned passed context =
      e.finish job path original planned passed context := by
  unfold finish conclude validate verdictOn
  rfl

/-- The verdicts of the standard engine are told by the rules, the code and the path. -/
theorem standard_judge_steady [Module.Salvage] (settings : Settings) (lanes : LaneRegistry)
    (rules : RuleSet) (code path : String) :
    Run.Steady _ ((standard settings lanes : Engine σ).judge rules code path) :=
  Run.steady_closed.pure _

/-- When the verdicts on code do not depend on the state, the checks do not. -/
theorem validate_steady (hjudge : ∀ rules code path, Run.Steady _ (e.judge rules code path))
    (rules : RuleSet) (spec : Specification) (r : Validation.Rewritten) (isScript : Bool) :
    Run.Steady _ (e.validate rules spec r isScript) := by
  refine Run.steady_closed.bind ?_ fun verdict => Run.steady_closed.pure _
  unfold verdictOn
  split
  · exact Run.steady_closed.bind (hjudge _ _ _) fun verdict =>
      Run.steady_closed.map some (Run.steady_closed.demand _ _)
  · exact Run.steady_closed.pure none

/-! ### The same outcome -/

/-- Two results of a file with the same outcome, whatever else is told about the file. -/
structure SameOutcome (r r' : FileResult) : Prop where
  success : r'.success = r.success
  code : r'.code = r.code
  confidence : r'.confidence = r.confidence
  review : r'.needsReview = r.needsReview
  warnings : r'.warnings = r.warnings

namespace Rewriting

variable (w : Rewriting) (settings : ScoringSettings) (spec : Specification) (o : ValidationOutcome)
  (confidence : Int)

theorem result_success : (w.result settings spec o confidence).success = true := rfl

theorem result_code : (w.result settings spec o confidence).code = some w.code := rfl

theorem result_confidence : (w.result settings spec o confidence).confidence = confidence := rfl

theorem result_needsReview : (w.result settings spec o confidence).needsReview =
    needsReview settings w.passed o confidence := rfl

theorem result_warnings : (w.result settings spec o confidence).warnings =
    w.passed.rewritten.errors ++ w.passed.semantic.result.warnings ++ o.warnings := rfl

/-- The outcome of a file does not depend on what is told about it. -/
theorem result_sameOutcome (context : FileContext) :
    SameOutcome (w.result settings spec o confidence)
      (({ w with context } : Rewriting).result settings spec o confidence) where
  success := by rw [result_success, result_success]
  code := by rw [result_code, result_code]
  confidence := by rw [result_confidence, result_confidence]
  review := by rw [result_needsReview, result_needsReview]
  warnings := by rw [result_warnings, result_warnings]

end Rewriting

theorem SameOutcome.refl (r : FileResult) : SameOutcome r r := ⟨rfl, rfl, rfl, rfl, rfl⟩

/-- What follows the passes does not depend on the state, and of the context only what is told about
the file does. -/
theorem finish_sameOutcome (job : Job) (path original : String) (planned : Option String)
    (hjudge : ∀ rules code path, Run.Steady _ (e.judge rules code path))
    (passed : Passed) (context context' : FileContext) (s s' : Logged σ) :
    SameOutcome
        (settled job path original (e.finish job path original planned passed context s).1)
        (settled job path original (e.finish job path original planned passed context' s').1) ∧
      (context' = context →
        settled job path original (e.finish job path original planned passed context' s').1 =
          settled job path original (e.finish job path original planned passed context s).1) := by
  rw [finish_fst, finish_fst]
  cases codeOf (Structure.isScript path) passed.semantic.result.code with
  | error fault =>
    dsimp only [Except.bind]
    exact ⟨.refl _, fun _ => rfl⟩
  | ok code =>
    dsimp only [Except.bind]
    rw [conclude_fst, conclude_fst]
    -- The checks answer the same from both states, and the score depends on nothing else.
    obtain ⟨x, hx⟩ := validate_steady hjudge job.rules job.spec
      ⟨original, code, path, some (targetOf path planned job.spec)⟩ (Structure.isScript path)
    obtain ⟨t, ht⟩ := hx s
    obtain ⟨t', ht'⟩ := hx s'
    dsimp only [rewritingOf]
    rw [ht, ht']
    cases x with
    | error fault =>
      dsimp only [Except.bind]
      exact ⟨.refl _, fun _ => rfl⟩
    | ok o =>
      dsimp only [Except.bind]
      cases confidenceIn e.settings.scoring passed o with
      | error fault =>
        dsimp only [Except.map]
        exact ⟨.refl _, fun _ => rfl⟩
      | ok confidence =>
        dsimp only [Except.map, settled]
        refine ⟨Rewriting.result_sameOutcome
          ⟨original, code, path, targetOf path planned job.spec, passed, context⟩
          e.settings.scoring job.spec o confidence context', ?_⟩
        rintro rfl
        rfl

/-! ### The first call -/

/-- A run over a file up to the call of the semantic pass: the file has been read and rewritten, there
is a transformer that is ready, and the file needs it. -/
structure Called (e : Engine σ) (job : Job) (file : FileRecord) (s : Logged σ) where
  original : String
  read : Logged σ
  rewritten : PassResult
  rewrote : Logged (Work σ)
  transformer : Semantic.Transformer σ
  ready : Logged (Work σ)
  reads : e.contentOf file s = (.ok (some original), read)
  rewrites : e.rewriteScript original job.spec job.id
    (Module.contextOf file.path original (some job.spec.source.language))
    (entered job file.path original (started job file.path read)) = (.ok rewritten, rewrote)
  isReady : Work.elsewhere e.transformer? rewrote = (.ok (some transformer), ready)
  needed : ((Structure.isScript rewrote.state.context.path ||
    isManifest rewrote.state.context.path) &&
      needsSemantic rewritten.code rewrote.state.context) = true

namespace Called

variable (c : Called e job file s)

/-- The context of the file at the call. -/
abbrev context : FileContext := c.rewrote.state.context

/-- The call. -/
def call : Run (Work σ) (Option SemanticResult) :=
  Work.elsewhere (c.transformer.transform c.rewritten.code job.spec c.context)

/-- The semantic pass asks the transformer. -/
def asking : Except Fault (Option SemanticOutcome) × Logged (Work σ) :=
  e.askTransformer c.transformer c.rewritten.code job.spec job.id c.context c.ready

theorem runSemantic_eq :
    e.runSemantic c.rewritten.code job.spec job.id c.context c.rewrote = c.asking := by
  unfold runSemantic
  rw [Run.bind_of_ok c.isReady]
  dsimp only
  rw [if_pos c.needed]
  rfl

/-- Both passes end as the semantic pass does. -/
theorem passesOver_of_answer {semantic : SemanticOutcome} {t : Logged (Work σ)}
    (h : c.asking = (.ok (some semantic), t)) :
    e.passesOver job file.path c.original (started job file.path c.read) =
      (.ok (⟨c.rewritten, semantic⟩, t.state.context), leaving t) := by
  have hpasses : e.runPasses c.original job.spec job.id
      (Module.contextOf file.path c.original (some job.spec.source.language))
      (entered job file.path c.original (started job file.path c.read)) =
        (.ok ⟨c.rewritten, semantic⟩, t) := by
    unfold runPasses
    rw [Run.bind_of_ok c.rewrites, Run.bind_of_ok Run.state_eq,
      Run.bind_of_ok (c.runSemantic_eq.trans h)]
    rfl
  unfold passesOver
  refine Work.begin_ok.2 ?_
  rw [Run.bind_of_ok Run.state_eq]
  exact hpasses

theorem passesOver_of_error {raised : Fault} {t : Logged (Work σ)}
    (h : c.asking = (.error raised, t)) :
    e.passesOver job file.path c.original (started job file.path c.read) =
      (.error raised, leaving t) := by
  have hpasses : e.runPasses c.original job.spec job.id
      (Module.contextOf file.path c.original (some job.spec.source.language))
      (entered job file.path c.original (started job file.path c.read)) = (.error raised, t) := by
    unfold runPasses
    rw [Run.bind_of_ok c.rewrites, Run.bind_of_ok Run.state_eq,
      Run.bind_of_error (c.runSemantic_eq.trans h)]
  unfold passesOver
  refine Work.begin_error ?_
  rw [Run.bind_of_ok Run.state_eq]
  exact hpasses

/-- Once the semantic pass has answered, the file gets its result. -/
theorem transformFor_of_answer (planned : Option String) {semantic : SemanticOutcome} {t : Logged (Work σ)}
    (h : c.asking = (.ok (some semantic), t)) :
    ∃ s', e.transformFor job file planned s = (.ok (settled job file.path c.original
      (e.finish job file.path c.original planned ⟨c.rewritten, semantic⟩ t.state.context
        (leaving t)).1), s') := by
  obtain ⟨s', hsettled⟩ := transformFor_settled planned c.reads
  refine ⟨s', ?_⟩
  rw [hsettled, transformContent_eq, Run.bind_of_ok (c.passesOver_of_answer h)]

/-- If it raises an error, the file is given up. -/
theorem transformFor_of_error {raised : Fault} {t : Logged (Work σ)}
    (h : c.asking = (.error raised, t)) :
    ∃ s', e.transformFor job file planned s =
      (.ok (givenUp job file.path (some c.original) raised), s') := by
  obtain ⟨s', hsettled⟩ := transformFor_settled planned c.reads
  refine ⟨s', ?_⟩
  rw [hsettled, transformContent_eq, Run.bind_of_error (c.passesOver_of_error h)]
  rfl

/-- The same file for an engine with another transformer, which is ready. -/
def withTransformer (c : Called e job file s) (t : Semantic.Transformer σ)
    {ready : Logged (Work σ)}
    (h : Work.elsewhere ({ e with semantic := some t } : Engine σ).transformer? c.rewrote =
      (.ok (some t), ready)) : Called { e with semantic := some t } job file s where
  original := c.original
  read := c.read
  rewritten := c.rewritten
  rewrote := c.rewrote
  transformer := t
  ready := ready
  reads := c.reads
  rewrites := c.rewrites
  isReady := h
  needed := c.needed

theorem asking_of_result {result : SemanticResult} {t : Logged (Work σ)}
    (h : c.call c.ready = (.ok (some result), t)) : c.asking = (.ok (some ⟨result, false⟩), t) := by
  unfold asking askTransformer
  have hcall := h
  unfold call at hcall
  rw [Run.bind_of_ok Run.attempt_eq, hcall]
  rfl

end Called

/-- A call that fails. -/
structure FailedCall (e : Engine σ) (job : Job) (file : FileRecord) (s : Logged σ) extends
    Called e job file s where
  fault : Fault
  failed : Logged (Work σ)
  fails : toCalled.call toCalled.ready = (.error fault, failed)

namespace FailedCall

variable (c : FailedCall e job file s)

/-- After the failure has been reported. -/
def reported : Logged (Work σ) :=
  let line := Event.line .warning "transformation:semantic:error"
    [("file_path", .string c.context.path), ("error", .string c.fault.message)]
  { c.failed with log := line :: c.failed.log }

/-- What recovery comes to. -/
def recovery : Except Fault (Recovery.Outcome (Option SemanticResult)) × Logged (Work σ) :=
  e.semanticRecovery.recover c.fault (passContext "semantic-transform" job.id job.spec c.context)
    c.call c.reported

theorem reportFailure_eq :
    reportFailure "semantic" c.context.path c.fault c.failed = (.ok (), c.reported) := rfl

/-- The semantic pass goes on with recovery. -/
theorem asking_eq : c.asking =
    (do
      let outcome ← e.semanticRecovery.recover c.fault
        (passContext "semantic-transform" job.id job.spec c.context) c.call
      match recovered? outcome with
      | some result =>
          reportRecovery "semantic" c.context.path outcome
          return some ⟨result, false⟩
      | none =>
          return some (semanticFailed e.settings.scoring c.rewritten.code c.fault) :
        Run (Work σ) (Option SemanticOutcome)) c.reported := by
  have hfails := c.fails
  unfold Called.call at hfails
  unfold Called.asking askTransformer
  rw [Run.bind_of_ok Run.attempt_eq, hfails]
  dsimp only
  rw [Run.bind_of_ok c.reportFailure_eq]
  rfl

variable {c} {outcome : Recovery.Outcome (Option SemanticResult)} {t : Logged (Work σ)}

theorem asking_recovered {result : SemanticResult} (h : c.recovery = (.ok outcome, t))
    (hresult : recovered? outcome = some result) :
    ∃ u, c.asking = (.ok (some ⟨result, false⟩), u) ∧ u.state = t.state := by
  rw [c.asking_eq, Run.bind_of_ok h, hresult]
  exact ⟨_, rfl, rfl⟩

theorem asking_unrecovered (h : c.recovery = (.ok outcome, t)) (hnone : recovered? outcome = none) :
    c.asking =
      (.ok (some (semanticFailed e.settings.scoring c.rewritten.code c.fault)), t) := by
  rw [c.asking_eq, Run.bind_of_ok h, hnone]
  rfl

theorem asking_raised {raised : Fault} (h : c.recovery = (.error raised, t)) :
    c.asking = (.error raised, t) := by
  rw [c.asking_eq, Run.bind_of_error h]

/-- The result of a file that keeps what the syntax pass made of it. -/
structure KeepsSyntax (c : FailedCall e job file s) (r : FileResult) : Prop where
  success : r.success = true
  code : r.code = some c.rewritten.code
  confidence : r.confidence = e.settings.scoring.failedConfidence
  review : r.needsReview = true
  warning : "AI transformation failed: " ++ c.fault.message ++ ". Using AST-only result." ∈ r.warnings

/-- Without recovery the file keeps what the syntax pass made of it, if it can be checked. -/
theorem keepsSyntax (h : c.recovery = (.ok outcome, t)) (hnone : recovered? outcome = none)
    {o : ValidationOutcome} {u : Logged σ}
    (hchecks : e.validate job.rules job.spec
      ⟨c.original, c.rewritten.code, file.path, some (targetOf file.path planned job.spec)⟩
      (Structure.isScript file.path) (leaving t) = (.ok o, u)) :
    ∃ r s', e.transformFor job file planned s = (.ok r, s') ∧ c.KeepsSyntax r := by
  obtain ⟨s', hs'⟩ := c.transformFor_of_answer planned (asking_unrecovered h hnone)
  refine ⟨_, s', hs', ?_⟩
  have hcode : codeOf (Structure.isScript file.path)
      (semanticFailed e.settings.scoring c.rewritten.code c.fault).result.code =
        .ok c.rewritten.code := rfl
  rw [finish_fst, hcode]
  dsimp only [Except.bind]
  rw [conclude_fst]
  dsimp only [rewritingOf]
  rw [hchecks]
  have hscore : confidenceIn e.settings.scoring
      ⟨c.rewritten, semanticFailed e.settings.scoring c.rewritten.code c.fault⟩ o =
        .ok e.settings.scoring.failedConfidence := rfl
  dsimp only [Except.bind]
  rw [hscore]
  dsimp only [Except.map, settled]
  exact {
    success := Rewriting.result_success ..
    code := Rewriting.result_code ..
    confidence := Rewriting.result_confidence ..
    review := Rewriting.result_needsReview ..
    warning := by
      rw [Rewriting.result_warnings]
      refine List.mem_append_left _ (List.mem_append_right _ ?_)
      exact List.mem_singleton.2 rfl }

end FailedCall

theorem elsewhere_context {α : Type} {r : Run σ α} {s t : Logged (Work σ)} {x : Except Fault α}
    (h : Work.elsewhere r s = (x, t)) : t.state.context = s.state.context := by
  obtain ⟨u, -, hstate⟩ := Run.exists_of_onPart h
  rw [hstate]

/-- **A failed call of the semantic pass never costs what the syntax pass made of a file.**  If recovery
comes to no result, the file keeps it.  If recovery comes to a result, the outcome is the one of an engine
whose transformer answers with that result at once; if recovery leaves the context of the file alone, all
of the result is.  Only when recovery itself raises an error is the file given up. -/
theorem transform_failedCall (e : Engine σ) (file : FileRecord) (spec : Specification)
    (planned id : Option String) (s : Logged σ) (c : FailedCall e (e.jobOf spec id) file s) :
    (∀ outcome t, c.recovery = (.ok outcome, t) → recovered? outcome = none →
      ∀ o u, e.validate (e.jobOf spec id).rules spec
          ⟨c.original, c.rewritten.code, file.path, some (targetOf file.path planned spec)⟩
          (Structure.isScript file.path) (leaving t) = (.ok o, u) →
        ∃ r s', e.transform file spec planned id s = (.ok r, s') ∧ c.KeepsSyntax r) ∧
    (∀ outcome t result, c.recovery = (.ok outcome, t) → recovered? outcome = some result →
      (∀ rules code path, Run.Steady _ (e.judge rules code path)) →
      ∀ transformer ready answered,
        Work.elsewhere ({ e with semantic := some transformer } : Engine σ).transformer? c.rewrote =
          (.ok (some transformer), ready) →
        Work.elsewhere (transformer.transform c.rewritten.code spec c.context) ready =
          (.ok (some result), answered) →
        ∃ r s₁ r' s₂, e.transform file spec planned id s = (.ok r, s₁) ∧
          ({ e with semantic := some transformer } : Engine σ).transform file spec planned id s =
            (.ok r', s₂) ∧
          SameOutcome r r' ∧ (t.state.context = c.context → r' = r)) ∧
    ∀ raised t, c.recovery = (.error raised, t) →
      ∃ s', e.transform file spec planned id s =
        (.ok (givenUp (e.jobOf spec id) file.path (some c.original) raised), s') := by
  refine ⟨fun outcome t h hnone o u hchecks => FailedCall.keepsSyntax h hnone hchecks, ?_,
    fun raised t h => c.transformFor_of_error (FailedCall.asking_raised h)⟩
  intro outcome t result h hresult hjudge transformer ready answered hready hanswer
  obtain ⟨u, hasking, hstate⟩ := FailedCall.asking_recovered h hresult
  obtain ⟨s₁, hs₁⟩ := c.transformFor_of_answer planned hasking
  obtain ⟨s₂, hs₂⟩ := (c.withTransformer transformer hready).transformFor_of_answer
    planned (Called.asking_of_result _ hanswer)
  -- Both engines go on from the same outcome of the passes; states, logs and contexts may differ.
  rw [finish_withTransformer] at hs₂
  obtain ⟨hsame, hequal⟩ := finish_sameOutcome (e.jobOf spec id) file.path c.original planned
    hjudge ⟨c.rewritten, ⟨result, false⟩⟩
    u.state.context answered.state.context (leaving u) (leaving answered)
  refine ⟨_, s₁, _, s₂, hs₁, hs₂, hsame, fun hcontext => hequal ?_⟩
  have hkept : answered.state.context = c.context :=
    (elsewhere_context hanswer).trans (elsewhere_context hready)
  rw [hkept, hstate, hcontext]

/-! ### A package file -/

/-- A model that does not answer. -/
def down : Semantic.Transformer Unit where
  available := true
  transform _ _ _ := Run.fail (.aiService "down" "unknown" true)

/-- What a model made of a package file before. -/
def cached : SemanticResult := ⟨.string "{}", 90, [], false⟩

/-- A model that answers. -/
def answering : Semantic.Transformer Unit where
  available := true
  transform _ _ _ := pure (some cached)

/-- A recovery that has a result at hand. -/
def fromCache : Recovery.Manager (Work Unit) (Option SemanticResult) where
  default := some (.fallback
    [{ name := "cached", fits := fun _ => pure true, run := fun _ => pure (some cached) }])

section

attribute [local instance] Module.Salvage.stopping

/-- The default engine with a model that does not answer and some recovery. -/
def unanswered (recovery : Recovery.Manager (Work Unit) (Option SemanticResult)) : Engine Unit :=
  { plain with semantic := some down, semanticRecovery := recovery }

def packageFile : FileRecord := ⟨"package.json", some "{}"⟩

theorem packageFile_not_script : Structure.isScript packageFile.path = false := by decide +kernel

/-- The job of migrating it. -/
def packageJob : Job := plain.jobOf laneless none

/-- The passes over it begin. -/
def packageEntered : Logged (Work Unit) :=
  entered packageJob packageFile.path "{}" (started packageJob packageFile.path ⟨(), []⟩)

/-- The call for a package file, which fails. -/
def packageCall (recovery : Recovery.Manager (Work Unit) (Option SemanticResult)) :
    FailedCall (unanswered recovery) packageJob packageFile ⟨(), []⟩ where
  original := "{}"
  read := ⟨(), []⟩
  rewritten := ⟨"{}", []⟩
  rewrote := packageEntered
  transformer := down
  ready := packageEntered
  reads := rfl
  rewrites := by
    unfold rewriteScript
    rw [if_neg (by exact Bool.eq_false_iff.1 packageFile_not_script)]
    rfl
  isReady := rfl
  needed := by decide +kernel
  fault := .failure (.aiService "down" "unknown" true)
  failed := packageEntered
  fails := rfl

/-- Without a strategy the package file stays as it is; with a result at hand the outcome is that of a
model that answers. -/
theorem transform_failedCall_packageFile :
    (∃ r s', (unanswered {}).transform packageFile laneless none none ⟨(), []⟩ = (.ok r, s') ∧
      (packageCall {}).KeepsSyntax r) ∧
    ∃ r s₁ r' s₂,
      (unanswered fromCache).transform packageFile laneless none none ⟨(), []⟩ = (.ok r, s₁) ∧
      ({ unanswered fromCache with semantic := some answering } : Engine Unit).transform packageFile
        laneless none none ⟨(), []⟩ = (.ok r', s₂) ∧
      SameOutcome r r' ∧ r' = r := by
  constructor
  · obtain ⟨hkeeps, -, -⟩ := transform_failedCall (unanswered {}) packageFile laneless none none
      ⟨(), []⟩ (packageCall {})
    have hchecked := hkeeps _ _ rfl rfl
    rw [packageFile_not_script] at hchecked
    exact hchecked _ _ rfl
  · obtain ⟨-, hrecovers, -⟩ := transform_failedCall (unanswered fromCache) packageFile laneless none
      none ⟨(), []⟩ (packageCall fromCache)
    obtain ⟨r, s₁, r', s₂, h, h', hsame, hequal⟩ := hrecovers _ _ cached rfl rfl
      (standard_judge_steady {} .builtIn) answering _ _ rfl rfl
    exact ⟨r, s₁, r', s₂, h, h', hsame, hequal rfl⟩

end

end Engine

end WebMigration
