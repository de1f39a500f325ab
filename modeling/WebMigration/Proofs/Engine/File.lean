import WebMigration.Engine.File
import WebMigration.Proofs.Failure.Run

/-!
# How a file comes to its result

A file is given up because its content cannot be obtained, or because something fails afterwards,
or it is concluded.  There is always a result, and in each case it is known what the result is made
of.
-/

namespace WebMigration.Engine

variable {σ : Type}

/-! ### Given up -/

/-- The result of a file that is given up. -/
def givenUp (job : Job) (path : String) (original : Option String) (fault : Fault) : FileResult :=
  .failed path original job.spec ("Transformation failed: " ++ fault.report.message)
    ("Critical error: " ++ fault.report.message)

/-- Giving up a file does not fail, and only the log changes. -/
theorem giveUp_ok (job : Job) (path : String) (original : Option String) (fault : Fault)
    (s : Logged σ) :
    ∃ s', giveUp job path original fault s = (.ok (givenUp job path original fault), s') ∧
      s'.state = s.state :=
  ⟨_, rfl, rfl⟩

/-! ### Concluded -/

/-- Code that is read is the text that is there. -/
theorem codeOf_optional_ok {isScript : Bool} {content : Option String} {text : String}
    (h : codeOf isScript (.optional content) = .ok text) : content = some text := by
  cases content with
  | none => simp [Json.optional, codeOf] at h
  | some t => simpa [Json.optional, codeOf] using h

/-- The checks of a file answer with the outcome for a verdict, which is there for scripts. -/
theorem validate_ok {e : Engine σ} {rules : RuleSet} {spec : Specification}
    {r : Validation.Rewritten} {isScript : Bool} {s s' : Logged σ} {o : ValidationOutcome}
    (h : e.validate rules spec r isScript s = (.ok o, s')) :
    ∃ verdict, o = @Validation.outcome e.settings.equivalence e.lanes spec e.salvage r verdict ∧
      (isScript = true → ∃ v, verdict = some v ∧
        e.judge rules r.code r.targetPath s = (.ok (some v), s')) := by
  unfold validate at h
  obtain ⟨verdict, t, hv, ho⟩ := Run.bind_ok.1 h
  obtain ⟨rfl, rfl⟩ := Run.pure_ok.1 ho
  refine ⟨verdict, rfl, fun hs => ?_⟩
  rw [verdictOn, if_pos hs] at hv
  obtain ⟨answer, u, hj, hd⟩ := Run.bind_ok.1 hv
  simp only [Run.map_ok, Run.demand_ok] at hd
  obtain ⟨v, ⟨rfl, rfl⟩, rfl⟩ := hd
  exact ⟨v, rfl, hj⟩

/-- A concluded file has the result of its checks and its score. -/
theorem conclude_ok {e : Engine σ} {job : Job} {w : Rewriting} {s s' : Logged σ} {r : FileResult}
    (h : e.conclude job w s = (.ok r, s')) :
    ∃ o confidence t,
      e.validate job.rules job.spec ⟨w.original, w.code, w.path, some w.newPath⟩
        (Structure.isScript w.path) s = (.ok o, t) ∧
      confidenceIn e.settings.scoring w.passed o = .ok confidence ∧
      r = w.result e.settings.scoring job.spec o confidence := by
  unfold conclude at h
  obtain ⟨o, t, hv, h⟩ := Run.bind_ok.1 h
  obtain ⟨confidence, u, hc, h⟩ := Run.bind_ok.1 h
  obtain ⟨-, _, -, h⟩ := Run.bind_ok.1 h
  exact ⟨o, confidence, t, hv, (Run.ofExcept_ok.1 hc).1, (Run.pure_ok.1 h).1.symm⟩

/-- A transformed content is a text, and what the passes make of it is concluded. -/
theorem transformContent_ok {e : Engine σ} {job : Job} {path : String}
    {content planned : Option String} {s s' : Logged σ} {r : FileResult}
    (h : e.transformContent job path content planned s = (.ok r, s')) :
    ∃ (w : Rewriting) (t u : Logged σ), content = some w.original ∧ w.path = path ∧
      w.newPath = targetOf path planned job.spec ∧ t.state = s.state ∧
      e.passesOver job path w.original t = (.ok (w.passed, w.context), u) ∧
      w.passed.semantic.result.code = .string w.code ∧ e.conclude job w u = (.ok r, s') := by
  unfold transformContent at h
  rw [Run.bind_of_ok Run.event_eq] at h
  obtain ⟨original, t, ho, h⟩ := Run.bind_ok.1 h
  obtain ⟨⟨passed, context⟩, u, hp, h⟩ := Run.bind_ok.1 h
  obtain ⟨code, u, hc, h⟩ := Run.bind_ok.1 h
  obtain ⟨hcontent, ht⟩ := Run.ofExcept_ok.1 ho
  obtain ⟨hcode, rfl⟩ := Run.ofExcept_ok.1 hc
  refine ⟨⟨original, code, path, targetOf path planned job.spec, passed, context⟩, t, u,
    codeOf_optional_ok hcontent, rfl, rfl, by rw [← ht], hp, ?_, h⟩
  unfold codeOf at hcode
  split at hcode
  · rename_i text hstring
    rw [hstring, Except.ok.inj hcode]
  · cases hcode

/-- What the result of a transformed content is made of. -/
theorem transformContent_result {e : Engine σ} {job : Job} {path : String}
    {content planned : Option String} {s s' : Logged σ} {r : FileResult}
    (h : e.transformContent job path content planned s = (.ok r, s')) :
    ∃ (w : Rewriting) (o : ValidationOutcome) (confidence : Int), content = some w.original ∧
      w.path = path ∧ confidenceIn e.settings.scoring w.passed o = .ok confidence ∧
      r = w.result e.settings.scoring job.spec o confidence := by
  obtain ⟨w, t, u, hcontent, hpath, -, -, -, -, hw⟩ := transformContent_ok h
  obtain ⟨o, confidence, v, -, hconfidence, hr⟩ := conclude_ok hw
  exact ⟨w, o, confidence, hcontent, hpath, hconfidence, hr⟩

/-! ### The three ways -/

/-- How a file comes to its result. -/
inductive Course (e : Engine σ) (job : Job) (file : FileRecord) (planned : Option String)
    (s : Logged σ) : FileResult → Logged σ → Prop
  | unreadable {fault : Fault} {t s' : Logged σ} : e.contentOf file s = (.error fault, t) →
      s'.state = t.state →
      Course e job file planned s
        (givenUp job file.path (some (file.content.getD "")) fault) s'
  | failed {content : Option String} {fault : Fault} {t u s' : Logged σ} :
      e.contentOf file s = (.ok content, t) →
      e.transformContent job file.path content planned t = (.error fault, u) →
      s'.state = u.state → Course e job file planned s (givenUp job file.path content fault) s'
  | concluded {content : Option String} {t s' : Logged σ} {r : FileResult} :
      e.contentOf file s = (.ok content, t) →
      e.transformContent job file.path content planned t = (.ok r, s') →
      Course e job file planned s r s'

/-- **There is always a result**, and it comes about in one of the three ways. -/
theorem transformFor_course (e : Engine σ) (job : Job) (file : FileRecord)
    (planned : Option String) (s : Logged σ) :
    ∃ r s', e.transformFor job file planned s = (.ok r, s') ∧
      Course e job file planned s r s' := by
  unfold transformFor
  rw [Run.bind_of_ok Run.attempt_eq]
  rcases hc : e.contentOf file s with ⟨fault | content, t⟩
  · obtain ⟨s', hg, hs⟩ := giveUp_ok job file.path (some (file.content.getD "")) fault t
    exact ⟨_, s', hg, .unreadable hc hs⟩
  · dsimp only
    rw [Run.bind_of_ok Run.attempt_eq]
    rcases ht : e.transformContent job file.path content planned t with ⟨fault | r, u⟩
    · obtain ⟨s', hg, hs⟩ := giveUp_ok job file.path content fault u
      exact ⟨_, s', hg, .failed hc ht hs⟩
    · exact ⟨r, u, rfl, .concluded hc ht⟩

/-- A run that answered took one of the three ways. -/
theorem course_of_transformFor {e : Engine σ} {job : Job} {file : FileRecord}
    {planned : Option String} {s s' : Logged σ} {r : FileResult}
    (h : e.transformFor job file planned s = (.ok r, s')) : Course e job file planned s r s' := by
  obtain ⟨r₁, s₁, h₁, course⟩ := e.transformFor_course job file planned s
  obtain ⟨rfl, rfl⟩ := Run.answer_unique h h₁
  exact course

/-! ### Nothing is lost -/

/-- A result that leaves a file as it is and that no one should trust. -/
structure Untouched (r : FileResult) : Prop where
  code : r.code = r.original
  newPath : r.newPath = r.path
  diff : r.diff = ""
  confidence : r.confidence = 0
  risk : r.metadata.risk = 100
  review : r.needsReview = true

theorem givenUp_untouched (job : Job) (path : String) (original : Option String) (fault : Fault) :
    Untouched (givenUp job path original fault) :=
  ⟨rfl, rfl, rfl, rfl, rfl, rfl⟩

namespace Course

variable {e : Engine σ} {job : Job} {file : FileRecord} {planned : Option String}
  {s s' : Logged σ} {r : FileResult}

/-- The result is about the file. -/
theorem path_eq (h : Course e job file planned s r s') : r.path = file.path := by
  cases h with
  | unreadable => rfl
  | failed => rfl
  | concluded _ ht =>
    obtain ⟨w, o, confidence, -, hpath, -, rfl⟩ := transformContent_result ht
    exact hpath

/-- A file without success is left as it is. -/
theorem untouched (h : Course e job file planned s r s') (hr : r.success = false) :
    Untouched r := by
  cases h with
  | unreadable => exact givenUp_untouched ..
  | failed => exact givenUp_untouched ..
  | concluded _ ht =>
    obtain ⟨w, o, confidence, -, -, -, rfl⟩ := transformContent_result ht
    cases hr

/-- The original is the content, if there was one. -/
theorem original_eq {content : Option String} {t : Logged σ}
    (h : Course e job file planned s r s') (hc : e.contentOf file s = (.ok content, t)) :
    r.original = content := by
  cases h with
  | unreadable hu => exact absurd hc (Run.error_ne_ok hu)
  | failed hf => exact (Run.answer_unique hf hc).1
  | concluded hk ht =>
    obtain ⟨rfl, -⟩ := Run.answer_unique hk hc
    obtain ⟨w, o, confidence, hcontent, -, -, rfl⟩ := transformContent_result ht
    exact hcontent.symm

end Course

/-- **Transforming a file never fails, and failures keep the original.**  Whatever the collaborators
do, there is a result; without success it leaves the file as it is, and a content that was obtained
is its original. -/
theorem transform_keeps_original (e : Engine σ) (file : FileRecord) (spec : Specification)
    (planned id : Option String) (s : Logged σ) :
    ∃ r s', e.transform file spec planned id s = (.ok r, s') ∧ r.path = file.path ∧
      (r.success = false → Untouched r) ∧
      ∀ content t, e.contentOf file s = (.ok content, t) → r.original = content := by
  obtain ⟨r, s', h, course⟩ := e.transformFor_course (e.jobOf spec id) file planned s
  exact ⟨r, s', h, course.path_eq, course.untouched, fun _ _ => course.original_eq⟩

/-! ### A plain engine -/

/-- An engine with the default settings. -/
def plain [Module.Salvage] : Engine Unit := .standard {} .builtIn

/-- A script that the default engine moves and does not change. -/
def smallScript : FileRecord := ⟨"a.js", some "f()\n"⟩

/-- A migration that no lane knows. -/
def laneless : Specification := { target := { framework := "Svelte" } }

end WebMigration.Engine
