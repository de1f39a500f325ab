import WebMigration.Proofs.Engine.Closed
import WebMigration.Proofs.Engine.File
import WebMigration.Proofs.Rewrite.Outcome
import Mathlib.Logic.Function.Iterate

/-!
# What is listed for a file

Recovering from a failed syntax pass may run the pass again, on the context that the failed one
left. So the rewrites that are listed for a file are those of all passes that ran over its original,
one after the other, whatever became of the code of each.
-/

namespace WebMigration.Engine

open Run (Kind)
open Rewrite (reading told renamed passRuns)

variable {σ : Type}

/-! ### Passes in a row -/

/-- Nothing but the syntax pass works on the context of a file. -/
theorem context_paired : Paired (fun _ _ => True) (Run.Keeps (Work.context : Work σ → _)) where
  outer := ⟨fun _ => trivial, fun _ => trivial, fun _ _ => trivial, fun _ => trivial,
    fun _ => trivial⟩
  inner := Run.keeps_closed _
  elsewhere _ _ := rfl
  begin _ _ := trivial
  context hf s := hf _ s

section Passes

variable [Module.Salvage]

/-- The context after a pass over some code. -/
def afterPass (lanes : LaneRegistry) (spec : Specification) (code : String)
    (context : FileContext) : FileContext :=
  (Rewrite.pass lanes code spec context).2

/-- One context comes from another by some passes over the code of a file: by none where the file is
no script, and by no second one where the first one answers. -/
structure PassesLead (lanes : LaneRegistry) (spec : Specification) (code : String) (script : Bool)
    (before after : FileContext) (passes : Nat) : Prop where
  after_eq : after = (afterPass lanes spec code)^[passes] before
  none_iff : passes = 0 ↔ script = false
  once : (Rewrite.pass lanes code spec before).1.isOk = true → passes ≤ 1

/-- What happens to the context of a file is a number of passes over some code. -/
def Passing (lanes : LaneRegistry) (spec : Specification) (code : String) : Kind (Work σ) :=
  Run.Moves fun w w' => ∃ n, w'.context = (afterPass lanes spec code)^[n] w.context

variable (lanes : LaneRegistry) (spec : Specification) (code : String)

theorem passing_closed : (Passing lanes spec code : Kind (Work σ)).Closed := by
  refine Run.moves_closed (fun _ => ⟨0, rfl⟩) ?_
  rintro w w' w'' ⟨n, hn⟩ ⟨m, hm⟩
  exact ⟨m + n, by rw [hm, hn, Function.iterate_add_apply]⟩

theorem syntaxPass_passing :
    Passing lanes spec code _ (syntaxPass lanes code spec : Run (Work σ) _) := fun _ => ⟨1, rfl⟩

variable (v : Services σ) (settings : Settings) (jobId : Option String) (context : FileContext)
  (s : Logged (Work σ))

theorem runSemantic_context :
    ((v.engine settings lanes).runSemantic code spec jobId context s).2.state.context =
      s.state.context :=
  runSemantic_closed context_paired
    ⟨fun _ _ => trivial, fun _ _ _ _ _ => trivial,
      Recovery.Manager.standard_given (Run.keeps_closed _) _⟩ code spec jobId context s

/-- The syntax pass runs once, and again only while recovering from its failure. -/
theorem runRewrite_context : ∃ passes, PassesLead lanes spec code true s.state.context
    ((v.engine settings lanes).runRewrite code spec jobId context s).2.state.context passes := by
  unfold runRewrite
  rw [Run.bind_of_ok Run.attempt_eq]
  have hpass : (v.engine settings lanes).rewrite code spec s =
      ((Rewrite.pass lanes code spec s.state.context).1.map some,
        ⟨⟨afterPass lanes spec code s.state.context, s.state.outside⟩, s.log⟩) := rfl
  rw [hpass]
  rcases hanswer : (Rewrite.pass lanes code spec s.state.context).1 with fault | result <;>
    dsimp only [Except.map]
  · have hclosed : (Passing lanes spec code : Kind (Work σ)).Closed :=
      passing_closed lanes spec code
    have hrest := fun r (h : Passing lanes spec code (Option Rewrite.PassResult) r) =>
      h ⟨⟨afterPass lanes spec code s.state.context, s.state.outside⟩, s.log⟩
    refine (hrest _ ?_).elim fun n hn => ⟨n + 1, hn, by simp, by simp [hanswer, Except.isOk,
      Except.toBool]⟩
    refine hclosed.bind (hclosed.warning _ _) fun _ => ?_
    refine hclosed.bind (Recovery.Manager.recover_closed hclosed
      (Recovery.Manager.standard_given hclosed _) (syntaxPass_passing lanes spec code) _ _)
      fun outcome => ?_
    split
    · exact hclosed.bind (hclosed.event _ _) fun _ => hclosed.pure _
    · exact hclosed.pure _
  · exact ⟨1, rfl, by simp, fun _ => Nat.le_refl 1⟩

theorem rewriteScript_context : ∃ passes,
    PassesLead lanes spec code (Structure.isScript context.path) s.state.context
      ((v.engine settings lanes).rewriteScript code spec jobId context s).2.state.context
      passes := by
  unfold rewriteScript
  cases Structure.isScript context.path with
  | false => exact ⟨0, rfl, iff_of_true rfl rfl, fun _ => Nat.zero_le 1⟩
  | true =>
    obtain ⟨passes, hlead⟩ := runRewrite_context lanes spec code v settings jobId context s
    refine ⟨passes, ?_⟩
    rw [if_pos rfl]
    rcases hrun : (v.engine settings lanes).runRewrite code spec jobId context s with
      ⟨fault | result, t⟩ <;> rw [hrun] at hlead
    · rw [Run.bind_of_error hrun]
      exact hlead
    · rw [Run.bind_of_ok hrun]
      cases result <;> exact hlead

variable {lanes spec code v settings jobId context s}

/-- Both passes over a file leave the context that the syntax pass left. -/
theorem runPasses_context {passed : Passed} {s' : Logged (Work σ)}
    (h : (v.engine settings lanes).runPasses code spec jobId context s = (.ok passed, s')) :
    ∃ passes, PassesLead lanes spec code (Structure.isScript context.path) s.state.context
      s'.state.context passes := by
  obtain ⟨passes, hlead⟩ := rewriteScript_context lanes spec code v settings jobId context s
  refine ⟨passes, ?_⟩
  unfold runPasses at h
  obtain ⟨rewritten, t, hrewrite, h⟩ := Run.bind_ok.1 h
  rw [hrewrite] at hlead
  rw [Run.bind_of_ok Run.state_eq] at h
  obtain ⟨answer, u, hsemantic, h⟩ := Run.bind_ok.1 h
  obtain ⟨semantic, w, hdemand, h⟩ := Run.bind_ok.1 h
  obtain ⟨-, rfl⟩ := Run.demand_ok.1 hdemand
  obtain ⟨-, rfl⟩ := Run.pure_ok.1 h
  have hkept := runSemantic_context lanes spec rewritten.code v settings jobId t.state.context t
  rw [hsemantic] at hkept
  rw [hkept]
  exact hlead

/-! ### Files -/

/-- The context of a file whose content was transformed comes from that of its original. -/
theorem transformContent_context {job : Job} {path : String} {content planned : Option String}
    {s s' : Logged σ} {r : FileResult}
    (h : (v.engine settings lanes).transformContent job path content planned s = (.ok r, s')) :
    r.success = true ∧ ∃ original after passes, r.original = some original ∧
      PassesLead lanes job.spec original (Structure.isScript path)
        (Module.contextOf path original (some job.spec.source.language)) after passes ∧
      r.metadata.transformations = Rewrite.importChanges after ++ after.relatedFiles := by
  obtain ⟨w, t, u, -, -, -, -, hpasses, -, hconclude⟩ := transformContent_ok h
  obtain ⟨o, confidence, -, -, -, rfl⟩ := conclude_ok hconclude
  unfold passesOver at hpasses
  rw [Work.begin_ok, Run.bind_of_ok Run.state_eq] at hpasses
  obtain ⟨passes, hlead⟩ := runPasses_context hpasses
  dsimp only at hlead
  rw [Module.contextOf_path] at hlead
  exact ⟨rfl, w.original, w.context, passes, rfl, hlead, rfl⟩

/-- **What is listed of a pass.**  A pass leaves its lines in the audit trail whatever becomes of
its code, so it keeps the trail only if the code cannot be read or there was nothing to tell; and
for a file the lines of all passes over its original are listed, those of failed ones included. -/
theorem rewrites_listed (lanes : LaneRegistry) (spec : Specification) :
    (∀ code context,
      (Rewrite.pass lanes code spec context).2 =
        (if (reading spec context.path code).hasError then context
          else told lanes code spec context) ∧
      ((Rewrite.pass lanes code spec context).2.imports = context.imports ∧
          (Rewrite.pass lanes code spec context).2.relatedFiles = context.relatedFiles ↔
        (reading spec context.path code).hasError = true ∨
          renamed lanes spec context.path code = [] ∧
            ∀ run ∈ passRuns lanes code spec context, run.answer.notes = [])) ∧
    ∀ (σ : Type) (v : Services σ) (settings : Settings) (file : FileRecord)
      (planned jobId : Option String) (s s' : Logged σ) (r : FileResult),
      (v.engine settings lanes).transform file spec planned jobId s = (.ok r, s') →
      (r.success = false → r.metadata.transformations = []) ∧
      (r.success = true → ∃ original after passes, r.original = some original ∧
        PassesLead lanes spec original (Structure.isScript file.path)
          (Module.contextOf file.path original (some spec.source.language)) after passes ∧
        r.metadata.transformations = Rewrite.importChanges after ++ after.relatedFiles) := by
  constructor
  · intro code context
    exact ⟨Rewrite.pass_trail lanes code spec context,
      Rewrite.trail_kept_iff lanes code spec context⟩
  · intro σ v settings file planned jobId s s' r h
    cases course_of_transformFor h with
    | unreadable => exact ⟨fun _ => rfl, nofun⟩
    | failed => exact ⟨fun _ => rfl, nofun⟩
    | concluded _ hcontent =>
      obtain ⟨hsuccess, hlisted⟩ := transformContent_context hcontent
      exact ⟨fun hfailed => absurd (hsuccess.symm.trans hfailed) nofun, fun _ => hlisted⟩

end Passes

/-- No services but the usual plan. -/
def alone : Services Unit where
  plan files spec := pure (Structure.plan .builtIn files.texts spec)

section

attribute [local instance] Rewrite.completing

/-- What is listed for a script whose second import is removed, so that it cannot be read, before a
function in what is left of it is renamed. -/
theorem rewrites_listed_guardedImport : ∃ r s',
    (alone.engine {} .builtIn).transform ⟨"x.js", some Rewrite.guardedImport⟩ Rewrite.calling none
      none ⟨(), []⟩ = (.ok r, s') ∧
    r.success = true ∧ r.metadata.transformations = ["Renamed foo to bar"] ∧
    ∃ original after passes, r.original = some original ∧
      PassesLead .builtIn Rewrite.calling original (Structure.isScript "x.js")
        (Module.contextOf "x.js" original (some Rewrite.calling.source.language)) after passes ∧
      r.metadata.transformations = Rewrite.importChanges after ++ after.relatedFiles := by
  have answers : (((alone.engine {} .builtIn).transform ⟨"x.js", some Rewrite.guardedImport⟩
      Rewrite.calling none none ⟨(), []⟩).1.toOption.any fun r => r.success &&
        r.metadata.transformations == ["Renamed foo to bar"]) = true := by decide +kernel
  obtain ⟨r, s', hr, htest⟩ := Run.ok_of_any answers
  simp only [Bool.and_eq_true, beq_iff_eq] at htest
  have hlisted := (rewrites_listed .builtIn Rewrite.calling).2 _ alone {} _ none none _ _ r hr
  exact ⟨r, s', hr, htest.1, htest.2, hlisted.2 htest.1⟩

end

section

attribute [local instance] Module.Salvage.stopping

/-- A migration that gives a module a name that no string literal can hold. -/
def unquotable : Specification := { mappings := { imports := [("lodash", "lo\"dash")] } }

/-- A script with the module that is renamed. -/
def quotedImport : FileRecord := ⟨"x.js", some "import x from \"lodash\";\n"⟩

/-- A pass whose code is dropped tells of the module that it renamed all the same, and so does the
list of the file, which keeps its code. -/
theorem trail_of_dropped_code :
    (Rewrite.pass .builtIn "import x from \"lodash\";\n" unquotable
        Rewrite.untouched).1.toOption.map (fun r => (r.code, r.errors.length)) =
      some ("import x from \"lodash\";\n", 1) ∧
    Rewrite.untouched.imports = [] ∧
    (Rewrite.pass .builtIn "import x from \"lodash\";\n" unquotable
        Rewrite.untouched).2.imports = ["lodash -> lo\"dash"] ∧
    ((alone.engine {} .builtIn).transform quotedImport unquotable none none
        ⟨(), []⟩).1.toOption.map (fun r => (r.code, r.metadata.transformations)) =
      some (quotedImport.content, ["lodash -> lo\"dash"]) :=
  ⟨by decide +kernel, rfl, by decide +kernel, by decide +kernel⟩

end

end WebMigration.Engine
