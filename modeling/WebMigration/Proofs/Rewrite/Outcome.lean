import WebMigration.Proofs.Rewrite.Stability
import WebMigration.Proofs.Rewrite.Careful

/-!
# What a pass tells and how it ends

The rules that run in a pass, each with what it looked at.  A pass adds to the audit trail a line
for every module that it renames and the notes of every rule that runs, and takes none of them back,
whether the rewritten code is returned or dropped.

Rules that fail or edit between characters never lead a pass astray: it fails with the failure of a
rule, or it returns code that can be read, or it returns the code that it was given with one reason.
No step between ever cuts a character, so nothing half rewritten gets out.
-/

namespace WebMigration.Rewrite

open Syntax
open WebMigration.Module (Salvage Salvaged Source Reference)

/-! ### Rules that run -/

/-- A rule that ran, with what it looked at. -/
structure RuleRun where
  rule : RewriteRule
  view : RuleView

namespace RuleRun

/-- What the rule answered with. -/
def answer (r : RuleRun) : Rewriting := r.rule.rewrite r.view

end RuleRun

/-- The rules that run on some code, in order, up to the first one that fails. -/
def ruleRuns [Salvage] (spec : Specification) : List RewriteRule → String → FileContext → List RuleRun
  | [], _, _ => []
  | rule :: rest, code, context =>
      ⟨rule, reading spec context.path code, spec, context⟩ ::
        match applyRule rule spec code context with
        | (.ok code', context') => ruleRuns spec rest code' context'
        | (.error _, _) => []

section Passes

variable [Salvage] {lanes : LaneRegistry} {spec : Specification} {code : String}
  {context : FileContext}

/-- Rules leave the notes of all of them that run. -/
theorem applyRules_trail (spec : Specification) (rules : List RewriteRule) (code : String)
    (context : FileContext) : (applyRules spec rules code context).2 =
      context.note ((ruleRuns spec rules code context).flatMap (·.answer.notes)) := by
  induction rules generalizing code context with
  | nil => simp [applyRules, ruleRuns, FileContext.note]
  | cons rule rest ih =>
    have hrule := applyRule_context rule spec code context
    rw [applyRules, ruleRuns]
    rcases happly : applyRule rule spec code context with ⟨fault | code', context'⟩ <;>
      rw [happly] at hrule <;> dsimp only at hrule ⊢
    · rw [hrule, List.flatMap_singleton]
      rfl
    · rw [ih, hrule, List.flatMap_cons]
      simp [FileContext.note, RuleRun.answer]

/-! ### Passes -/

/-- The modules that a pass over some code renames, each with its new name and its line. -/
def renamed (lanes : LaneRegistry) (spec : Specification) (path code : String) :
    List (Reference × String × String) :=
  renamings (reading spec path code) spec.mappings.imports
    (lanes.profile spec.target.framework).pathAliases path

/-- The rules that run in a pass over some code that can be read. -/
def passRuns (lanes : LaneRegistry) (code : String) (spec : Specification)
    (context : FileContext) : List RuleRun :=
  match renameModules (reading spec context.path code) spec.mappings.imports
      (lanes.profile spec.target.framework).pathAliases context with
  | (.error _, _) => []
  | (.ok renamed, context') =>
      match withoutRepeatedImports (reading spec context.path renamed) with
      | .error _ => []
      | .ok thinned => ruleRuns spec (rulesOf lanes spec) thinned context'

/-- The context with a line for each renamed module and the notes of all rules that ran. -/
def told (lanes : LaneRegistry) (code : String) (spec : Specification) (context : FileContext) :
    FileContext :=
  { context with
    imports := context.imports ++ (renamed lanes spec context.path code).map (·.2.2)
    relatedFiles := context.relatedFiles ++
      (passRuns lanes code spec context).flatMap (·.answer.notes) }

theorem rewriteAll_trail : (rewriteAll lanes (reading spec context.path code) spec context).2 =
    told lanes code spec context := by
  have hcontext := @renameModules_context (reading spec context.path code) spec.mappings.imports
    (lanes.profile spec.target.framework).pathAliases context
  unfold rewriteAll told passRuns renamed
  rcases hrename : renameModules (reading spec context.path code) spec.mappings.imports
    (lanes.profile spec.target.framework).pathAliases context with ⟨fault | text, context'⟩ <;>
    rw [hrename] at hcontext <;> dsimp only at hcontext ⊢
  · rw [hcontext, List.flatMap_nil, List.append_nil]
  · rw [← reading]
    rcases withoutRepeatedImports (reading spec context.path text) with fault | thinned <;>
      dsimp only
    · rw [hcontext, List.flatMap_nil, List.append_nil]
    · rw [applyRules_trail, hcontext]
      rfl

/-- What a pass leaves behind does not depend on what becomes of the code. -/
theorem pass_trail (lanes : LaneRegistry) (code : String) (spec : Specification)
    (context : FileContext) : (pass lanes code spec context).2 =
      if (reading spec context.path code).hasError then context
      else told lanes code spec context := by
  rw [← rewriteAll_trail]
  unfold pass
  dsimp only
  rw [← reading]
  split
  · rfl
  · rcases rewriteAll lanes (reading spec context.path code) spec context with
      ⟨fault | rewritten, context'⟩ <;> rfl

/-- A pass leaves the audit trail as it was exactly when the code cannot be read, or no module got a
new name and no rule that ran had a note. -/
theorem trail_kept_iff (lanes : LaneRegistry) (code : String) (spec : Specification)
    (context : FileContext) :
    (pass lanes code spec context).2.imports = context.imports ∧
        (pass lanes code spec context).2.relatedFiles = context.relatedFiles ↔
      (reading spec context.path code).hasError = true ∨
        renamed lanes spec context.path code = [] ∧
          ∀ run ∈ passRuns lanes code spec context, run.answer.notes = [] := by
  rw [pass_trail]
  by_cases h : (reading spec context.path code).hasError
  · rw [if_pos h]
    exact iff_of_true ⟨rfl, rfl⟩ (.inl h)
  · rw [if_neg h]
    simp [told, h]

/-! ### The steps -/

/-- Renaming the modules of a code that can be read gives a text. -/
theorem renameModules_ok {path : String} (h : (reading spec path code).hasError = false)
    (mappings aliases : Table String) (context : FileContext) :
    ∃ text, (renameModules (reading spec path code) mappings aliases context).1 = .ok text := by
  unfold renameModules
  dsimp only
  split
  · exact ⟨_, rfl⟩
  · rw [reading_content, ← Text.encode_eq]
    exact Edit.apply_ok (renamings_fit (reading_references_fit h))

/-- Removing repeated imports gives a text, whether the code can be read or not. -/
theorem withoutRepeatedImports_ok (hsalvage : Salvage.AtCuts) (spec : Specification)
    (path code : String) : ∃ text, withoutRepeatedImports (reading spec path code) = .ok text := by
  unfold withoutRepeatedImports
  dsimp only
  split
  · exact ⟨_, rfl⟩
  · have hspans : ∀ r ∈ (reading spec path code).references.filter (·.kind == .static),
        r.span.AtCuts code.toList :=
      fun r hr => reading_references_atCuts hsalvage r (List.mem_filter.1 hr).1
    have hfit := removals_fit hspans reading_content
    rw [reading_content, ← Text.encode_eq]
    exact Edit.apply_ok hfit

/-- A careful rule fails by itself or gives a text. -/
theorem applyRule_outcome {rule : RewriteRule} (hc : Careful spec context.path rule)
    (code : String) :
    (∃ fault, (rule.rewrite ⟨reading spec context.path code, spec, context⟩).edits = .error fault ∧
        (applyRule rule spec code context).1 = .error (ruleFailure rule context.path fault)) ∨
      ∃ text, (applyRule rule spec code context).1 = .ok text := by
  unfold applyRule
  dsimp only
  rw [← reading]
  rcases hanswer : (rule.rewrite ⟨reading spec context.path code, spec, context⟩).edits with
    fault | edits
  · exact .inl ⟨fault, rfl, rfl⟩
  · have hfits := hc code context edits rfl hanswer
    rcases edits with _ | ⟨e, rest⟩
    · exact .inr ⟨code, rfl⟩
    · dsimp only
      rw [reading_content, ← Text.encode_eq]
      exact .inr (Edit.apply_ok hfits)

/-- Careful rules give a text unless one of those that run fails. -/
theorem applyRules_outcome {rules : List RewriteRule}
    (hc : ∀ rule ∈ rules, Careful spec context.path rule) (code : String) :
    (∃ run ∈ ruleRuns spec rules code context, ∃ fault, run.answer.edits = .error fault ∧
        (applyRules spec rules code context).1 =
          .error (ruleFailure run.rule context.path fault)) ∨
      ∃ text, (applyRules spec rules code context).1 = .ok text := by
  induction rules generalizing code context with
  | nil => exact .inr ⟨code, rfl⟩
  | cons rule rest ih =>
    obtain ⟨hrule, hrest⟩ := List.forall_mem_cons.1 hc
    have hcontext := applyRule_context rule spec code context
    rw [applyRules, ruleRuns]
    rcases applyRule_outcome hrule code with ⟨fault, hfault, happly⟩ | ⟨text, happly⟩ <;>
      rcases hresult : applyRule rule spec code context with ⟨answer, after⟩ <;>
      rw [hresult] at happly hcontext <;> dsimp only at happly hcontext <;>
      subst happly hcontext <;> dsimp only
    · exact .inl ⟨_, List.mem_cons_self, fault, hfault, rfl⟩
    · rcases @ih (context.note _) hrest text with ⟨run, hrun, hfails⟩ | hok
      · exact .inl ⟨run, List.mem_cons_of_mem _ hrun, hfails⟩
      · exact .inr hok

theorem rulesOf_careful (hsalvage : Salvage.AtCuts) {path : String}
    (h : ∀ rule ∈ lanes.rulesFor spec.source.framework spec.target.framework,
      Careful spec path rule) : ∀ rule ∈ rulesOf lanes spec, Careful spec path rule := by
  intro rule hrule
  rcases List.mem_append.1 hrule with hlane | hmapping
  · rcases List.mem_append.1 hlane with hlane | hlane
    · exact h rule (List.mem_filter.1 hlane).1
    · exact h rule (List.mem_filter.1 hlane).1
  · exact mappingRules_careful hsalvage hmapping

/-- All steps together, from a code that can be read, give a text unless one of the rules that run
fails. -/
theorem rewriteAll_outcome (hsalvage : Salvage.AtCuts)
    (hread : (reading spec context.path code).hasError = false)
    (h : ∀ rule ∈ lanes.rulesFor spec.source.framework spec.target.framework,
      Careful spec context.path rule) :
    (∃ run ∈ passRuns lanes code spec context, ∃ fault, run.answer.edits = .error fault ∧
        (rewriteAll lanes (reading spec context.path code) spec context).1 =
          .error (ruleFailure run.rule context.path fault)) ∨
      ∃ text, (rewriteAll lanes (reading spec context.path code) spec context).1 = .ok text := by
  obtain ⟨renamed, hrenamed⟩ := renameModules_ok hread spec.mappings.imports
    (lanes.profile spec.target.framework).pathAliases context
  have hcontext := @renameModules_context (reading spec context.path code) spec.mappings.imports
    (lanes.profile spec.target.framework).pathAliases context
  obtain ⟨thinned, hthinned⟩ := withoutRepeatedImports_ok hsalvage spec context.path renamed
  unfold rewriteAll passRuns
  rcases hresult : renameModules (reading spec context.path code) spec.mappings.imports
    (lanes.profile spec.target.framework).pathAliases context with ⟨answer, after⟩
  rw [hresult] at hrenamed hcontext
  dsimp only at hrenamed hcontext
  subst hrenamed hcontext
  dsimp only
  rw [← reading, hthinned]
  dsimp only
  refine applyRules_outcome ?_ thinned
  exact rulesOf_careful hsalvage h

/-! ### The pass -/

/-- The ways in which a pass over a file may end. -/
inductive PassEnd (lanes : LaneRegistry) (code : String) (spec : Specification)
    (context : FileContext) : Except Fault PassResult → Prop
  /-- A rule that ran failed with a cause that the migration knows, and so does the pass. -/
  | failed {run : RuleRun} {cause : Failure} : run ∈ passRuns lanes code spec context →
      run.answer.edits = .error (.failure cause) →
      PassEnd lanes code spec context (.error (.failure cause))
  /-- A rule that ran failed with another error, which the failure of the pass wraps. -/
  | wrapped {run : RuleRun} {kind : FaultKind} {text : String} {problems : List Problem} :
      run ∈ passRuns lanes code spec context →
      run.answer.edits = .error (.foreign kind text problems) →
      PassEnd lanes code spec context (.error (.failure (.transformation
        ("Rewrite rule '" ++ run.rule.name ++ "' failed: " ++
          (Fault.foreign kind text problems).message) (some context.path) none none [])))
  /-- There is new code, and it can be read. -/
  | rewritten {text : String} : (reading spec context.path text).hasError = false →
      PassEnd lanes code spec context (.ok ⟨text, []⟩)
  /-- The code is kept, for one reason. -/
  | kept {reason : String} : PassEnd lanes code spec context (.ok ⟨code, [reason]⟩)

theorem accept_end (rewritten : String) :
    PassEnd lanes code spec context (.ok (accept spec context.path code rewritten)) := by
  unfold accept
  dsimp only
  rw [← reading]
  by_cases h : (reading spec context.path rewritten).hasError
  · rw [if_pos h]
    exact .kept
  · rw [if_neg h]
    exact .rewritten (by simpa using h)

/-- **How a pass ends.**  Where the rules of the lane fail or edit at cuts, and what is left of texts
that do not parse lies at cuts as well, a pass fails with the failure of a rule or with one that wraps the
error of a rule, or it returns code that can be read, or it returns its code unchanged with one reason. -/
theorem pass_end (hsalvage : Salvage.AtCuts) (lanes : LaneRegistry) (code : String)
    (spec : Specification) (context : FileContext)
    (h : ∀ rule ∈ lanes.rulesFor spec.source.framework spec.target.framework,
      Careful spec context.path rule) :
    PassEnd lanes code spec context (pass lanes code spec context).1 := by
  unfold pass
  dsimp only
  rw [← reading]
  by_cases herror : (reading spec context.path code).hasError
  · rw [if_pos herror]
    exact .kept
  · have houtcome := rewriteAll_outcome hsalvage (by simpa using herror) h
    rw [if_neg herror]
    rcases hresult : rewriteAll lanes (reading spec context.path code) spec context with
      ⟨answer, after⟩
    rw [hresult] at houtcome
    dsimp only at houtcome
    rcases houtcome with ⟨run, hrun, fault, hfault, rfl⟩ | ⟨text, rfl⟩
    · cases fault with
      | failure cause => exact .failed hrun hfault
      | foreign kind text problems => exact .wrapped hrun hfault
    · exact accept_end text

end Passes

/-! ### A statement that is cut short -/

/-- A migration that renames a function. -/
def calling : Specification := { mappings := { routing := [("foo", "bar")] } }

/-- A script that repeats an import where a statement has to stand. -/
def guardedImport : String := "/* é */ import \"a\";\nfoo();\nif (1) import \"a\";\n"

/-- What is left of the script without its second import, with some name for the function. -/
def cutShort (name : String) : String := "/* é */ import \"a\";\n" ++ name ++ "();\nif (1) "

/-- The tree of a script that is cut short, whose last statement is missing. -/
def cutShortTree : Node :=
  ⟨.program, none, 0, 35, [.leaf .comment 0 8,
    ⟨.importStatement, none, 9, 20, [.leaf (.token "import") 9 15, (Node.leaf .string 16 19).as .source,
      .leaf (.token ";") 19 20]⟩,
    ⟨.expressionStatement, none, 21, 27, [
      ⟨.callExpression, none, 21, 26, [(Node.leaf .identifier 21 24).as .function,
        ⟨.arguments, some .arguments, 24, 26, [.leaf (.token "(") 24 25, .leaf (.token ")") 25 26]⟩]⟩,
      .leaf (.token ";") 26 27]⟩,
    ⟨.ifStatement, none, 28, 34, [.leaf (.token "if") 28 30,
      ⟨.parenthesizedExpression, some .condition, 31, 34, [.leaf (.token "(") 31 32,
        .leaf .number 32 33, .leaf (.token ")") 33 34]⟩,
      ⟨.emptyStatement, some .consequence, 34, 34, [.leaf (.token ";") 34 34]⟩]⟩]⟩

/-- Takes a statement to be missing where a script is cut short. -/
abbrev completing : Salvage where
  left dialect text :=
    if text = (cutShort "foo").toList ∨ text = (cutShort "bar").toList then
      ⟨cutShortTree, fun n => n.kind == .token ";" && n.start == n.stop⟩
    else Salvage.stopping.left dialect text

theorem completing_atCuts : @Salvage.AtCuts completing := by
  intro dialect text
  by_cases h : text = (cutShort "foo").toList ∨ text = (cutShort "bar").toList
  · have hroot : (completing.left dialect text).root = cutShortTree :=
      congrArg Salvaged.root (if_pos h)
    rw [hroot]
    rcases h with rfl | rfl <;> decide +kernel
  · have hroot : (completing.left dialect text).root = (Salvage.stopping.left dialect text).root :=
      congrArg Salvaged.root (if_neg h)
    rw [hroot]
    exact Salvage.stopping_atCuts dialect text

section

attribute [local instance] completing

/-- The pass removes the second import and renames the function in what is left, which cannot be read; so
it keeps the script. -/
theorem pass_end_guardedImport :
    Salvage.AtCuts ∧
    (∀ rule ∈ LaneRegistry.builtIn.rulesFor calling.source.framework calling.target.framework,
      Careful calling untouched.path rule) ∧
    PassEnd .builtIn guardedImport calling untouched
      (pass .builtIn guardedImport calling untouched).1 ∧
    (pass .builtIn guardedImport calling untouched).1.toOption.map
      (fun r => (r.code, r.errors.length)) = some (guardedImport, 1) := by
  have hcareful : ∀ rule ∈
      LaneRegistry.builtIn.rulesFor calling.source.framework calling.target.framework,
      Careful calling untouched.path rule := fun _ hrule => builtIn_careful completing_atCuts hrule
  exact ⟨completing_atCuts, hcareful, pass_end completing_atCuts _ _ _ _ hcareful,
    by decide +kernel⟩

end

end WebMigration.Rewrite
