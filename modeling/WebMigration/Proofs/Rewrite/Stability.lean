import WebMigration.Proofs.Lane.AppRouter
import WebMigration.Proofs.Module.Source
import WebMigration.Rewrite.Pass

/-!
# Passing over a file twice

A second pass over the output of a first one should leave it alone.  It does so without a word
exactly when the output is settled: no module of it is renamed, no import repeats another one and no
rule has an edit.  Otherwise the second pass returns its input only if its rewrites undo each other
or are rejected.
-/

namespace WebMigration.Rewrite

open Syntax
open WebMigration.Module (Salvage Source)
open WebMigration.Lane.AppRouter (handWork)

/-! ### Reading a file -/

/-- A code as the pass over a file reads it. -/
def reading [Salvage] (spec : Specification) (path code : String) : Source :=
  Source.parse code path (some spec.source.language)

/-- The bytes of a text stand for the text. -/
theorem between_all (s : String) : Text.between s.toUTF8 0 s.toUTF8.size = s := by
  unfold Text.between
  rw [ByteArray.extract_zero_size]
  simp only [String.toUTF8_eq_toByteArray, String.fromUTF8?]
  rw [dif_pos s.isValidUTF8]
  rfl

@[simp] theorem reading_text [Salvage] (spec : Specification) (path code : String) :
    (reading spec path code).text = code := by
  rw [Source.text, reading, Source.parse_content]
  exact between_all code

/-! ### The audit trail -/

/-- Nothing is told between two contexts but what has to be done by hand. -/
def Quiet (before after : FileContext) : Prop :=
  after.imports = before.imports ∧
    ∃ lines, after.relatedFiles = before.relatedFiles ++ lines ∧ ∀ line ∈ lines, line = handWork

/-- Notes about work by hand, and a quiet rest, are quiet together. -/
theorem Quiet.note {context after : FileContext} {notes : List String}
    (hnotes : ∀ line ∈ notes, line = handWork) (h : Quiet (context.note notes) after) :
    Quiet context after := by
  obtain ⟨himports, lines, hlines, hwork⟩ := h
  refine ⟨himports, notes ++ lines, hlines.trans (List.append_assoc ..), fun line hline => ?_⟩
  rcases List.mem_append.1 hline with hline | hline
  · exact hnotes line hline
  · exact hwork line hline

/-- A quiet end has only notes about work by hand on the way. -/
theorem Quiet.split {context : FileContext} {notes more : List String}
    (h : Quiet context ((context.note notes).note more)) :
    (∀ line ∈ notes, line = handWork) ∧
      Quiet (context.note notes) ((context.note notes).note more) := by
  obtain ⟨-, lines, hlines, hwork⟩ := h
  have hsplit : notes ++ more = lines := by
    refine List.append_cancel_left (Eq.trans ?_ hlines)
    exact (List.append_assoc ..).symm
  subst hsplit
  exact ⟨fun line hline => hwork line (List.mem_append_left _ hline), rfl, more, rfl,
    fun line hline => hwork line (List.mem_append_right _ hline)⟩

/-- A rule that looks at nothing but the file and the specification, never fails, and tells of its
edits. -/
structure Candid (rule : RewriteRule) : Prop where
  looks : ∀ v w : RuleView, v.source = w.source → v.spec = w.spec → rule.rewrite v = rule.rewrite w
  answers : ∀ v, ∃ edits, (rule.rewrite v).edits = .ok edits
  silent : ∀ v, (rule.rewrite v).edits = .ok [] → ∀ note ∈ (rule.rewrite v).notes, note = handWork
  tells : ∀ v, (rule.rewrite v).edits ≠ .ok [] → ∃ note ∈ (rule.rewrite v).notes, note ≠ handWork

/-- A rule that looks at nothing but the file is candid if it has notes exactly when it has edits, none of
them about work by hand. -/
theorem candid_of_notes {rule : RewriteRule} (edits : Source → List Edit) (notes : Source → List String)
    (hrule : ∀ v, rule.rewrite v = .of (notes v.source) (edits v.source))
    (hnil : ∀ s, notes s = [] ↔ edits s = []) (hnotes : ∀ s, ∀ note ∈ notes s, note ≠ handWork) :
    Candid rule where
  looks v w hs _ := by rw [hrule, hrule, hs]
  answers v := ⟨edits v.source, by rw [hrule]; rfl⟩
  silent v h := by
    rw [hrule] at h ⊢
    have hnone : notes v.source = [] := (hnil _).2 (Except.ok.inj h)
    simp [Rewriting.of, hnone]
  tells v h := by
    rw [hrule] at h ⊢
    have hsome : notes v.source ≠ [] := fun hnone => h (by rw [(hnil _).1 hnone]; rfl)
    obtain ⟨note, hmem⟩ := List.exists_mem_of_ne_nil _ hsome
    exact ⟨note, hmem, hnotes _ note hmem⟩

/-- A rule with one note about all of its edits is candid. -/
theorem candid_noteOf {rule : RewriteRule} (edits : Source → List Edit) {note : String}
    (hrule : ∀ v, rule.rewrite v = .of (noteOf (edits v.source) note) (edits v.source))
    (hnote : note ≠ handWork) : Candid rule := by
  refine candid_of_notes edits (fun s => noteOf (edits s) note) hrule (fun s => by simp [noteOf]) ?_
  intro s note' hmem
  unfold noteOf at hmem
  split at hmem
  · cases hmem
  · exact List.mem_singleton.1 hmem ▸ hnote

/-- A rule with one note for each of some items is candid if it has edits exactly when there are
items. -/
theorem candid_map {α : Type} {rule : RewriteRule} (edits : Source → List Edit)
    {items : Source → List α} {note : String}
    (hrule : ∀ v, rule.rewrite v = .of ((items v.source).map fun _ => note) (edits v.source))
    (hitems : ∀ s, items s = [] ↔ edits s = []) (hnote : note ≠ handWork) : Candid rule := by
  refine candid_of_notes edits (fun s => (items s).map fun _ => note) hrule
    (fun s => List.map_eq_nil_iff.trans (hitems s)) fun s note' hmem => ?_
  obtain ⟨-, -, rfl⟩ := List.mem_map.1 hmem
  exact hnote

/-! ### The rules in use -/

theorem handWork_head : handWork.toList.head? = some 'N' := rfl

/-- A text that starts otherwise is not the note about work by hand. -/
theorem ne_handWork {note : String} (h : note.toList.head? ≠ some 'N') : note ≠ handWork := by
  rintro rfl
  exact h handWork_head

theorem anchorRule_candid : Candid Lane.AppRouter.anchorRule :=
  candid_noteOf Lane.AppRouter.anchorEdits (fun _ => rfl) (ne_handWork (by simp))

theorem addressRule_candid : Candid Lane.AppRouter.addressRule :=
  candid_map Lane.AppRouter.addressEdits (fun _ => rfl) (fun _ => Iff.rfl)
    (ne_handWork (by simp))

/-- The rule about work by hand never edits. -/
theorem navigateRule_candid : Candid Lane.AppRouter.navigateRule where
  looks v w hs _ := by
    unfold Lane.AppRouter.navigateRule
    dsimp only
    rw [hs]
  answers v := ⟨[], rfl⟩
  silent v _ note hnote := by
    obtain ⟨-, -, rfl⟩ := List.mem_map.1 hnote
    rfl
  tells v h := absurd rfl h

/-- The old hook is renamed where it is called, or nowhere. -/
theorem hookCallEdits_eq_nil (s : Source) :
    Lane.AppRouter.hookCallEdits s = [] ↔ Lane.AppRouter.hookEdits s = [] := by
  unfold Lane.AppRouter.hookEdits
  dsimp only
  split
  · exact Iff.rfl
  · rename_i h
    simp only [List.isEmpty_iff, Bool.or_eq_true, not_or] at h
    simp [h.1]

theorem hookRule_candid : Candid Lane.AppRouter.hookRule :=
  candid_map Lane.AppRouter.hookEdits (fun _ => rfl) hookCallEdits_eq_nil
    (ne_handWork (by simp))

theorem renameRule_candid (old new : String) : Candid (renameRule old new) :=
  candid_noteOf (fun s => renameEdits s old new) (fun _ => rfl) (ne_handWork (by simp))

theorem renameTagRule_candid (old new : String) : Candid (renameTagRule old new) :=
  candid_noteOf (fun s => renameTagEdits s old new) (fun _ => rfl) (ne_handWork (by simp))

/-- A rule made from a table is made from an entry of it. -/
theorem mem_tableRules {isName : String → Bool} {make : String → String → RewriteRule}
    {table : Table String} {rule : RewriteRule} (h : rule ∈ tableRules isName make table) :
    ∃ old new, rule = make old new := by
  obtain ⟨⟨old, new⟩, -, hsome⟩ := List.mem_filterMap.1 h
  dsimp only at hsome
  split at hsome
  · exact ⟨old, new, (Option.some.inj hsome).symm⟩
  · cases hsome

theorem mappingRules_candid {spec : Specification} {rule : RewriteRule}
    (h : rule ∈ mappingRules spec) : Candid rule := by
  rcases List.mem_append.1 h with h | h
  · obtain ⟨old, new, rfl⟩ := mem_tableRules h
    exact renameRule_candid old new
  · obtain ⟨old, new, rfl⟩ := mem_tableRules h
    exact renameTagRule_candid old new

theorem mem_rulesFor_builtIn {source target : String} {rule : RewriteRule}
    (h : rule ∈ LaneRegistry.builtIn.rulesFor source target) : rule ∈ Lane.AppRouter.rules := by
  unfold LaneRegistry.rulesFor LaneRegistry.detect? at h
  rw [Lane.AppRouter.lanes_builtIn] at h
  simp only [List.map_cons, List.map_nil, List.foldl_cons, List.foldl_nil] at h
  unfold LaneRegistry.better at h
  split at h
  · rename_i lane hlane
    split at hlane
    · cases hlane
    · split at hlane
      · split at hlane
        · obtain rfl := Option.some.inj hlane
          exact h
        · cases hlane
      · cases hlane
  · cases h

/-- All rules that are built in or made from a specification are candid. -/
theorem rulesOf_candid {spec : Specification} {rule : RewriteRule}
    (h : rule ∈ rulesOf .builtIn spec) : Candid rule := by
  rcases List.mem_append.1 h with h | h
  · have hlane : rule ∈ Lane.AppRouter.rules := by
      rcases List.mem_append.1 h with h | h
      · exact mem_rulesFor_builtIn (List.mem_filter.1 h).1
      · exact mem_rulesFor_builtIn (List.mem_filter.1 h).1
    simp only [Lane.AppRouter.rules, List.mem_cons, List.not_mem_nil, or_false] at hlane
    rcases hlane with rfl | rfl | rfl | rfl
    · exact anchorRule_candid
    · exact addressRule_candid
    · exact navigateRule_candid
    · exact hookRule_candid
  · exact mappingRules_candid h

/-! ### Renaming modules -/

section Renaming

variable {s : Source} {mappings aliases : Table String} {context : FileContext}

/-- A module keeps its name when the table maps it to itself or not at all and no alias abbreviates
it. -/
theorem retarget_eq_none {path : String} {r : Module.Reference} :
    retarget mappings aliases path r = none ↔
      (∀ target, mapModule r.source mappings = some target → target = r.source) ∧
        pathAlias r.source path aliases = none := by
  unfold retarget
  dsimp only
  rcases mapModule r.source mappings with _ | target
  · simp
  · by_cases h : target = r.source <;> simp [Option.filter, h]

theorem foldl_noteImport {α : Type} (line : α → String) (items : List α) (context : FileContext) :
    items.foldl (fun c x => c.noteImport (line x)) context =
      { context with imports := context.imports ++ items.map line } := by
  induction items generalizing context with
  | nil => simp
  | cons x rest ih =>
    rw [List.foldl_cons, ih]
    simp [FileContext.noteImport]

theorem renamings_eq_nil {path : String} : renamings s mappings aliases path = [] ↔
    ∀ r ∈ s.references, retarget mappings aliases path r = none := by
  simp [renamings, List.filterMap_eq_nil_iff]

/-- Without a module to rename nothing happens. -/
theorem renameModules_settled (h : renamings s mappings aliases context.path = []) :
    renameModules s mappings aliases context = (.ok s.text, context) := by
  unfold renameModules
  rw [h]
  rfl

/-- Renaming modules adds a line for each of them to the imports of a context. -/
theorem renameModules_context : (renameModules s mappings aliases context).2 =
    { context with imports := context.imports ++
        (renamings s mappings aliases context.path).map (·.2.2) } :=
  foldl_noteImport (fun change : Module.Reference × String × String => change.2.2) _ context

end Renaming

/-! ### Applying rules -/

section Rules

variable [Salvage] {spec : Specification} {code : String} {context : FileContext}

/-- A rule has no edit of a code, whatever the context. -/
def RuleSettled (spec : Specification) (path code : String) (rule : RewriteRule) : Prop :=
  ∀ context, (rule.rewrite ⟨reading spec path code, spec, context⟩).edits = .ok []

theorem ruleSettled_of_edits {rule : RewriteRule} (hc : Candid rule) {path : String}
    (h : (rule.rewrite ⟨reading spec path code, spec, context⟩).edits = .ok []) :
    RuleSettled spec path code rule := by
  intro other
  rw [hc.looks ⟨reading spec path code, spec, other⟩ ⟨reading spec path code, spec, context⟩
    rfl rfl]
  exact h

/-- A rule only adds its notes to the context. -/
theorem applyRule_context (rule : RewriteRule) (spec : Specification) (code : String)
    (context : FileContext) : (applyRule rule spec code context).2 =
      context.note (rule.rewrite ⟨reading spec context.path code, spec, context⟩).notes := by
  unfold applyRule
  dsimp only
  split <;> rfl

/-- A rule without edits leaves the code alone. -/
theorem applyRule_settled {rule : RewriteRule}
    (h : (rule.rewrite ⟨reading spec context.path code, spec, context⟩).edits = .ok []) :
    applyRule rule spec code context = (.ok code, context.note
      (rule.rewrite ⟨reading spec context.path code, spec, context⟩).notes) := by
  refine Prod.ext ?_ (applyRule_context rule spec code context)
  unfold reading at h
  unfold applyRule
  dsimp only
  rw [h]

/-- Rules only add notes to the context. -/
theorem applyRules_context (rules : List RewriteRule) (spec : Specification) (code : String)
    (context : FileContext) :
    ∃ notes, (applyRules spec rules code context).2 = context.note notes := by
  induction rules generalizing code context with
  | nil => exact ⟨[], by simp [applyRules, FileContext.note]⟩
  | cons rule rest ih =>
    have hrule := applyRule_context rule spec code context
    rw [applyRules]
    rcases happly : applyRule rule spec code context with ⟨fault | code', context'⟩ <;>
      rw [happly] at hrule <;> dsimp only at hrule ⊢
    · exact ⟨_, hrule⟩
    · obtain ⟨notes, hnotes⟩ := ih code' context'
      refine ⟨(rule.rewrite ⟨reading spec context.path code, spec, context⟩).notes ++ notes, ?_⟩
      rw [hnotes, hrule]
      simp [FileContext.note]

/-- Rules that are settled leave the code alone and tell of nothing but work by hand. -/
theorem applyRules_settled {rules : List RewriteRule} (hc : ∀ rule ∈ rules, Candid rule)
    (h : ∀ rule ∈ rules, RuleSettled spec context.path code rule) :
    ∃ after, applyRules spec rules code context = (.ok code, after) ∧ Quiet context after := by
  induction rules generalizing context with
  | nil => exact ⟨context, rfl, rfl, [], by simp, by simp⟩
  | cons rule rest ih =>
    have hedits := h rule List.mem_cons_self context
    have hsilent := (hc rule List.mem_cons_self).silent _ hedits
    rw [applyRules, applyRule_settled hedits]
    generalize (rule.rewrite ⟨reading spec context.path code, spec, context⟩).notes = notes
      at hsilent
    have hrest : ∀ rule ∈ rest, RuleSettled spec (context.note notes).path code rule :=
      fun rule hr => h rule (List.mem_cons_of_mem _ hr)
    obtain ⟨after, hafter, hquiet⟩ := ih (fun rule hr => hc rule (List.mem_cons_of_mem _ hr)) hrest
    exact ⟨after, hafter, hquiet.note hsilent⟩

/-- Rules that tell of nothing but work by hand are settled, and have left the code alone. -/
theorem applyRules_quiet {rules : List RewriteRule} (hc : ∀ rule ∈ rules, Candid rule)
    {rewritten : String} {after : FileContext}
    (h : applyRules spec rules code context = (.ok rewritten, after)) (hq : Quiet context after) :
    rewritten = code ∧ ∀ rule ∈ rules, RuleSettled spec context.path code rule := by
  induction rules generalizing code context with
  | nil =>
    have hcode : (Except.ok code : Except Fault String) = .ok rewritten := (Prod.mk.inj h).1
    exact ⟨(Except.ok.inj hcode).symm, by simp⟩
  | cons rule rest ih =>
    have hcandid := hc rule List.mem_cons_self
    have hcontext := applyRule_context rule spec code context
    rw [applyRules] at h
    rcases happly : applyRule rule spec code context with ⟨fault | code', context'⟩ <;>
      rw [happly] at h hcontext <;> dsimp only at h hcontext
    · cases (Prod.mk.inj h).1
    · subst hcontext
      obtain ⟨more, hmore⟩ := applyRules_context rest spec code' (context.note
        (rule.rewrite ⟨reading spec context.path code, spec, context⟩).notes)
      rw [h] at hmore
      dsimp only at hmore
      subst hmore
      -- Notes are never taken back: at a quiet end this rule was quiet, hence without edits.
      obtain ⟨hwork, hquiet⟩ := hq.split
      have hedits :
          (rule.rewrite ⟨reading spec context.path code, spec, context⟩).edits = .ok [] := by
        by_cases hnil :
            (rule.rewrite ⟨reading spec context.path code, spec, context⟩).edits = .ok []
        · exact hnil
        · obtain ⟨note, hnote, hother⟩ := hcandid.tells _ hnil
          exact absurd (hwork note hnote) hother
      rw [applyRule_settled hedits] at happly
      obtain rfl := Except.ok.inj (Prod.mk.inj happly).1
      obtain ⟨hcode, hrest⟩ := ih (fun rule hr => hc rule (List.mem_cons_of_mem _ hr)) h hquiet
      refine ⟨hcode, fun other hother => ?_⟩
      rcases List.mem_cons.1 hother with rfl | hother
      · exact ruleSettled_of_edits hcandid hedits
      · exact hrest other hother

end Rules

/-! ### Settled code -/

section Settled

variable [Salvage] {spec : Specification} {path code : String} {context : FileContext}

/-- The aliases of directories in the target. -/
def aliasesOf (spec : Specification) : Table String :=
  (LaneRegistry.builtIn.profile spec.target.framework).pathAliases

/-- A code that no step of the pass has anything to do with: its modules keep their names, no path
in it is abbreviated, no import is removed and no rule has an edit. -/
structure Settled (spec : Specification) (path code : String) : Prop where
  modules : ∀ r ∈ (reading spec path code).references, ∀ target,
    mapModule r.source spec.mappings.imports = some target → target = r.source
  paths : ∀ r ∈ (reading spec path code).references, pathAlias r.source path (aliasesOf spec) = none
  imports : withoutRepeatedImports (reading spec path code) = .ok code
  rules : ∀ rule ∈ rulesOf .builtIn spec, RuleSettled spec path code rule

/-- What all steps make of a code. -/
def rewritten (spec : Specification) (code : String) (context : FileContext) :
    Except Fault String × FileContext :=
  rewriteAll .builtIn (reading spec context.path code) spec context

theorem Settled.renamings_eq_nil (h : Settled spec path code) :
    renamings (reading spec path code) spec.mappings.imports (aliasesOf spec) path = [] := by
  rw [Rewrite.renamings_eq_nil]
  exact fun r hr => retarget_eq_none.2 ⟨h.modules r hr, h.paths r hr⟩

/-- All steps leave settled code alone. -/
theorem rewritten_of_settled (h : Settled spec context.path code) :
    ∃ after, rewritten spec code context = (.ok code, after) ∧ Quiet context after := by
  have himports := h.imports
  obtain ⟨after, hafter, hquiet⟩ := applyRules_settled (fun _ => rulesOf_candid) h.rules
  refine ⟨after, ?_, hquiet⟩
  unfold rewritten rewriteAll
  rw [← aliasesOf, renameModules_settled h.renamings_eq_nil]
  dsimp only
  rw [reading_text, ← reading, himports]
  exact hafter

/-- A quiet run of all steps renames no module. -/
theorem renamings_of_quiet {after : FileContext}
    (h : rewritten spec code context = (.ok code, after)) (hq : Quiet context after) :
    renamings (reading spec context.path code) spec.mappings.imports (aliasesOf spec)
      context.path = [] := by
  have hcontext := @renameModules_context (reading spec context.path code) spec.mappings.imports
    (aliasesOf spec) context
  unfold rewritten rewriteAll at h
  rw [← aliasesOf] at h
  rcases hrename : renameModules (reading spec context.path code) spec.mappings.imports
    (aliasesOf spec) context with ⟨fault | renamed, context'⟩ <;>
    rw [hrename] at h hcontext <;> dsimp only at h hcontext
  · cases (Prod.mk.inj h).1
  · split at h
    · cases (Prod.mk.inj h).1
    · -- The rules add notes only, so the lines about imports are those of the renamed modules.
      rename_i thinned _
      obtain ⟨notes, hnotes⟩ := applyRules_context (rulesOf .builtIn spec) spec thinned context'
      rw [h] at hnotes
      have himports : after.imports = context.imports ++ (renamings (reading spec context.path code)
          spec.mappings.imports (aliasesOf spec) context.path).map (·.2.2) :=
        congrArg FileContext.imports (hnotes.trans (congrArg (·.note notes) hcontext))
      exact List.map_eq_nil_iff.1 (List.append_right_eq_self.1 (himports.symm.trans hq.1))

/-- A code that all steps leave alone without a word is settled. -/
theorem settled_of_quiet {after : FileContext}
    (h : rewritten spec code context = (.ok code, after)) (hq : Quiet context after) :
    Settled spec context.path code := by
  have hnil := renamings_of_quiet h hq
  unfold rewritten rewriteAll at h
  rw [← aliasesOf, renameModules_settled hnil] at h
  dsimp only at h
  rw [reading_text, ← reading] at h
  split at h
  · cases (Prod.mk.inj h).1
  · rename_i thinned hthinned
    obtain ⟨rfl, hrules⟩ := applyRules_quiet (fun _ => rulesOf_candid) h hq
    have hnone := renamings_eq_nil.1 hnil
    exact ⟨fun r hr => (retarget_eq_none.1 (hnone r hr)).1,
      fun r hr => (retarget_eq_none.1 (hnone r hr)).2, hthinned, hrules⟩

/-! ### The second pass -/

/-- The output of a pass without errors can be read. -/
theorem hasError_of_pass {x : String} (h : (pass .builtIn x spec context).1 = .ok ⟨code, []⟩) :
    (reading spec context.path code).hasError = false := by
  unfold pass at h
  dsimp only at h
  split at h
  · cases h
  · split at h
    · cases h
    · rename_i rewritten context' _
      dsimp only at h
      unfold accept at h
      dsimp only at h
      split at h
      · cases h
      · rename_i hgood
        obtain ⟨rfl, -⟩ := PassResult.mk.inj (Except.ok.inj h)
        simpa [reading] using hgood

/-- A pass over code that can be read makes of it what all steps do, if that can be read. -/
theorem pass_ok {text : String} {after : FileContext}
    (h : (reading spec context.path code).hasError = false)
    (hr : rewritten spec code context = (.ok text, after)) :
    pass .builtIn code spec context = (.ok (accept spec context.path code text), after) := by
  unfold reading at h
  unfold rewritten reading at hr
  simp [pass, h, hr]

/-- A pass over code that can be read fails when a step fails. -/
theorem pass_error {fault : Fault} {after : FileContext}
    (h : (reading spec context.path code).hasError = false)
    (hr : rewritten spec code context = (.error fault, after)) :
    pass .builtIn code spec context = (.error fault, after) := by
  unfold reading at h
  unfold rewritten reading at hr
  simp [pass, h, hr]

theorem accept_code_iff {text : String} : (accept spec path code text).code = code ↔
    text = code ∨ (reading spec path text).hasError = true := by
  unfold accept
  dsimp only
  rw [← reading]
  split
  · rename_i h
    simp [h]
  · rename_i h
    simp [h]

/-- All steps make the code again, but they have told of rewrites, which undo each other. -/
def Cancelled (spec : Specification) (code : String) (context : FileContext) : Prop :=
  ∃ after, rewritten spec code context = (.ok code, after) ∧ ¬ Quiet context after

/-- What all steps make of the code cannot be read and is dropped. -/
def Rejected (spec : Specification) (code : String) (context : FileContext) : Prop :=
  ∃ text after, rewritten spec code context = (.ok text, after) ∧
    (reading spec context.path text).hasError = true

/-- When a step fails, the code is not settled. -/
theorem not_settled_of_error {fault : Fault} {after : FileContext}
    (hr : rewritten spec code context = (.error fault, after)) :
    ¬ Settled spec context.path code := by
  intro hs
  obtain ⟨after', hok, -⟩ := rewritten_of_settled hs
  cases hr.symm.trans hok

/-- Settled code is what all steps make of it, without a word. -/
theorem of_settled {text : String} {after : FileContext}
    (hr : rewritten spec code context = (.ok text, after)) (hs : Settled spec context.path code) :
    text = code ∧ Quiet context after := by
  obtain ⟨after', hok, hq⟩ := rewritten_of_settled hs
  obtain ⟨htext, rfl⟩ := Prod.mk.inj (hr.symm.trans hok)
  exact ⟨Except.ok.inj htext, hq⟩

/-- The three ways to keep a code. -/
theorem accept_code_iff_settled {text : String} {after : FileContext}
    (hr : rewritten spec code context = (.ok text, after)) :
    (accept spec context.path code text).code = code ↔
      Settled spec context.path code ∨ Cancelled spec code context ∨
        Rejected spec code context := by
  rw [accept_code_iff]
  constructor
  · rintro (rfl | hbad)
    · by_cases hq : Quiet context after
      · exact .inl (settled_of_quiet hr hq)
      · exact .inr (.inl ⟨after, hr, hq⟩)
    · exact .inr (.inr ⟨text, after, hr, hbad⟩)
  · rintro (hs | ⟨after', hok, -⟩ | ⟨text', after', hok, hbad⟩)
    · exact .inl (of_settled hr hs).1
    · exact .inl (Except.ok.inj (Prod.mk.inj (hr.symm.trans hok)).1)
    · obtain rfl := Except.ok.inj (Prod.mk.inj (hr.symm.trans hok)).1
      exact .inr hbad

/-- The one way to keep a code without errors and without a word. -/
theorem accept_quiet_iff_settled {text : String} {after : FileContext}
    (h : (reading spec context.path code).hasError = false)
    (hr : rewritten spec code context = (.ok text, after)) :
    accept spec context.path code text = ⟨code, []⟩ ∧ Quiet context after ↔
      Settled spec context.path code := by
  constructor
  · rintro ⟨hresult, hq⟩
    have hcode : (accept spec context.path code text).code = code := by rw [hresult]
    rcases accept_code_iff.1 hcode with rfl | hbad
    · exact settled_of_quiet hr hq
    · -- A code that is kept because the new one cannot be read is kept with an error.
      unfold reading at hbad
      rw [accept, if_pos hbad] at hresult
      cases hresult
  · intro hs
    obtain ⟨rfl, hq⟩ := of_settled hr hs
    unfold reading at h
    exact ⟨by rw [accept, if_neg (by simp [h])], hq⟩

end Settled

/-- **When a second pass leaves the output of a first one alone.**  It returns the code exactly when
the code is settled, or its rewrites undo each other, or they are rejected.  It returns the code
without errors and without telling of a rewrite exactly when the code is settled. -/
theorem second_pass_iff [Salvage] {x : String} {spec : Specification} {code : String}
    {context fresh : FileContext} (h : (pass .builtIn x spec context).1 = .ok ⟨code, []⟩)
    (hpath : fresh.path = context.path) :
    ((∃ r, (pass .builtIn code spec fresh).1 = .ok r ∧ r.code = code) ↔
      Settled spec fresh.path code ∨ Cancelled spec code fresh ∨ Rejected spec code fresh) ∧
    (((pass .builtIn code spec fresh).1 = .ok ⟨code, []⟩ ∧
        Quiet fresh (pass .builtIn code spec fresh).2) ↔ Settled spec fresh.path code) := by
  have hgood := hasError_of_pass h
  rw [← hpath] at hgood
  rcases hrewritten : rewritten spec code fresh with ⟨fault | text, after⟩
  · -- A step fails: there is no answer, and none of the three ways is open.
    rw [pass_error hgood hrewritten]
    have hunsettled := not_settled_of_error hrewritten
    refine ⟨iff_of_false (by simp) ?_, iff_of_false (by simp) hunsettled⟩
    rintro (hs | ⟨after', hok, -⟩ | ⟨text, after', hok, -⟩)
    · exact hunsettled hs
    · cases hrewritten.symm.trans hok
    · cases hrewritten.symm.trans hok
  · rw [pass_ok hgood hrewritten]
    constructor
    · rw [← accept_code_iff_settled hrewritten]
      simp
    · rw [← accept_quiet_iff_settled hgood hrewritten]
      simp

/-! ### Files whose second pass is another one -/

theorem eq_ok_of_toOption {α : Type} {x : Except Fault α} {a : α} (h : x.toOption = some a) :
    x = .ok a := by
  cases x with
  | error fault => cases h
  | ok b => rw [Option.some.inj h]

/-- A migration in which the new name of a module starts with the old one. -/
def growing : Specification := { mappings := { imports := [("lodash", "lodash/esm")] } }

/-- The context of a script before any pass. -/
def untouched : FileContext := { path := "x.js" }

section

attribute [local instance] Salvage.stopping

/-- A module whose new name starts with the old one is renamed by the second pass again. -/
theorem second_pass_differs :
    (pass .builtIn "import x from \"lodash\";\n" growing untouched).1 =
      .ok ⟨"import x from \"lodash/esm\";\n", []⟩ ∧
    (pass .builtIn "import x from \"lodash/esm\";\n" growing untouched).1 =
      .ok ⟨"import x from \"lodash/esm/esm\";\n", []⟩ :=
  ⟨eq_ok_of_toOption (by decide +kernel), eq_ok_of_toOption (by decide +kernel)⟩

end

/-- A migration in which the new name of a module is the old one of another, whose own new name ends the
string that it stands in. -/
def escaping : Specification :=
  { mappings := { imports := [("c", "b"), ("b", "a\" junk; \"z")] } }

/-- What the second pass makes of the imports before it looks for repeated ones. -/
def escapedText : String := "import \"a\";\nimport \"a\" junk; \"z\";\n"

/-- Two imports and a string, with a word before the end of the second import that belongs to nothing. -/
def escapedTree : Node :=
  ⟨.program, none, 0, 34, [
    ⟨.importStatement, none, 0, 11, [.leaf (.token "import") 0 6, (Node.leaf .string 7 10).as .source,
      .leaf (.token ";") 10 11]⟩,
    ⟨.importStatement, none, 12, 28, [.leaf (.token "import") 12 18,
      (Node.leaf .string 19 22).as .source, ⟨.error, none, 23, 27, [.leaf .identifier 23 27]⟩,
      .leaf (.token ";") 27 28]⟩,
    ⟨.expressionStatement, none, 29, 33, [.leaf .string 29 32, .leaf (.token ";") 32 33]⟩]⟩

/-- Passes over a word that does not belong to an import. -/
abbrev skippingWord : Salvage where
  left dialect text :=
    if text = escapedText.toList then ⟨escapedTree, fun _ => false⟩
    else Salvage.stopping.left dialect text

section

attribute [local instance] skippingWord

/-- The second pass breaks the second import, removes what is left of it as a repeated one, and returns
what can be read again. -/
theorem second_pass_iff_escaping :
    (pass .builtIn "import \"a\";\nimport \"c\";\n" escaping untouched).1 =
      .ok ⟨"import \"a\";\nimport \"b\";\n", []⟩ ∧
    (pass .builtIn "import \"a\";\nimport \"b\";\n" escaping untouched).1 =
      .ok ⟨"import \"a\";\n \"z\";\n", []⟩ ∧
    ¬ (Settled escaping untouched.path "import \"a\";\nimport \"b\";\n" ∨
      Cancelled escaping "import \"a\";\nimport \"b\";\n" untouched ∨
      Rejected escaping "import \"a\";\nimport \"b\";\n" untouched) := by
  have first : (pass .builtIn "import \"a\";\nimport \"c\";\n" escaping untouched).1 =
      .ok ⟨"import \"a\";\nimport \"b\";\n", []⟩ := eq_ok_of_toOption (by decide +kernel)
  have second : (pass .builtIn "import \"a\";\nimport \"b\";\n" escaping untouched).1 =
      .ok ⟨"import \"a\";\n \"z\";\n", []⟩ := eq_ok_of_toOption (by decide +kernel)
  refine ⟨first, second, fun hways => ?_⟩
  obtain ⟨r, hr, hcode⟩ := (second_pass_iff first rfl).1.2 hways
  rw [second] at hr
  obtain rfl := Except.ok.inj hr
  revert hcode
  decide

end

end WebMigration.Rewrite
