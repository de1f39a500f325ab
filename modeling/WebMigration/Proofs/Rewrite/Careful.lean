import WebMigration.Proofs.Module.Source
import WebMigration.Proofs.Rewrite.Edit
import WebMigration.Proofs.Rewrite.Stability

/-!
# Where the steps of the pass edit

Every step of the pass edits between the characters of the code that it looks at: renaming modules
and removing imports always do, and so do all rules in use.
-/

namespace WebMigration.Rewrite

open Syntax
open WebMigration.Module (Salvage Source Reference)

variable {file : List Char} {s : Source}

/-! ### Reading a file -/

section Reading

variable [Salvage] {spec : Specification} {path code : String}

theorem reading_content : (reading spec path code).content.list = Text.bytesOf code.toList := by
  rw [reading, Source.parse_content]
  exact Text.toUTF8_toList code

theorem reading_root_atCuts (h : Salvage.AtCuts) :
    (reading spec path code).root.AtCuts code.toList :=
  Source.parse_root_atCuts h

theorem reading_references_atCuts (h : Salvage.AtCuts) :
    ∀ r ∈ (reading spec path code).references, r.span.AtCuts code.toList :=
  fun _ => Source.parse_references_atCuts h

theorem reading_references_fit (h : (reading spec path code).hasError = false) :
    ∀ r ∈ (reading spec path code).references, r.Fits code.toList :=
  fun _ => Source.parse_references_fit h

end Reading

/-! ### Imports -/

/-- The names of modules are edited between their quotes. -/
theorem renamings_fit (hs : ∀ r ∈ s.references, r.Fits file) {mappings aliases : Table String}
    {path : String} : ∀ e ∈ (renamings s mappings aliases path).map (fun (r, target, _) =>
      Edit.replacing r.sourceSpan.start r.sourceSpan.stop target), e.Fits file := by
  intro e he
  obtain ⟨⟨r, target, line⟩, hchange, rfl⟩ := List.mem_map.1 he
  obtain ⟨r', hr', hsome⟩ := List.mem_filterMap.1 hchange
  obtain ⟨change, -, hpair⟩ := Option.map_eq_some_iff.1 hsome
  obtain rfl : r' = r := congrArg Prod.fst hpair
  exact Edit.replacing_fits (hs r' hr').sourceStart (hs r' hr').sourceStop

theorem mem_of_mem_repeatedFrom {seen : List String} {refs : List Reference} {r : Reference}
    (h : r ∈ repeatedFrom seen refs) : r ∈ refs := by
  induction refs generalizing seen with
  | nil => cases h
  | cons r' rest ih =>
    rw [repeatedFrom] at h
    split at h
    · rcases List.mem_cons.1 h with rfl | h
      · exact List.mem_cons_self
      · exact List.mem_cons_of_mem _ (ih h)
    · exact List.mem_cons_of_mem _ (ih h)

/-- An import is removed with at most a line feed after it. -/
theorem removeImport_fits {r : Reference} (hr : r.span.AtCuts file)
    (hs : s.content.list = Text.bytesOf file) : (removeImport s r).Fits file := by
  refine Edit.replacing_fits hr.start ?_
  split
  · rename_i hnewline
    rw [hs, beq_iff_eq] at hnewline
    exact Text.isCut_after_lineFeed hr.stop hnewline
  · exact hr.stop

theorem removals_fit (hrefs : ∀ r ∈ s.references.filter (·.kind == .static), r.span.AtCuts file)
    (hs : s.content.list = Text.bytesOf file) :
    ∀ e ∈ (repeatedImports s).map (removeImport s), e.Fits file := by
  intro e he
  obtain ⟨r, hr, rfl⟩ := List.mem_map.1 he
  exact removeImport_fits (hrefs r (mem_of_mem_repeatedFrom hr)) hs

/-! ### Rules -/

/-- A rule that fails, or answers with edits at cuts of the code that it looks at. -/
def Careful [Salvage] (spec : Specification) (path : String) (rule : RewriteRule) : Prop :=
  ∀ code context edits, context.path = path →
    (rule.rewrite ⟨reading spec path code, spec, context⟩).edits = .ok edits →
      ∀ e ∈ edits, e.Fits code.toList

/-- A rule that edits between the characters of every file whose tree does not cut them. -/
theorem careful_of_edits [Salvage] (hsalvage : Salvage.AtCuts) {rule : RewriteRule}
    (edits : Source → List Edit)
    (hrule : ∀ v, (rule.rewrite v).edits = .ok (edits v.source))
    (h : ∀ s file, s.root.AtCuts file → ∀ e ∈ edits s, e.Fits file) {spec : Specification}
    {path : String} : Careful spec path rule := by
  intro code context found _ hfound
  rw [hrule] at hfound
  obtain rfl := Except.ok.inj hfound
  exact h (reading spec path code) code.toList (reading_root_atCuts hsalvage)

theorem replacing_fits {n : Node} (hn : n.AtCuts file) {replacement : String} :
    (replacing n replacement).Fits file :=
  Edit.replacing_fits hn.here.start hn.here.stop

/-- A name that was found is edited if it is the old one. -/
theorem renamed_fits {n : Node} (hn : n.AtCuts file) {name old new : String} {e : Edit}
    (h : (if name == old then some (replacing n new) else none) = some e) : e.Fits file := by
  split at h
  · exact Option.some.inj h ▸ replacing_fits hn
  · cases h

theorem calledName?_atCuts {n f : Node} {name : String} (hn : n.AtCuts file)
    (h : calledName? s n = some (f, name)) : f.AtCuts file := by
  unfold calledName? at h
  split at h
  · obtain ⟨g, hg, hpair⟩ := Option.map_eq_some_iff.1 h
    obtain rfl : g = f := congrArg Prod.fst hpair
    exact hn.of_child? (Option.filter_eq_some_iff.1 hg).1
  · cases h

theorem plainlyImported?_atCuts {n i : Node} {name : String} (hn : n.AtCuts file)
    (h : plainlyImported? s n = some (i, name)) : i.AtCuts file := by
  unfold plainlyImported? at h
  split at h
  · obtain ⟨j, hj, hpair⟩ := Option.map_eq_some_iff.1 h
    obtain rfl : j = i := congrArg Prod.fst hpair
    exact hn.of_child? hj
  · cases h

/-- Edits made from the nodes of a tree, each at a cut, are at cuts. -/
theorem filterMap_fits {root : Node} (hroot : root.AtCuts file) {edit? : Node → Option Edit}
    (h : ∀ n e, n.AtCuts file → edit? n = some e → e.Fits file) :
    ∀ e ∈ root.walk.filterMap edit?, e.Fits file := by
  intro e he
  rw [Node.walk_eq_preorder] at he
  obtain ⟨n, hn, hsome⟩ := List.mem_filterMap.1 he
  exact h n e (hroot.of_mem_preorder n hn) hsome

theorem renameRule_careful [Salvage] (hsalvage : Salvage.AtCuts) (old new : String)
    {spec : Specification} {path : String} : Careful spec path (renameRule old new) := by
  refine careful_of_edits hsalvage (fun s => renameEdits s old new) (fun _ => rfl) ?_
  intro s file hroot
  refine filterMap_fits hroot fun n e hn h => ?_
  unfold renameCallOrImport at h
  split at h
  · rename_i f name hcalled
    exact renamed_fits (calledName?_atCuts hn hcalled) h
  · split at h
    · cases h
    · split at h
      · rename_i i name himported
        exact renamed_fits (plainlyImported?_atCuts hn himported) h
      · cases h

theorem renameTagRule_careful [Salvage] (hsalvage : Salvage.AtCuts) (old new : String)
    {spec : Specification} {path : String} : Careful spec path (renameTagRule old new) := by
  refine careful_of_edits hsalvage (fun s => renameTagEdits s old new) (fun _ => rfl) ?_
  intro s file hroot
  refine filterMap_fits hroot fun n e hn h => ?_
  unfold renameTag at h
  split at h
  · split at h
    · rename_i name hname
      exact renamed_fits (hn.of_child? hname) h
    · cases h
  · cases h

theorem mappingRules_careful [Salvage] (hsalvage : Salvage.AtCuts) {spec : Specification}
    {rule : RewriteRule}
    (h : rule ∈ mappingRules spec) {path : String} : Careful spec path rule := by
  rcases List.mem_append.1 h with h | h
  · obtain ⟨old, new, rfl⟩ := mem_tableRules h
    exact renameRule_careful hsalvage old new
  · obtain ⟨old, new, rfl⟩ := mem_tableRules h
    exact renameTagRule_careful hsalvage old new

/-! ### The rules of the built-in lane -/

section AppRouter

open Lane.AppRouter

theorem closingName?_atCuts {tag name : Node} {parent : Option Node}
    (hparent : ∀ p ∈ parent, p.AtCuts file) (h : closingName? tag parent = some name) :
    name.AtCuts file := by
  unfold closingName? at h
  split at h
  · obtain ⟨p, hp, h⟩ := Option.bind_eq_some_iff.1 h
    obtain ⟨close, hclose, hname⟩ := Option.bind_eq_some_iff.1 h
    exact ((hparent p hp).of_child? hclose).of_child? hname
  · cases h

theorem linkEdits_fit {v : Node.Visit} (hnode : v.node.AtCuts file)
    (hparent : ∀ p ∈ v.parent, p.AtCuts file) : ∀ e ∈ linkEdits s v, e.Fits file := by
  intro e he
  unfold linkEdits at he
  split at he
  · split at he
    · rename_i name hname
      rcases List.mem_cons.1 he with rfl | he
      · exact replacing_fits (hnode.of_child? hname)
      · obtain ⟨close, hclose, rfl⟩ := Option.map_eq_some_iff.1 (Option.mem_toList.1 he)
        exact replacing_fits (closingName?_atCuts hparent hclose)
    · cases he
  · cases he

theorem insertImport_fits {root : Node} (hroot : root.AtCuts file) {line : String} :
    (insertImport root line).Fits file := by
  have hnamed : ∀ n ∈ root.namedChildren, IsCut file n.stop :=
    fun n hn => (hroot.of_mem_namedChildren hn).here.stop
  unfold insertImport
  dsimp only
  split
  · rename_i last hlast
    have hlast := hnamed last (List.mem_filter.1 (List.mem_of_mem_getLast? hlast)).1
    exact Edit.replacing_fits hlast hlast
  · split
    · rename_i offset hoffset
      obtain ⟨n, hn, rfl⟩ := Option.map_eq_some_iff.1 hoffset
      have hn := hnamed n (List.mem_of_find?_eq_some hn)
      exact Edit.replacing_fits hn hn
    · exact Edit.replacing_fits (isCut_zero file) (isCut_zero file)

theorem anchorEdits_fit (hroot : s.root.AtCuts file) : ∀ e ∈ anchorEdits s, e.Fits file := by
  have hlinks : ∀ e ∈ s.root.visits.flatMap (linkEdits s), e.Fits file := by
    intro e he
    obtain ⟨v, hv, he⟩ := List.mem_flatMap.1 he
    obtain ⟨hnode, hparent⟩ := hroot.of_mem_visits hv
    exact linkEdits_fit hnode hparent e he
  intro e he
  unfold anchorEdits at he
  dsimp only at he
  split at he
  · exact hlinks e he
  · rcases List.mem_append.1 he with he | he
    · exact hlinks e he
    · obtain rfl := List.mem_singleton.1 he
      exact insertImport_fits hroot

theorem property?_atCuts {tag child name : Node} {text : String} (htag : tag.AtCuts file)
    (h : property? s tag text = some (child, name)) : name.AtCuts file := by
  obtain ⟨c, hc, h⟩ := List.exists_of_findSome?_eq_some h
  split at h
  · split at h
    · rename_i n hn
      split at h
      · obtain ⟨-, rfl⟩ := Prod.mk.inj (Option.some.inj h)
        exact (htag.of_mem_namedChildren hc).of_mem_namedChildren (List.mem_of_mem_head? hn)
      · cases h
    · cases h
  · cases h

theorem addressEdits_fit (hroot : s.root.AtCuts file) : ∀ e ∈ addressEdits s, e.Fits file := by
  refine filterMap_fits hroot fun n e hn h => ?_
  unfold addressEdit? at h
  split at h
  · obtain ⟨⟨child, name⟩, hproperty, rfl⟩ := Option.map_eq_some_iff.1 h
    exact replacing_fits (property?_atCuts hn hproperty)
  · cases h

theorem hookEdits_fit (hroot : s.root.AtCuts file) : ∀ e ∈ hookEdits s, e.Fits file := by
  have hcalls : ∀ e ∈ hookCallEdits s, e.Fits file := by
    refine filterMap_fits hroot fun n e hn h => ?_
    unfold hookCallEdit? at h
    split at h
    · rename_i f name hcalled
      exact renamed_fits (calledName?_atCuts hn hcalled) h
    · cases h
  have himports : ∀ e ∈ s.root.walk.filterMap (hookImportEdit? s), e.Fits file := by
    refine filterMap_fits hroot fun n e hn h => ?_
    unfold hookImportEdit? at h
    split at h
    · rename_i i name himported
      exact renamed_fits (plainlyImported?_atCuts hn himported) h
    · cases h
  intro e he
  unfold hookEdits at he
  dsimp only at he
  split at he
  · exact hcalls e he
  · rcases List.mem_append.1 he with he | he
    · exact hcalls e he
    · exact himports e he

/-- All rules of the built-in lane are careful. -/
theorem builtIn_careful [Salvage] (hsalvage : Salvage.AtCuts) {source target : String}
    {rule : RewriteRule} (h : rule ∈ LaneRegistry.builtIn.rulesFor source target)
    {spec : Specification} {path : String} : Careful spec path rule := by
  have hlane := mem_rulesFor_builtIn h
  simp only [Lane.AppRouter.rules, List.mem_cons, List.not_mem_nil, or_false] at hlane
  rcases hlane with rfl | rfl | rfl | rfl
  · exact careful_of_edits hsalvage anchorEdits (fun _ => rfl) fun _ _ => anchorEdits_fit
  · exact careful_of_edits hsalvage addressEdits (fun _ => rfl) fun _ _ => addressEdits_fit
  · exact careful_of_edits hsalvage (fun _ => []) (fun _ => rfl)
      fun _ _ _ e he => absurd he List.not_mem_nil
  · exact careful_of_edits hsalvage hookEdits (fun _ => rfl) fun _ _ => hookEdits_fit

end AppRouter

end WebMigration.Rewrite
