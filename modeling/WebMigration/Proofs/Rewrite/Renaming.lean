import WebMigration.Lane.AppRouter.Rule
import WebMigration.Proofs.Module.Scope

/-!
# Renamed functions

The rules that rename a function edit the names that are called and the names of plain import
specifiers, and no others.  So the uses of a name change together with what they mean exactly where
all that is called is plainly imported, and all that is plainly imported is only called.
-/

namespace WebMigration.Rewrite

open Syntax
open WebMigration.Module (Source)
open Lane.AppRouter (hookRule hookEdits hookCallEdits hookCallEdit? hookImportEdit?)

/-! ### What is renamed -/

/-- Whether a child of a node is a name that the node calls. -/
def isCallee (s : Source) (old : String) (parent n : Node) : Bool :=
  parent.kind == .callExpression && n.kind == .identifier && s.nodeText n == old

/-- Whether a child of a node is the name that the node imports without an alias. -/
def isPlainImport (s : Source) (old : String) (parent n : Node) : Bool :=
  parent.kind == .importSpecifier && (parent.child? .alias).isNone && s.nodeText n == old

/-- A name is called at a place. -/
def Called (s : Source) (old : String) (p : Place) : Prop :=
  p.plays .function = true ∧ ∃ n ∈ p.parent?, isCallee s old n p.node = true

/-- A name is imported under itself at a place. -/
def PlainlyImported (s : Source) (old : String) (p : Place) : Prop :=
  p.plays .name = true ∧ ∃ n ∈ p.parent?, isPlainImport s old n p.node = true

section Places

variable {s : Source} {old new : String} {p : Place}

instance : Decidable (Called s old p) := inferInstanceAs (Decidable (_ ∧ _))

instance : Decidable (PlainlyImported s old p) := inferInstanceAs (Decidable (_ ∧ _))

/-- What is called is declared elsewhere. -/
theorem Called.reach?_eq_none (h : Called s old p) : p.reach? = none := by
  obtain ⟨node, _ | ⟨⟨parent, index⟩, above⟩⟩ := p
  · exact absurd h.1 Bool.noConfusion
  · obtain ⟨-, n, hn, hcallee⟩ := h
    obtain rfl : parent = n := Option.some.inj hn
    have hkind : parent.kind = .callExpression := by
      simp only [isCallee, Bool.and_eq_true, beq_iff_eq] at hcallee
      exact hcallee.1.1
    simp [Place.reach?, Place.isImported, Place.isAssignedImport, Place.nameReach?,
      Place.patternReach?, hkind]

/-- What is plainly imported is declared there. -/
theorem PlainlyImported.isSome_reach? (h : PlainlyImported s old p) : p.reach?.isSome = true := by
  obtain ⟨node, _ | ⟨⟨parent, index⟩, above⟩⟩ := p
  · exact absurd h.1 Bool.noConfusion
  · obtain ⟨hplays, n, hn, himport⟩ := h
    obtain rfl : parent = n := Option.some.inj hn
    simp only [isPlainImport, Bool.and_eq_true, beq_iff_eq, Option.isNone_iff_eq_none] at himport
    obtain ⟨⟨hkind, halias⟩, -⟩ := himport
    simp [Place.reach?, Place.isImported, hkind, halias, hplays]

/-! ### The edits -/

/-- The node that was found with a name, if it is the old one. -/
def ofName (old : String) (found : Option (Node × String)) : Option Node :=
  (found.filter (·.2 == old)).map (·.1)

theorem ofName_some {f : Node} {name : String} :
    ofName old (some (f, name)) = if name == old then some f else none := by
  rw [ofName, Option.filter_some]
  split <;> rfl

/-- A node with the old name gets the new one. -/
theorem edit_ofName (found : Option (Node × String)) :
    (match found with
      | some (f, name) => if name == old then some (replacing f new) else none
      | none => none) = (ofName old found).map (replacing · new) := by
  rcases found with _ | ⟨f, name⟩
  · rfl
  · dsimp only
    rw [ofName_some]
    split <;> rfl

theorem ofName_calledName? {n : Node} : ofName old (calledName? s n) =
    (n.child? .function).filter (isCallee s old n) := by
  unfold calledName? isCallee
  split
  · rename_i hkind
    rcases n.child? .function with _ | f
    · rfl
    · by_cases hname : f.kind = .identifier <;>
        simp [Option.filter_some, ofName, hkind, hname]
  · rename_i hkind
    cases n.child? .function <;> simp [Option.filter_some, ofName, hkind]

theorem ofName_plainlyImported? {n : Node} : ofName old (plainlyImported? s n) =
    (n.child? .name).filter (isPlainImport s old n) := by
  unfold plainlyImported? isPlainImport
  split
  · rename_i hplain
    rcases n.child? .name with _ | i
    · rfl
    · simp [Option.filter_some, ofName_some, hplain]
  · rename_i hplain
    cases n.child? .name <;> simp [Option.filter_some, ofName, hplain]

/-- A node that calls a name imports none. -/
theorem plainlyImported?_of_calledName? {n : Node} (h : (calledName? s n).isSome = true) :
    plainlyImported? s n = none := by
  unfold calledName? at h
  split at h
  · rename_i hkind
    simp [plainlyImported?, beq_iff_eq.1 hkind]
  · cases h

theorem renameCallOrImport_eq {n : Node} : renameCallOrImport s false old new n =
    (ofName old (calledName? s n) <|> ofName old (plainlyImported? s n)).map (replacing · new) := by
  unfold renameCallOrImport
  rcases hcalled : calledName? s n with _ | ⟨f, name⟩
  · exact edit_ofName (plainlyImported? s n)
  · rw [plainlyImported?_of_calledName? (by rw [hcalled]; rfl), ofName_some]
    dsimp only
    split <;> rfl

/-- Edits made from the nodes of a tree are those of places that are found below its places. -/
theorem filterMap_walk {root : Node} {edit? : Node → Option Edit}
    {below? : Place → Option Place}
    (h : ∀ p, edit? p.node = ((below? p).map (·.node)).map (replacing · new)) :
    root.walk.filterMap edit? =
      (root.places.filterMap below?).map fun p => replacing p.node new := by
  rw [Node.walk_eq_preorder, ← Node.map_node_places, List.filterMap_map, List.map_filterMap]
  refine congrArg (List.filterMap · root.places) (funext fun p => ?_)
  rw [Function.comp_apply, h, Option.map_map]
  rfl

/-- The place of the name that a node calls. -/
def calledBelow? (s : Source) (old : String) : Place → Option Place :=
  Place.part? .function (isCallee s old)

/-- The place of the name that a node plainly imports. -/
def importedBelow? (s : Source) (old : String) : Place → Option Place :=
  Place.part? .name (isPlainImport s old)

theorem exists_calledBelow?_iff : (∃ q ∈ s.root.places, calledBelow? s old q = some p) ↔
    p ∈ s.root.places ∧ Called s old p :=
  Place.exists_part?_iff

theorem exists_importedBelow?_iff : (∃ q ∈ s.root.places, importedBelow? s old q = some p) ↔
    p ∈ s.root.places ∧ PlainlyImported s old p :=
  Place.exists_part?_iff

theorem map_node_calledBelow? :
    (calledBelow? s old p).map (·.node) = ofName old (calledName? s p.node) := by
  rw [calledBelow?, Place.map_node_part?, ofName_calledName?]

theorem map_node_importedBelow? :
    (importedBelow? s old p).map (·.node) = ofName old (plainlyImported? s p.node) := by
  rw [importedBelow?, Place.map_node_part?, ofName_plainlyImported?]

/-- No node both calls a name and imports one. -/
theorem importedBelow?_of_calledBelow? {q : Place} (h : calledBelow? s old p = some q) :
    importedBelow? s old p = none := by
  obtain ⟨_, c, -, -, hcallee, -⟩ := Place.part?_eq_some_iff.1 h
  refine Option.eq_none_iff_forall_ne_some.2 fun q' h' => ?_
  obtain ⟨_, c', -, -, himport, -⟩ := Place.part?_eq_some_iff.1 h'
  simp only [isCallee, isPlainImport, Bool.and_eq_true, beq_iff_eq] at hcallee himport
  rw [hcallee.1.1] at himport
  exact absurd himport.1.1 Kind.noConfusion

theorem renameEdits_eq (h : binds s new = false) : renameEdits s old new =
    (s.root.places.filterMap fun p => calledBelow? s old p <|> importedBelow? s old p).map
      fun p => replacing p.node new := by
  rw [renameEdits, h]
  refine filterMap_walk fun p => ?_
  rw [renameCallOrImport_eq, ← map_node_calledBelow?, ← map_node_importedBelow?]
  cases calledBelow? s old p <;> rfl

theorem hookCallEdits_eq : hookCallEdits s =
    (s.root.places.filterMap (calledBelow? s "useNavigate")).map
      fun p => replacing p.node "useRouter" :=
  filterMap_walk fun p => by
    rw [map_node_calledBelow?]
    exact edit_ofName (calledName? s p.node)

theorem hookEdits_eq (h : binds s "useRouter" = false) (hne : hookEdits s ≠ []) : hookEdits s =
    (s.root.places.filterMap (calledBelow? s "useNavigate") ++
      s.root.places.filterMap (importedBelow? s "useNavigate")).map
        fun p => replacing p.node "useRouter" := by
  unfold hookEdits at hne ⊢
  dsimp only at hne ⊢
  -- Imports are renamed beside calls only, and where there are edits there are calls.
  have hcalls : (hookCallEdits s).isEmpty = false := by
    cases hcalls : hookCallEdits s with
    | nil => simp [hcalls] at hne
    | cons e rest => rfl
  have himports : s.root.walk.filterMap (hookImportEdit? s) =
      (s.root.places.filterMap (importedBelow? s "useNavigate")).map
        fun p => replacing p.node "useRouter" :=
    filterMap_walk fun p => by
      rw [map_node_importedBelow?]
      exact edit_ofName (plainlyImported? s p.node)
  rw [hcalls, h, if_neg (by decide), himports, hookCallEdits_eq, List.map_append]

end Places

/-! ### Renaming together -/

/-- A rule that renames a function. -/
inductive IsRenaming : RewriteRule → String → String → Prop
  | mapped (old new : String) : IsRenaming (renameRule old new) old new
  | hook : IsRenaming hookRule "useNavigate" "useRouter"

/-- A rule that renames a function edits the names that are called and those that are plainly imported. -/
theorem exists_renamed {rule : RewriteRule} {old new : String} (hrule : IsRenaming rule old new)
    {v : RuleView} (hnew : binds v.source new = false) {edits : List Edit}
    (hedits : (rule.rewrite v).edits = .ok edits) (hne : edits ≠ []) :
    ∃ renamed : List Place, edits = renamed.map (fun p => replacing p.node new) ∧
      ∀ p, p ∈ renamed ↔
        p ∈ v.source.root.places ∧ (Called v.source old p ∨ PlainlyImported v.source old p) := by
  cases hrule with
  | mapped =>
    obtain rfl := Except.ok.inj hedits
    refine ⟨_, renameEdits_eq hnew, fun p => ?_⟩
    rw [List.mem_filterMap, and_or_left, ← exists_calledBelow?_iff, ← exists_importedBelow?_iff,
      ← exists_or]
    refine exists_congr fun q => ?_
    rw [← and_or_left]
    refine and_congr_right fun _ => ?_
    -- The alternative of the two rules loses nothing, since no node fits both.
    cases h : calledBelow? v.source old q with
    | none => simp
    | some q' => simp [importedBelow?_of_calledBelow? h]
  | hook =>
    obtain rfl := Except.ok.inj hedits
    refine ⟨_, hookEdits_eq hnew hne, fun p => ?_⟩
    rw [List.mem_append, List.mem_filterMap, List.mem_filterMap, exists_calledBelow?_iff,
      exists_importedBelow?_iff, and_or_left]

/-- Every name changes exactly if what it means does. -/
def RenamedTogether (s : Source) (old : String) (renamed : List Place) : Prop :=
  ∀ d u, s.Binds old d u → (u ∈ renamed ↔ d ∈ renamed)

/-- **What is renamed together.**  Where no import binds the new name, a rule that renames a function
and edits anything edits the names that are called and the names that are plainly imported, all of them
and nothing else.  Then every name changes with what it means exactly if those uses are called that mean
a plain import, and no others. -/
theorem renamed_together_iff {rule : RewriteRule} {old new : String} (hrule : IsRenaming rule old new)
    {v : RuleView} (hnew : binds v.source new = false) {edits : List Edit}
    (hedits : (rule.rewrite v).edits = .ok edits) (hne : edits ≠ []) :
    ∃ renamed : List Place, edits = renamed.map (fun p => replacing p.node new) ∧
      (∀ p, p ∈ renamed ↔
        p ∈ v.source.root.places ∧ (Called v.source old p ∨ PlainlyImported v.source old p)) ∧
      (RenamedTogether v.source old renamed ↔ ∀ d u, v.source.Binds old d u →
        (Called v.source old u ↔ PlainlyImported v.source old d)) := by
  obtain ⟨renamed, hrenamed, hmem⟩ := exists_renamed hrule hnew hedits hne
  refine ⟨renamed, hrenamed, hmem, forall₂_congr fun d u => forall_congr' fun hbinds => ?_⟩
  obtain ⟨hd, hu, -⟩ := hbinds
  simp only [Source.declarations, Source.uses, List.mem_filter, Bool.and_eq_true] at hd hu
  -- A use is imported nowhere, and a declaration is called nowhere.
  have hu' : u ∈ renamed ↔ Called v.source old u := by
    rw [hmem]
    refine ⟨fun h => h.2.resolve_right fun himported => ?_, fun h => ⟨hu.1, .inl h⟩⟩
    have hnone : u.reach? = none := by simpa using hu.2.1.1.2
    simpa [hnone] using himported.isSome_reach?
  have hd' : d ∈ renamed ↔ PlainlyImported v.source old d := by
    rw [hmem]
    refine ⟨fun h => h.2.resolve_left fun hcalled => ?_, fun h => ⟨hd.1, .inr h⟩⟩
    simpa [hcalled.reach?_eq_none] using hd.2.1
  rw [hu', hd']

section

attribute [local instance] Module.Salvage.stopping

/-- A text in which all uses of an imported function are calls. -/
def calledText : String :=
  "import \x7b useNavigate \x7d from \"router\";\nconst go = () => useNavigate();\n"

/-- What a rule looks at in that text. -/
def calledView : RuleView := ⟨Source.parse calledText "a.js" none, {}, { path := "a.js" }⟩

theorem renamed_together_calledText :
    binds calledView.source "useRouter" = false ∧ hookEdits calledView.source ≠ [] ∧
    ∃ renamed : List Place,
      hookEdits calledView.source = renamed.map (fun p => replacing p.node "useRouter") ∧
      (∀ p, p ∈ renamed ↔ p ∈ calledView.source.root.places ∧
        (Called calledView.source "useNavigate" p ∨ PlainlyImported calledView.source "useNavigate" p)) ∧
      RenamedTogether calledView.source "useNavigate" renamed := by
  have hnew : binds calledView.source "useRouter" = false := by decide +kernel
  have hne : hookEdits calledView.source ≠ [] := by decide +kernel
  have huses : ∀ d ∈ calledView.source.declarations "useNavigate",
      ∀ u ∈ calledView.source.uses "useNavigate",
        Called calledView.source "useNavigate" u ↔
          PlainlyImported calledView.source "useNavigate" d := by decide +kernel
  obtain ⟨renamed, hrenamed, hmem, htogether⟩ := renamed_together_iff .hook hnew rfl hne
  exact ⟨hnew, hne, renamed, hrenamed, hmem,
    htogether.2 fun d u hbinds => huses d hbinds.1 u hbinds.2.1⟩

/-- A text in which an imported function is called and also passed on. -/
def registeringText : String :=
  "import \x7b useStore \x7d from \"vuex\";\nconst s = useStore();\nregister(useStore);\n"

/-- That text, parsed. -/
def registering : Source := Source.parse registeringText "src/x.js" (some "JavaScript")

/-- The import and the call get the new name, and the name that is passed on keeps the old one, which
nothing declares any longer. -/
theorem registering_split :
    registering.hasError = false ∧
    (∀ n ∈ registering.root.preorder, registering.nodeText n ≠ "useAppStore") ∧
    ∃ d u, registering.Binds "useStore" d u ∧
      replacing d.node "useAppStore" ∈ renameEdits registering "useStore" "useAppStore" ∧
      replacing u.node "useAppStore" ∉ renameEdits registering "useStore" "useAppStore" := by
  have h : registering.hasError = false ∧
      (∀ n ∈ registering.root.preorder, registering.nodeText n ≠ "useAppStore") ∧
      ∃ d ∈ registering.declarations "useStore", ∃ u ∈ registering.uses "useStore",
        d.home <:+ u.path ∧
        (∀ d' ∈ registering.declarations "useStore",
          d'.home <:+ u.path → d'.home.length ≤ d.home.length) ∧
        replacing d.node "useAppStore" ∈ renameEdits registering "useStore" "useAppStore" ∧
        replacing u.node "useAppStore" ∉ renameEdits registering "useStore" "useAppStore" := by
    decide +kernel
  obtain ⟨hparses, habsent, d, hd, u, hu, hhome, hnearest, hedits⟩ := h
  exact ⟨hparses, habsent, d, u, ⟨hd, hu, hhome, hnearest⟩, hedits⟩

end

end WebMigration.Rewrite
