import Mathlib.Data.List.Perm.Subperm
import WebMigration.Proofs.Rules.Usage
import WebMigration.Proofs.Syntax.Grammar.Statement

/-!
# Uses of a name and reports of them

The tree counts lines by line feeds and columns by bytes, the text by line ends and characters.  Where
both counts agree, a use that the tree knows is one that the scan of the text finds.
-/

namespace WebMigration

open Syntax
open WebMigration.Module (Source)

namespace Usage

variable {code path name : String} {language : Option String} {s : Source} {v : Node.Visit} {u : Node}
  {p : Place} {file front back : List Char}

/-! ### Uses -/

/-- A visit of a tree finds a node that is a use of a name. -/
structure Uses (s : Source) (name : String) (v : Node.Visit) (u : Node) : Prop where
  visited : v ∈ s.root.visits
  used : usedNode? v = some u
  text : s.nodeText u = name

/-- Whether a use hangs from a name with a colon.  What a call names does not. -/
def isColoned (v : Node.Visit) : Bool := v.node.kind != .callExpression && Node.isBare v.parent

/-- A name that no import has as its module is used in the tree at the places of its uses. -/
theorem mem_inTree (himport : ∀ r ∈ s.references, r.source ≠ name) :
    (name, p) ∈ inTree s ↔ ∃ v u, Uses s name v u ∧ placeOf s u = p := by
  have himported : (name, p) ∉ s.references.map fun r => (r.source, (⟨r.line, r.column + 1⟩ : Place)) := by
    intro h
    obtain ⟨r, hr, heq⟩ := List.mem_map.1 h
    exact himport r hr (congrArg Prod.fst heq)
  rw [inTree, List.mem_append, or_iff_left himported, List.mem_map]
  constructor
  · rintro ⟨u, hu, heq⟩
    obtain ⟨hname, hplace⟩ := Prod.mk.inj heq
    obtain ⟨v, hv, hused⟩ := List.mem_filterMap.1 hu
    exact ⟨v, u, ⟨hv, hused, hname⟩, hplace⟩
  · rintro ⟨v, u, hu, rfl⟩
    exact ⟨u, List.mem_filterMap.2 ⟨v, hu.visited, hu.used⟩, by rw [hu.text]⟩

/-- A use is a node of the tree or a child of one. -/
theorem within_of_usedNode? (hv : v.node.Within file) (h : usedNode? v = some u) : u.Within file := by
  unfold usedNode? at h
  split at h
  · exact hv.of_child? (Option.filter_eq_some_iff.1 h).1
  · split at h
    · exact Option.some.inj h ▸ hv
    · cases h
  · split at h
    · exact Option.some.inj h ▸ hv
    · cases h
  · cases h

/-- A use is a name or an access to a member. -/
theorem kind_of_usedNode? (h : usedNode? v = some u) :
    u.kind.isName = true ∨ u.kind = .memberExpression := by
  unfold usedNode? at h
  split at h
  · have hkind := (Option.filter_eq_some_iff.1 h).2
    rw [Bool.or_eq_true, beq_iff_eq, beq_iff_eq] at hkind
    exact hkind.imp_left fun hidentifier => by rw [hidentifier]; rfl
  · rename_i hkind
    split at h
    · exact .inl (Option.some.inj h ▸ by rw [hkind]; rfl)
    · cases h
  · rename_i hkind
    split at h
    · exact .inl (Option.some.inj h ▸ by rw [hkind]; rfl)
    · cases h
  · cases h

/-- In a settled tree a use stands apart unless it hangs from a name with a colon. -/
theorem standsApart_of_usedNode? (hv : Node.Settled file (Node.isBare v.parent) v.node)
    (h : usedNode? v = some u) (hcolon : isColoned v = false) : u.StandsApart file := by
  unfold usedNode? at h
  rw [isColoned, Bool.and_eq_false_iff, bne_eq_false_iff_eq] at hcolon
  split at h
  · rename_i hcall
    have hchild := hv.child (List.mem_of_find?_eq_some (Option.filter_eq_some_iff.1 h).1)
    rw [hcall] at hchild
    exact hchild.own
  · rename_i hkind
    rw [hkind] at hcolon
    split at h
    · exact Option.some.inj h ▸ (hcolon.resolve_left nofun ▸ hv).own
    · cases h
  · rename_i hkind
    rw [hkind] at hcolon
    split at h
    · exact Option.some.inj h ▸ (hcolon.resolve_left nofun ▸ hv).own
    · cases h
  · cases h

/-- A use of a name has the name as its text. -/
theorem Uses.exists_text [Module.Salvage]
    (hparses : (Source.parse code path language).hasError = false)
    (h : Uses (Source.parse code path language) name v u) (hname : name ≠ "") :
    ∃ front back, code.toList = front ++ (name.toList ++ back) ∧ byteSize front = u.start ∧
      byteSize (front ++ name.toList) = u.stop := by
  have hroot := (Source.parse_root_within hparses).of_mem_visits h.visited
  have hwithin := within_of_usedNode? hroot.1 h.used
  have htext := h.text
  rw [Source.nodeText, Source.parse_content] at htext
  obtain ⟨front, back, hcode, hstart, hstop⟩ :=
    Text.exists_of_between hwithin.here.start hwithin.here.stop htext hname
  exact ⟨front, back, hcode, hstart, hstop⟩

/-- A name whose node stands apart does so as a text. -/
theorem apart_of_standsApart (hu : u.StandsApart file)
    (hkind : u.kind.isName = true ∨ u.kind = .memberExpression) (hname : IsName name.toList)
    (hfile : front ++ (name.toList ++ back) = file) (hstart : byteSize front = u.start)
    (hstop : byteSize (front ++ name.toList) = u.stop) : Apart front name.toList back := by
  have hfile' : front ++ name.toList ++ back = file := by rw [List.append_assoc, hfile]
  have hopen : ¬ Shut (name.toList ++ back) := by
    obtain ⟨c, rest, hcs⟩ := List.exists_cons_of_ne_nil hname.ne_nil
    rw [hcs]
    intro h
    have hcs' : name.toList = [] ++ c :: rest := hcs
    rcases hname.part_or_dot hcs' with hpart | ⟨-, init, d, hinit, -⟩
    · exact absurd (h c rfl) (by rw [hpart]; decide)
    · exact absurd hinit.symm (by simp)
  rcases hkind with hkind | hkind
  · obtain ⟨hloose, hshut, hundotted⟩ := hu.name hkind
    have hnone := hundotted front name.toList back hfile hstart hstop
    exact ⟨(hloose front _ hfile hstart).resolve_left hopen, fun hdot => absurd hdot hnone,
      hshut _ back hfile' hstop⟩
  · obtain ⟨hfree, hshut⟩ := hu.member hkind
    have hfree := (hfree front _ hfile hstart).resolve_left hopen
    exact ⟨hfree.loose, fun _ => hfree, hshut _ back hfile' hstop⟩

/-! ### Places -/

/-- The place of a node that the tree tells is the one in the lines of the text exactly if both counts
agree up to there. -/
theorem placeOf_eq_iff [Module.Salvage] {front back : List Char} (hcode : code.toList = front ++ back)
    (hstart : byteSize front = u.start) :
    placeOf (Source.parse code path language) u = placeAfter front ↔ Text.InStep front := by
  have hpoint : (Source.parse code path language).point u = Text.pointAfter ⟨0, 0⟩ front := by
    rw [Source.point, Source.parse_content, Module.Content.point, Module.Content.ofString,
      Text.toUTF8_toList, ← hstart, hcode, Text.pointAt_bytesOf]
  have hsame : Text.pointAfter ⟨0, 0⟩ front =
      ⟨(Text.afterLines 0 [] front).1, (Text.afterLines 0 [] front).2.length⟩ ↔ Text.InStep front := by
    simpa using Text.pointAfter_eq_iff (Nat.le_refl 0) (Nat.le_refl ([] : List Char).length)
  rw [placeOf, placeAfter, hpoint, Text.afterLines_succ]
  generalize Text.pointAfter ⟨0, 0⟩ front = point at hsame
  obtain ⟨line, column⟩ := point
  simpa using hsame

/-- A use stands in the text, where the scan finds it unless it hangs from a name with a colon; the tree
tells the same place exactly if both counts agree up to there. -/
theorem Uses.exists_place [Module.Salvage]
    (hparses : (Source.parse code path language).hasError = false)
    (h : Uses (Source.parse code path language) name v u) (hname : IsName name.toList) :
    ∃ front back, code.toList = front ++ (name.toList ++ back) ∧ byteSize front = u.start ∧
      (isColoned v = false → placeAfter front ∈ inText code name) ∧
      (placeOf (Source.parse code path language) u = placeAfter front ↔ Text.InStep front) := by
  have hne : name ≠ "" := fun hnil => hname.ne_nil (hnil ▸ rfl)
  obtain ⟨front, back, hcode, hstart, hstop⟩ := h.exists_text hparses hne
  refine ⟨front, back, hcode, hstart, fun hcolon => ?_, placeOf_eq_iff hcode hstart⟩
  have hroot := (Source.parseAs_root_settled hparses).of_mem_visits h.visited
  have hapart := standsApart_of_usedNode? hroot h.used hcolon
  exact placeAfter_mem_inText
    (apart_of_standsApart hapart (kind_of_usedNode? h.used) hname hcode.symm hstart hstop) hname hcode

/-- All places where a name is used are those of the tree and those of the text. -/
theorem mem_places {uses : List (String × Place)} :
    p ∈ places code uses name ↔ (name, p) ∈ uses ∨ p ∈ inText code name := by
  have hfound : p ∈ (uses.filter (·.1 == name)).map (·.2) ↔ (name, p) ∈ uses := by
    simp
  rw [places, List.mem_append, List.mem_filter, hfound]
  by_cases h : (name, p) ∈ uses <;> simp [h]

end Usage

namespace RuleSet

open Usage

variable {r : RuleSet} {s : Source} {code path id name : String} {f : Violation}

/-- The key of a finding at a place. -/
def keyAt (id : String) (p : Place) : Int × Int × String := (p.line, p.column, id)

theorem keyAt_inj {p q : Place} : keyAt id p = keyAt id q ↔ p = q := by
  obtain ⟨line, column⟩ := p
  obtain ⟨line', column'⟩ := q
  simp only [keyAt, Prod.mk.injEq, Int.natCast_inj, and_true, Place.mk.injEq]

/-- Only one breaking change or deprecation has an id, and it is about one name. -/
inductive Watches (rules : MigrationRules) (id name : String) : Prop
  | change {c : BreakingChange} {front back : List BreakingChange}
      (changes : rules.breakingChanges = front ++ c :: back) (own : c.id = id)
      (names : c.affectedApis = [name]) (others : ∀ d ∈ front ++ back, d.id ≠ id)
      (deprecations : ∀ d ∈ rules.deprecations, d.id ≠ id)
  | deprecation {d : Deprecation} {front back : List Deprecation}
      (deprecations : rules.deprecations = front ++ d :: back) (own : d.id = id)
      (name : d.deprecated = name) (others : ∀ e ∈ front ++ back, e.id ≠ id)
      (changes : ∀ c ∈ rules.breakingChanges, c.id ≠ id)

/-- No finding about something to transform or to remove has an id. -/
def Unshared (r : RuleSet) (s : Source) (path id : String) : Prop :=
  ∀ f ∈ transformation s r.rules r.profile path ++ removal s r.rules path, f.id ≠ id

theorem mem_breakages {uses : List (String × Place)} {changes : List BreakingChange} :
    f ∈ breakages code path uses changes ↔ ∃ c ∈ changes, ∃ name ∈ c.affectedApis,
      ∃ p ∈ places code uses name, breakage path c p = f := by
  simp only [breakages, List.mem_flatMap, List.mem_map]

theorem mem_deprecatedUses {uses : List (String × Place)} {deprecations : List Deprecation} :
    f ∈ deprecatedUses code path uses deprecations ↔ ∃ d ∈ deprecations,
      ∃ p ∈ places code uses d.deprecated, deprecatedUse path d p = f := by
  simp only [deprecatedUses, List.mem_flatMap, List.mem_map]

/-- The keys with an id that is watched for are those of the places where its name is used. -/
theorem mem_findings_iff (hwatches : Watches r.rules id name) (hunshared : r.Unshared s path id)
    {key : Int × Int × String} :
    (∃ f ∈ r.findings s code path, f.id = id ∧ f.key = key) ↔
      ∃ p ∈ places code (inTree s) name, keyAt id p = key := by
  have hlast : ∀ f, f ∈ r.findings s code path ∧ f.id = id ↔
      (f ∈ r.broken s code path ∨ f ∈ r.deprecated s code path) ∧ f.id = id := by
    intro f
    rw [findings_eq, ← List.append_assoc, List.mem_append, List.mem_append (s := r.broken _ _ _),
      or_and_right]
    exact or_iff_right fun h => hunshared f h.1 h.2
  simp only [← and_assoc, hlast]
  cases hwatches with
  | @change c front back hchanges hown hnames hothers hdeprecations =>
    constructor
    · rintro ⟨f, ⟨h | h, hid⟩, rfl⟩
      · obtain ⟨c', hc', name', hname', p, hp, rfl⟩ := mem_breakages.1 h
        obtain rfl : c' = c := by
          rw [hchanges, List.mem_append, List.mem_cons, or_left_comm, ← List.mem_append] at hc'
          exact hc'.resolve_right fun hmem => hothers c' hmem hid
        rw [hnames, List.mem_singleton] at hname'
        exact ⟨p, hname' ▸ hp, by rw [keyAt, ← hown]; rfl⟩
      · obtain ⟨d, hd, p, hp, rfl⟩ := mem_deprecatedUses.1 h
        exact absurd hid (hdeprecations d hd)
    · rintro ⟨p, hp, rfl⟩
      refine ⟨breakage path c p, ⟨.inl ?_, hown⟩, by rw [keyAt, ← hown]; rfl⟩
      exact mem_breakages.2 ⟨c, by simp [hchanges], name, by simp [hnames], p, hp, rfl⟩
  | @deprecation d front back hdeprecations hown hname hothers hchanges =>
    constructor
    · rintro ⟨f, ⟨h | h, hid⟩, rfl⟩
      · obtain ⟨c, hc, name', -, p, -, rfl⟩ := mem_breakages.1 h
        exact absurd hid (hchanges c hc)
      · obtain ⟨d', hd', p, hp, rfl⟩ := mem_deprecatedUses.1 h
        obtain rfl : d' = d := by
          rw [hdeprecations, List.mem_append, List.mem_cons, or_left_comm, ← List.mem_append] at hd'
          exact hd'.resolve_right fun hmem => hothers d' hmem hid
        exact ⟨p, hname ▸ hp, by rw [keyAt, ← hown]; rfl⟩
    · rintro ⟨p, hp, rfl⟩
      refine ⟨deprecatedUse path d p, ⟨.inr ?_, hown⟩, by rw [keyAt, ← hown]; rfl⟩
      exact mem_deprecatedUses.2 ⟨d, by simp [hdeprecations], p, hname ▸ hp, rfl⟩

/-! ### Reports -/

/-- The keys of the findings with an id that a verdict reports. -/
def reportedKeys (verdict : RuleVerdict) (id : String) : List (Int × Int × String) :=
  (verdict.violations.filter (·.id == id)).map (·.key)

theorem nodup_reportedKeys [Module.Salvage] (r : RuleSet) (code path id : String) :
    (reportedKeys (r.validate code path) id).Nodup :=
  ((List.filter_sublist).map _).nodup (validate_suppresses r code path).1

/-- An id that is watched for is reported at the places where its name is used, and nowhere else. -/
theorem mem_reportedKeys [Module.Salvage]
    (hparses : (Source.parse code path r.language).hasError = false)
    (hwatches : Watches r.rules id name)
    (hunshared : r.Unshared (Source.parse code path r.language) path id) {key : Int × Int × String} :
    key ∈ reportedKeys (r.validate code path) id ↔
      ∃ p ∈ places code (inTree (Source.parse code path r.language)) name, keyAt id p = key := by
  have hreported := ((validate_suppresses r code path).2.2 hparses).1
  rw [← mem_findings_iff hwatches hunshared, reportedKeys, List.mem_map]
  constructor
  · rintro ⟨v, hv, rfl⟩
    obtain ⟨hv, hid⟩ := List.mem_filter.1 hv
    exact ⟨v, ((hreported v).1 hv).mem, beq_iff_eq.1 hid, rfl⟩
  · rintro ⟨f, hf, hid, rfl⟩
    obtain ⟨v, hv, hkey⟩ := Violation.exists_isFirst hf
    have hvid : v.id = f.id := congrArg (·.2.2) hkey
    exact ⟨v, List.mem_filter.2 ⟨(hreported v).2 hv, beq_iff_eq.2 (hvid.trans hid)⟩, hkey⟩

/-- The keys of the places that the scan of the text finds. -/
def scannedKeys (code name id : String) : List (Int × Int × String) := (inText code name).map (keyAt id)

theorem nodup_scannedKeys (code name id : String) : (scannedKeys code name id).Nodup :=
  (nodup_inText code name).map fun _ _ h => keyAt_inj.1 h

/-- What the scan finds is reported. -/
theorem scannedKeys_subset [Module.Salvage]
    (hparses : (Source.parse code path r.language).hasError = false)
    (hwatches : Watches r.rules id name)
    (hunshared : r.Unshared (Source.parse code path r.language) path id) :
    scannedKeys code name id ⊆ reportedKeys (r.validate code path) id := by
  intro key hkey
  obtain ⟨p, hp, rfl⟩ := List.mem_map.1 hkey
  exact (mem_reportedKeys hparses hwatches hunshared).2 ⟨p, mem_places.2 (.inr hp), rfl⟩

/-- There are as many reports as occurrences exactly if the tree finds no place that the scan does not. -/
theorem length_reportedKeys_iff [Module.Salvage]
    (hparses : (Source.parse code path r.language).hasError = false)
    (hwatches : Watches r.rules id name)
    (hunshared : r.Unshared (Source.parse code path r.language) path id) :
    (∀ p, (name, p) ∈ inTree (Source.parse code path r.language) → p ∈ inText code name) ↔
      (reportedKeys (r.validate code path) id).length = (inText code name).length := by
  have hscanned := scannedKeys_subset hparses hwatches hunshared
  have hsubperm := List.subperm_of_subset (nodup_scannedKeys code name id) hscanned
  have hlength : (scannedKeys code name id).length = (inText code name).length := List.length_map _
  rw [← hlength]
  constructor
  · intro hall
    refine Nat.le_antisymm ?_ hsubperm.length_le
    refine (List.subperm_of_subset (nodup_reportedKeys r code path id) fun key hkey => ?_).length_le
    obtain ⟨p, hp, rfl⟩ := (mem_reportedKeys hparses hwatches hunshared).1 hkey
    exact List.mem_map_of_mem ((mem_places.1 hp).elim (hall p) fun h => h)
  · intro hcount p hp
    have hperm := hsubperm.perm_of_length_le (Nat.le_of_eq hcount)
    have hkey := (mem_reportedKeys hparses hwatches hunshared).2 ⟨p, mem_places.2 (.inl hp), rfl⟩
    obtain ⟨q, hq, heq⟩ := List.mem_map.1 (hperm.mem_iff.2 hkey)
    exact keyAt_inj.1 heq ▸ hq

/-- Where both counts agree up to every use, and none hangs from a name with a colon, every occurrence
is reported once. -/
theorem length_reportedKeys_of_inStep [Module.Salvage]
    (hparses : (Source.parse code path r.language).hasError = false)
    (hname : IsName name.toList)
    (himport : ∀ ref ∈ (Source.parse code path r.language).references, ref.source ≠ name)
    (hwatches : Watches r.rules id name)
    (hunshared : r.Unshared (Source.parse code path r.language) path id)
    (hstep : ∀ v u, Uses (Source.parse code path r.language) name v u → isColoned v = false ∧
      ∀ front back, code.toList = front ++ (name.toList ++ back) → byteSize front = u.start →
        Text.InStep front) :
    (reportedKeys (r.validate code path) id).length = (inText code name).length := by
  refine (length_reportedKeys_iff hparses hwatches hunshared).1 fun p hp => ?_
  obtain ⟨v, u, huse, rfl⟩ := (mem_inTree himport).1 hp
  obtain ⟨hcolon, hall⟩ := hstep v u huse
  obtain ⟨front, back, hcode, hstart, hfound, hsame⟩ := huse.exists_place hparses hname
  exact hsame.2 (hall front back hcode hstart) ▸ hfound hcolon

/-- **The tree and the text as two ways to find a name.** -/
theorem reported_iff [Module.Salvage] (r : RuleSet) (code path id name : String)
    (hparses : (Source.parse code path r.language).hasError = false) (hname : IsName name.toList)
    (himport : ∀ ref ∈ (Source.parse code path r.language).references, ref.source ≠ name)
    (hwatches : Watches r.rules id name)
    (hunshared : r.Unshared (Source.parse code path r.language) path id) :
    let s := Source.parse code path r.language
    let reported := reportedKeys (r.validate code path) id
    reported.Nodup ∧ scannedKeys code name id ⊆ reported ∧
    (∀ p, (name, p) ∈ inTree s ↔ ∃ v u, Uses s name v u ∧ placeOf s u = p) ∧
    (∀ v u, Uses s name v u → ∃ front back, code.toList = front ++ (name.toList ++ back) ∧
      byteSize front = u.start ∧ (isColoned v = false → placeAfter front ∈ inText code name) ∧
      (placeOf s u = placeAfter front ↔ Text.InStep front)) ∧
    ((∀ p, (name, p) ∈ inTree s → p ∈ inText code name) ↔
      reported.length = (inText code name).length) :=
  ⟨nodup_reportedKeys r code path id, scannedKeys_subset hparses hwatches hunshared,
    fun _ => mem_inTree himport, fun _ _ h => h.exists_place hparses hname,
    length_reportedKeys_iff hparses hwatches hunshared⟩

section

attribute [local instance] Module.Salvage.stopping

/-- A rule against one name. -/
def rulesOnCall : RuleSet where
  rules := { breakingChanges := [{ id := "x", affectedApis := ["f"] }] }

/-- A call after characters of several bytes. -/
def shiftedText : String := "/* é */ f();\n"

/-- The file parses, and the name is not that of a module. -/
theorem reported_iff_shifted :
    (Source.parse shiftedText "a.js" none).hasError = false ∧ IsName "f".toList ∧
    (∀ ref ∈ (Source.parse shiftedText "a.js" none).references, ref.source ≠ "f") ∧
    Watches rulesOnCall.rules "x" "f" ∧
    rulesOnCall.Unshared (Source.parse shiftedText "a.js" none) "a.js" "x" ∧
    (reportedKeys (rulesOnCall.validate shiftedText "a.js") "x").Nodup := by
  have hparses : (Source.parse shiftedText "a.js" none).hasError = false := by decide +kernel
  have hname : IsName "f".toList := by
    refine .identifier ⟨⟨'f', rfl, rfl⟩, fun c hc => ?_⟩
    obtain rfl : c = 'f' := by simpa using hc
    exact ⟨rfl, rfl⟩
  have himport : ∀ ref ∈ (Source.parse shiftedText "a.js" none).references, ref.source ≠ "f" := by
    decide +kernel
  have hwatches : Watches rulesOnCall.rules "x" "f" :=
    .change (show _ = [] ++ { id := "x", affectedApis := ["f"] } :: [] from rfl) rfl rfl nofun nofun
  have hunshared : rulesOnCall.Unshared (Source.parse shiftedText "a.js" none) "a.js" "x" := by
    unfold Unshared
    decide +kernel
  exact ⟨hparses, hname, himport, hwatches, hunshared,
    (reported_iff rulesOnCall shiftedText "a.js" "x" "f" hparses hname himport hwatches hunshared).1⟩

theorem call_reported_twice :
    (Source.parse shiftedText "a.js" none).hasError = false ∧
    inTree (Source.parse shiftedText "a.js" none) = [("f", ⟨1, 10⟩)] ∧
    inText shiftedText "f" = [⟨1, 9⟩] ∧
    reportedKeys (rulesOnCall.validate shiftedText "a.js") "x" = [(1, 10, "x"), (1, 9, "x")] := by
  decide +kernel

end

end RuleSet

end WebMigration
