import WebMigration.Proofs.Lane.Link
import WebMigration.Proofs.Rewrite.Simultaneous
import WebMigration.Proofs.Syntax.Grammar.Statement
import WebMigration.Rewrite.Rename

/-!
# Rules that do not conflict with themselves

The edits of one built-in rule never overlap.  They come from nested elements, from the closing tag that
belongs to an opening one, from two walks over the tree and from the place where an import is added; but
each gives one name a new text, or stands between the statements of the file, and the names stand beside
each other.  So all edits are applied, and the two tags of an element are renamed together or not at all.
-/

/-! ## Edits of names -/

namespace WebMigration.Rewrite

open Syntax
open WebMigration.Module (Source)

/-- Edits of a text that do not conflict: they lie in it, no two overlap, and all of them are applied, in
the order of their ranges. -/
structure Compatible (source : List UInt8) (edits : List Edit) : Prop where
  inRange : ∀ e ∈ edits, e.InRange source.length
  apart : edits.Pairwise Edit.Apart
  applied : ∃ sorted, sorted.Perm edits ∧ (sorted.Pairwise fun a b => a.stop ≤ b.start) ∧
    Edit.applyBytes source edits = Edit.replaced source 0 sorted

/-- The tree of a file is formed as the grammar says and ends in the file. -/
structure InForm (s : Source) : Prop where
  grammatical : s.root.Grammatical
  stop_le : s.root.stop ≤ s.content.list.length

variable {s : Source} {edits edits' : List Edit} {old new : String} {bound : Bool}
  {pick : Node → List Node} {n x y : Node}

namespace Compatible

variable {source : List UInt8}

theorem of_apart (hrange : ∀ e ∈ edits, e.InRange source.length) (hapart : edits.Pairwise Edit.Apart) :
    Compatible source edits := by
  have hreplaces := Edit.replaces_applyBytes hrange
  have hparts := hreplaces.parts
  rw [hreplaces.dropped_eq_nil hrange hapart, List.append_nil] at hparts
  exact ⟨hrange, hapart, _, hparts.symm, hreplaces.apart, hreplaces.result_eq⟩

theorem of_perm (h : Compatible source edits) (hperm : edits'.Perm edits) : Compatible source edits' :=
  of_apart (fun e he => h.inRange e (hperm.mem_iff.1 he))
    ((hperm.pairwise_iff Edit.Apart.symm).2 h.apart)

/-- One more edit that does not overlap with any other. -/
theorem concat (h : Compatible source edits) {e : Edit} (he : e.InRange source.length)
    (hapart : ∀ e' ∈ edits, e'.Apart e) : Compatible source (edits ++ [e]) := by
  refine of_apart (fun e' he' => ?_) ?_
  · rcases List.mem_append.1 he' with he' | he'
    · exact h.inRange e' he'
    · exact List.mem_singleton.1 he' ▸ he
  · refine List.pairwise_append.2 ⟨h.apart, List.pairwise_singleton _ _, fun e' he' e'' he'' => ?_⟩
    exact List.mem_singleton.1 he'' ▸ hapart e' he'

end Compatible

/-! ### Names that get a new text -/

theorem apart_replacing (h : x.Beside y) : (replacing x new).Apart (replacing y new) :=
  h.imp Int.ofNat_le.2 Int.ofNat_le.2

theorem InForm.inRange_replacing (h : InForm s) (hx : x.LiesIn s.root) :
    (replacing x new).InRange s.content.list.length :=
  ⟨Int.natCast_nonneg _, Int.ofNat_le.2 hx.start_le_stop,
    Int.ofNat_le.2 (Nat.le_trans hx.stop_le h.stop_le)⟩

/-- The edits that give picked names a new text. -/
def editsOf (pick : Node → List Node) (s : Source) (new : String) : List Edit :=
  (s.root.preorder.flatMap pick).map (replacing · new)

theorem mem_editsOf {e : Edit} :
    e ∈ editsOf pick s new ↔ ∃ m ∈ s.root.preorder, ∃ x ∈ pick m, replacing x new = e := by
  simp only [editsOf, List.mem_map, List.mem_flatMap]
  constructor
  · rintro ⟨x, ⟨m, hm, hx⟩, rfl⟩
    exact ⟨m, hm, x, hx, rfl⟩
  · rintro ⟨m, hm, x, hx, rfl⟩
    exact ⟨x, ⟨m, hm, hx⟩, rfl⟩

theorem compatible_editsOf (hpick : Node.Picks pick) (h : InForm s) :
    Compatible s.content.list (editsOf pick s new) := by
  refine .of_apart (fun e he => ?_) ?_
  · obtain ⟨m, hm, x, hx, rfl⟩ := mem_editsOf.1 he
    exact h.inRange_replacing (hpick.liesIn h.grammatical hm hx)
  · exact List.pairwise_map.2 ((hpick.pairwise_beside h.grammatical).imp apart_replacing)

/-- Edits that are made node by node, each of a name that is picked there. -/
theorem filterMap_eq_editsOf {edit? : Node → Option Edit}
    (h : ∀ n, (edit? n).toList = (pick n).map (replacing · new)) :
    s.root.walk.filterMap edit? = editsOf pick s new := by
  rw [Node.walk_eq_preorder, editsOf, List.map_flatMap, List.filterMap_eq_flatMap_toList]
  exact congrArg s.root.preorder.flatMap (funext h)

/-! ### Calls and imports -/

/-- The name of a function that a node calls. -/
def calledAs (s : Source) (old : String) (n : Node) : List Node :=
  (((calledName? s n).filter (·.2 == old)).map (·.1)).toList

/-- The name of a function that a node imports under this name. -/
def importedAs (s : Source) (old : String) (n : Node) : List Node :=
  (((plainlyImported? s n).filter (·.2 == old)).map (·.1)).toList

theorem mem_calledAs (h : x ∈ calledAs s old n) :
    n.kind = .callExpression ∧ x ∈ n.children ∧ x.kind = .identifier := by
  obtain ⟨p, hp, rfl⟩ := Option.map_eq_some_iff.1 (Option.mem_toList.1 h)
  have hp := (Option.filter_eq_some_iff.1 hp).1
  unfold calledName? at hp
  split at hp
  · rename_i hkind
    obtain ⟨f, hf, rfl⟩ := Option.map_eq_some_iff.1 hp
    obtain ⟨hf, hname⟩ := Option.filter_eq_some_iff.1 hf
    exact ⟨beq_iff_eq.1 hkind, List.mem_of_find?_eq_some hf, beq_iff_eq.1 hname⟩
  · cases hp

theorem mem_importedAs (h : x ∈ importedAs s old n) :
    n.kind = .importSpecifier ∧ n.child? .name = some x := by
  obtain ⟨p, hp, rfl⟩ := Option.map_eq_some_iff.1 (Option.mem_toList.1 h)
  have hp := (Option.filter_eq_some_iff.1 hp).1
  unfold plainlyImported? at hp
  split at hp
  · rename_i hkind
    obtain ⟨name, hname, rfl⟩ := Option.map_eq_some_iff.1 hp
    rw [Bool.and_eq_true] at hkind
    exact ⟨beq_iff_eq.1 hkind.1, hname⟩
  · cases hp

/-- The names of a function that a node calls or, unless `bound`, imports. -/
def functionNames (s : Source) (bound : Bool) (old : String) (n : Node) : List Node :=
  calledAs s old n ++ if bound then [] else importedAs s old n

theorem mem_functionNames (h : x ∈ functionNames s bound old n) :
    x ∈ calledAs s old n ∨ x ∈ importedAs s old n := by
  rcases List.mem_append.1 h with h | h
  · exact .inl h
  · split at h
    · cases h
    · exact .inr h

theorem picks_functionNames : Node.Picks (functionNames s bound old) where
  holder n _ x hx := by
    rcases mem_functionNames hx with hx | hx
    · rw [(mem_calledAs hx).1]
      rfl
    · rw [(mem_importedAs hx).1]
      rfl
  spot n hn x hx := by
    rcases mem_functionNames hx with hx | hx
    · obtain ⟨-, hchild, hkind⟩ := mem_calledAs hx
      exact .child hchild ((hn.child hchild).simple hkind)
    · obtain ⟨hkind, hname⟩ := mem_importedAs hx
      exact .child (List.mem_of_find?_eq_some hname) (hn.formed.name (by rw [hkind]; rfl) x hname)
  beside n _ := by
    refine List.pairwise_append.2 ⟨Option.pairwise_toList, ?_, fun x hx y hy => ?_⟩
    · split
      · exact .nil
      · exact Option.pairwise_toList
    · split at hy
      · cases hy
      · have hkind := (mem_calledAs hx).1
        rw [(mem_importedAs hy).1] at hkind
        cases hkind

/-- The edit of a name that was found, if it is the old one. -/
theorem toList_replacing (found : Option (Node × String)) :
    (match found with
      | some (n, name) => if name == old then some (replacing n new) else none
      | none => none).toList =
      ((found.filter (·.2 == old)).map (·.1)).toList.map (replacing · new) := by
  rcases found with _ | ⟨n, name⟩
  · rfl
  · by_cases hname : name = old <;> simp [Option.filter_some, hname]

theorem renameEdits_eq_editsOf : renameEdits s old new = editsOf (functionNames s (binds s new) old) s new := by
  refine filterMap_eq_editsOf fun n => ?_
  unfold renameCallOrImport functionNames
  rcases hcalled : calledName? s n with _ | p
  · have hnone : calledAs s old n = [] := by rw [calledAs, hcalled]; rfl
    rw [hnone, List.nil_append]
    dsimp only
    split
    · rfl
    · exact toList_replacing (plainlyImported? s n)
  · have hkind : n.kind = .callExpression := by
      unfold calledName? at hcalled
      split at hcalled
      · exact beq_iff_eq.1 ‹_›
      · cases hcalled
    have hnone : importedAs s old n = [] := by simp [importedAs, plainlyImported?, hkind]
    rw [hnone, ite_self, List.append_nil, calledAs, hcalled]
    exact toList_replacing (some p)

/-! ### Tags -/

/-- The name of a tag, if it is the old one. -/
def tagsNamed (s : Source) (old : String) (n : Node) : List Node :=
  if isTag n then ((n.child? .name).filter (s.nodeText · == old)).toList else []

theorem kind_of_isTag (h : isTag n = true) : n.kind = .jsxOpeningElement ∨
    n.kind = .jsxSelfClosingElement ∨ n.kind = .jsxClosingElement := by
  simpa [isTag, isOpeningTag, or_assoc] using h

theorem mem_tagsNamed :
    x ∈ tagsNamed s old n ↔ isTag n = true ∧ n.child? .name = some x ∧ s.nodeText x = old := by
  unfold tagsNamed
  split <;> simp [*]

/-- The name of a tag is a simple child of it. -/
theorem spot_tagName (hn : n.Grammatical) (htag : isTag n = true) (hname : n.child? .name = some x) :
    Node.Spot pick n x := by
  refine .child (List.mem_of_find?_eq_some hname) (hn.formed.name ?_ x hname)
  rcases kind_of_isTag htag with h | h | h <;> rw [h] <;> rfl

theorem holdsName_of_isTag (h : isTag n = true) : n.kind.holdsName = true := by
  rcases kind_of_isTag h with h | h | h <;> rw [h] <;> rfl

theorem picks_tagsNamed : Node.Picks (tagsNamed s old) where
  holder _ _ _ hx := holdsName_of_isTag (mem_tagsNamed.1 hx).1
  spot _ hn _ hx := spot_tagName hn (mem_tagsNamed.1 hx).1 (mem_tagsNamed.1 hx).2.1
  beside n _ := by
    unfold tagsNamed
    split
    · exact Option.pairwise_toList
    · exact .nil

theorem renameTagEdits_eq_editsOf : renameTagEdits s old new = editsOf (tagsNamed s old) s new := by
  refine filterMap_eq_editsOf fun n => ?_
  unfold renameTag tagsNamed
  split
  · rcases n.child? .name with _ | name
    · rfl
    · by_cases hname : s.nodeText name = old <;> simp [Option.filter_some, hname]
  · rfl

end WebMigration.Rewrite

/-! ## The rules of the lane -/

namespace WebMigration.Lane.AppRouter

open Syntax
open WebMigration.Module (Salvage Source)
open Rewrite

variable {s : Source} {n c o x y : Node}

/-! ### Addresses and hooks -/

/-- The name of the address of a link of the router. -/
def addressNames (s : Source) (n : Node) : List Node :=
  if isOpeningTag n && tagName s n == "Link" then ((property? s n "to").map (·.2)).toList else []

theorem addressEdits_eq_editsOf : addressEdits s = editsOf (addressNames s) s "href" := by
  refine filterMap_eq_editsOf fun n => ?_
  unfold addressEdit? addressNames
  split
  · rcases property? s n "to" with _ | ⟨p, name⟩ <;> rfl
  · rfl

/-- A property is an attribute of its tag, and its name comes first in it. -/
theorem property?_eq_some {name : String} {p : Node} (h : property? s n name = some (p, x)) :
    p ∈ n.children ∧ p.kind = .jsxAttribute ∧ p.namedChildren.head? = some x := by
  obtain ⟨child, hchild, h⟩ := List.exists_of_findSome?_eq_some h
  split at h
  · rename_i hkind
    split at h
    · rename_i first hfirst
      split at h
      · cases h
        exact ⟨(List.mem_filter.1 hchild).1, beq_iff_eq.1 hkind, hfirst⟩
      · cases h
    · cases h
  · cases h

theorem mem_addressNames (h : x ∈ addressNames s n) : isTag n = true ∧
    ∃ p ∈ n.children, p.kind = .jsxAttribute ∧ p.namedChildren.head? = some x := by
  unfold addressNames at h
  split at h
  · rename_i htag
    obtain ⟨⟨p, _⟩, hp, rfl⟩ := Option.map_eq_some_iff.1 (Option.mem_toList.1 h)
    rw [Bool.and_eq_true] at htag
    exact ⟨by rw [isTag, htag.1, Bool.true_or], p, property?_eq_some hp⟩
  · cases h

theorem picks_addressNames : Node.Picks (addressNames s) where
  holder _ _ _ hx := holdsName_of_isTag (mem_addressNames hx).1
  spot n hn x hx := by
    obtain ⟨-, p, hp, hkind, hfirst⟩ := mem_addressNames hx
    have hnone : addressNames s p = [] := by
      simp [addressNames, isOpeningTag, hkind]
    obtain ⟨y, rest, hchildren, hnamed, -, hsimple⟩ := (hn.child hp).formed.property hkind
    have hyx : y = x := by
      unfold Node.namedChildren at hfirst
      rw [hchildren, List.filter_cons_of_pos hnamed] at hfirst
      exact Option.some.inj hfirst
    refine .grandchild p (Node.mem_parts.2 ⟨hp, by rw [hkind]; decide⟩) hnone ?_ (hyx ▸ hsimple)
    rw [hchildren, hyx]
    exact List.mem_cons_self
  beside n _ := by
    unfold addressNames
    split
    · exact Option.pairwise_toList
    · exact .nil

/-- All edits of the hook come from one pick of names at each node, though in another order. -/
theorem exists_hookEdits_perm (s : Source) :
    ∃ bound, (hookEdits s).Perm (editsOf (functionNames s bound "useNavigate") s "useRouter") := by
  have hcalls : hookCallEdits s = editsOf (calledAs s "useNavigate") s "useRouter" :=
    filterMap_eq_editsOf fun n => toList_replacing (calledName? s n)
  have himports : s.root.walk.filterMap (hookImportEdit? s) =
      editsOf (importedAs s "useNavigate") s "useRouter" :=
    filterMap_eq_editsOf fun n => toList_replacing (plainlyImported? s n)
  unfold hookEdits
  rw [hcalls, himports]
  dsimp only
  split
  · refine ⟨true, .of_eq (congrArg (editsOf · s "useRouter") (funext fun n => ?_))⟩
    exact (List.append_nil _).symm
  · refine ⟨false, ?_⟩
    unfold editsOf functionNames
    rw [← List.map_append]
    exact (List.flatMap_append_perm _ _ _).map _

/-! ### Links -/

/-- The name of a plain link. -/
def ownNames (s : Source) (n : Node) : List Node :=
  if isPlainLink s n then (n.child? .name).toList else []

/-- The name of the closing tag that belongs to a plain link below an element. -/
def pairedNames (s : Source) (n : Node) (parent : Option Node) : List Node :=
  if isPlainLink s n && (n.child? .name).isSome then (closingName? n parent).toList else []

/-- The names that plain links at a node and right below it have. -/
def linkNames (s : Source) (n : Node) : List Node :=
  ownNames s n ++ n.children.flatMap fun c => pairedNames s c (some n)

theorem linkEdits_eq (v : Node.Visit) :
    linkEdits s v = (ownNames s v.node ++ pairedNames s v.node v.parent).map (replacing · "Link") := by
  unfold linkEdits ownNames pairedNames
  split
  · rename_i hlink
    rcases hname : v.node.child? .name with _ | name
    · simp
    · rcases closingName? v.node v.parent with _ | close <;> simp [hlink]
  · rename_i hlink
    simp [hlink]

section Walks

open Node

variable {β : Type} (own : Node → List β) (paired : Node → Option Node → List β)

mutual

theorem flatMap_visitsUnder : ∀ (parent : Option Node) (n : Node),
    ((n.visitsUnder parent).flatMap fun v => own v.node ++ paired v.node v.parent).Perm
      (paired n parent ++
        n.preorder.flatMap fun m => own m ++ m.children.flatMap fun c => paired c (some m))
  | parent, ⟨kind, field, start, stop, children⟩ => by
    rw [visitsUnder, preorder, List.flatMap_cons, List.flatMap_cons]
    dsimp only
    have hchildren := flatMap_visitsUnderList (some ⟨kind, field, start, stop, children⟩) children
    refine ((List.perm_append_comm).append hchildren).trans ?_
    simp only [List.append_assoc]
    exact .refl _

theorem flatMap_visitsUnderList : ∀ (parent : Option Node) (nodes : List Node),
    ((visitsUnderList parent nodes).flatMap fun v => own v.node ++ paired v.node v.parent).Perm
      (nodes.flatMap (paired · parent) ++
        (preorderList nodes).flatMap fun m => own m ++ m.children.flatMap fun c => paired c (some m))
  | parent, [] => by
    rw [visitsUnderList, preorderList]
    exact .refl _
  | parent, n :: rest => by
    rw [visitsUnderList, preorderList, List.flatMap_append, List.flatMap_append, List.flatMap_cons]
    refine ((flatMap_visitsUnder parent n).append (flatMap_visitsUnderList parent rest)).trans ?_
    simp only [List.append_assoc]
    refine List.Perm.append_left _ ?_
    simp only [← List.append_assoc]
    exact (List.perm_append_comm).append_right _

end

end Walks

/-- The edits of links, from the names at each node. -/
theorem linkEdits_perm :
    (s.root.visits.flatMap (linkEdits s)).Perm (editsOf (linkNames s) s "Link") := by
  have hedits : s.root.visits.flatMap (linkEdits s) =
      (s.root.visits.flatMap fun v => ownNames s v.node ++ pairedNames s v.node v.parent).map
        (replacing · "Link") := by
    rw [List.map_flatMap]
    exact congrArg s.root.visits.flatMap (funext linkEdits_eq)
  -- The root hangs from nothing that could have a closing tag.
  have hroot : pairedNames s s.root none = [] := by
    unfold pairedNames closingName?
    split
    · split <;> rfl
    · rfl
  have hvisits := flatMap_visitsUnder (ownNames s) (pairedNames s) none s.root
  rw [hroot, List.nil_append] at hvisits
  rw [hedits]
  exact hvisits.map _

theorem isTag_of_isOpeningTag (h : isOpeningTag n = true) : isTag n = true := by
  rw [isTag, h, Bool.true_or]

theorem isOpeningTag_of_isPlainLink (h : isPlainLink s n = true) : isOpeningTag n = true := by
  simp only [isPlainLink, Bool.and_eq_true] at h
  exact h.1.1

theorem mem_ownNames :
    x ∈ ownNames s n ↔ isPlainLink s n = true ∧ n.child? .name = some x := by
  unfold ownNames
  split <;> simp [*]

theorem mem_pairedNames : x ∈ pairedNames s c (some n) ↔
    isPlainLink s c = true ∧ (c.child? .name).isSome = true ∧ c.kind = .jsxOpeningElement ∧
      ∃ close, n.child? .closeTag = some close ∧ close.child? .name = some x := by
  unfold pairedNames closingName?
  split
  · rename_i h
    rw [Bool.and_eq_true] at h
    split
    · rename_i hkind
      simp [h, beq_iff_eq.1 hkind, Option.bind_eq_some_iff]
    · rename_i hkind
      simp only [Option.toList_none, List.not_mem_nil, false_iff]
      exact fun ⟨_, _, hopening, _⟩ => hkind (beq_iff_eq.2 hopening)
  · rename_i h
    rw [Bool.and_eq_true] at h
    simp only [List.not_mem_nil, false_iff]
    exact fun ⟨hlink, hname, _⟩ => h ⟨hlink, hname⟩

theorem mem_linkNames : x ∈ linkNames s n ↔
    x ∈ ownNames s n ∨ ∃ c ∈ n.children, x ∈ pairedNames s c (some n) := by
  rw [linkNames, List.mem_append, List.mem_flatMap]

/-! ### Elements -/

/-- The opening and the closing tag of an element. -/
structure Tags (n opening closing : Node) : Prop where
  kind : n.kind = .jsxElement
  openings : n.children.filter (·.kind == .jsxOpeningElement) = [opening]
  closings : n.children.filter (·.kind == .jsxClosingElement) = [closing]
  closing : n.child? .closeTag = some closing

namespace Tags

variable {k : Node}

theorem opening_mem (h : Tags n o k) : o ∈ n.children ∧ o.kind = .jsxOpeningElement := by
  have hmem : o ∈ n.children.filter (·.kind == .jsxOpeningElement) := h.openings ▸ List.mem_cons_self
  exact ⟨(List.mem_filter.1 hmem).1, beq_iff_eq.1 (List.mem_filter.1 hmem).2⟩

theorem closing_mem (h : Tags n o k) : k ∈ n.children ∧ k.kind = .jsxClosingElement := by
  have hmem : k ∈ n.children.filter (·.kind == .jsxClosingElement) := h.closings ▸ List.mem_cons_self
  exact ⟨(List.mem_filter.1 hmem).1, beq_iff_eq.1 (List.mem_filter.1 hmem).2⟩

theorem eq_opening (h : Tags n o k) (hc : c ∈ n.children) (hkind : c.kind = .jsxOpeningElement) :
    c = o := by
  have hmem : c ∈ n.children.filter (·.kind == .jsxOpeningElement) :=
    List.mem_filter.2 ⟨hc, beq_iff_eq.2 hkind⟩
  rw [h.openings] at hmem
  exact List.mem_singleton.1 hmem

end Tags

theorem exists_tags (hn : n.Formed) (hkind : n.kind = .jsxElement) : ∃ o k, Tags n o k := by
  obtain ⟨hopening, hclosing, k, hk, hkkind⟩ := hn.element hkind
  rw [List.countP_eq_length_filter] at hopening hclosing
  obtain ⟨o, hopenings⟩ := List.length_eq_one_iff.1 hopening
  obtain ⟨k', hclosings⟩ := List.length_eq_one_iff.1 hclosing
  have hmem : k ∈ n.children.filter (·.kind == .jsxClosingElement) :=
    List.mem_filter.2 ⟨List.mem_of_find?_eq_some hk, beq_iff_eq.2 hkkind⟩
  obtain rfl : k = k' := by
    rw [hclosings] at hmem
    exact List.mem_singleton.1 hmem
  exact ⟨o, k, hkind, hopenings, hclosings, hk⟩

/-- Opening tags hang from elements only. -/
theorem kind_of_opening_child (hn : n.Formed) (hc : c ∈ n.children)
    (hkind : c.kind = .jsxOpeningElement) : n.kind = .jsxElement := by
  by_contra hother
  have htag := hn.tags hother c hc
  rw [hkind] at htag
  cases htag

/-- The name of the closing tag of an element. -/
def closingNames (n : Node) : List Node :=
  if n.kind == .jsxElement then ((n.child? .closeTag).bind (·.child? .name)).toList else []

theorem mem_closingNames : x ∈ closingNames n ↔
    n.kind = .jsxElement ∧ ∃ close, n.child? .closeTag = some close ∧ close.child? .name = some x := by
  unfold closingNames
  split <;> simp_all [Option.bind_eq_some_iff]

/-- The name of a closing tag is below an element, one step further down. -/
theorem spot_closingName {pick : Node → List Node} (hn : n.Grammatical)
    (hnone : ∀ close ∈ n.children, close.kind = .jsxClosingElement → pick close = []) (hx : x ∈ closingNames n) :
    Node.Spot pick n x := by
  obtain ⟨hkind, close, hclose, hname⟩ := mem_closingNames.1 hx
  obtain ⟨o, k, htags⟩ := exists_tags hn.formed hkind
  obtain rfl : close = k := Option.some.inj (hclose.symm.trans htags.closing)
  obtain ⟨hmem, hclosing⟩ := htags.closing_mem
  refine .grandchild close (Node.mem_parts.2 ⟨hmem, by rw [hclosing]; decide⟩) (hnone close hmem hclosing)
    (List.mem_of_find?_eq_some hname) ?_
  exact (hn.child hmem).formed.name (by rw [hclosing]; rfl) x hname

theorem picks_closingNames : Node.Picks closingNames where
  holder n _ x hx := by
    rw [(mem_closingNames.1 hx).1]
    rfl
  spot n hn x hx :=
    spot_closingName hn (fun close _ hclose => by rw [closingNames, hclose]; rfl) hx
  beside n _ := by
    unfold closingNames
    split
    · exact Option.pairwise_toList
    · exact .nil

/-- What is paired with a plain link is the name of the closing tag of its element. -/
theorem mem_closingNames_of_paired (hn : n.Formed) (hc : c ∈ n.children)
    (hx : x ∈ pairedNames s c (some n)) : x ∈ closingNames n := by
  obtain ⟨-, -, hopening, hclose⟩ := mem_pairedNames.1 hx
  exact mem_closingNames.2 ⟨kind_of_opening_child hn hc hopening, hclose⟩

theorem linkNames_closing (hkind : n.kind = .jsxClosingElement) (hn : n.Formed) :
    linkNames s n = [] := by
  refine List.eq_nil_iff_forall_not_mem.2 fun x hx => ?_
  rcases mem_linkNames.1 hx with hx | ⟨c, hc, hx⟩
  · have hopening := isOpeningTag_of_isPlainLink (mem_ownNames.1 hx).1
    simp [isOpeningTag, hkind] at hopening
  · have helement := (mem_closingNames.1 (mem_closingNames_of_paired hn hc hx)).1
    rw [hkind] at helement
    cases helement

theorem flatMap_eq_flatMap_filter {α β : Type} {p : α → Bool} {f : α → List β} {l : List α}
    (h : ∀ a ∈ l, ¬ p a = true → f a = []) : l.flatMap f = (l.filter p).flatMap f := by
  induction l with
  | nil => rfl
  | cons a rest ih =>
    obtain ⟨ha, hrest⟩ := List.forall_mem_cons.1 h
    by_cases hp : p a = true
    · rw [List.filter_cons_of_pos hp, List.flatMap_cons, List.flatMap_cons, ih hrest]
    · rw [List.filter_cons_of_neg hp, List.flatMap_cons, ha hp, List.nil_append, ih hrest]

/-- At one node there is one name at most: its own if it is a tag, that of a closing tag if it is an
element. -/
theorem pairwise_linkNames (hn : n.Formed) : (linkNames s n).Pairwise Node.Beside := by
  by_cases hkind : n.kind = .jsxElement
  · obtain ⟨o, k, htags⟩ := exists_tags hn hkind
    have hown : ownNames s n = [] := by
      refine List.eq_nil_iff_forall_not_mem.2 fun x hx => ?_
      have hopening := isOpeningTag_of_isPlainLink (mem_ownNames.1 hx).1
      simp [isOpeningTag, hkind] at hopening
    have hpaired : (n.children.flatMap fun c => pairedNames s c (some n)) =
        pairedNames s o (some n) := by
      rw [flatMap_eq_flatMap_filter (p := (·.kind == .jsxOpeningElement)) fun c _ hother =>
        List.eq_nil_iff_forall_not_mem.2 fun x hx =>
          hother (beq_iff_eq.2 (mem_pairedNames.1 hx).2.2.1), htags.openings, List.flatMap_singleton]
    rw [linkNames, hown, hpaired, List.nil_append]
    unfold pairedNames
    split
    · exact Option.pairwise_toList
    · exact .nil
  · have hpaired : (n.children.flatMap fun c => pairedNames s c (some n)) = [] := by
      refine List.flatMap_eq_nil_iff.2 fun c hc => List.eq_nil_iff_forall_not_mem.2 fun x hx => ?_
      exact hkind (mem_closingNames.1 (mem_closingNames_of_paired hn hc hx)).1
    rw [linkNames, hpaired, List.append_nil]
    unfold ownNames
    split
    · exact Option.pairwise_toList
    · exact .nil

theorem picks_linkNames : Node.Picks (linkNames s) where
  holder n hn x hx := by
    rcases mem_linkNames.1 hx with hx | ⟨c, hc, hx⟩
    · exact holdsName_of_isTag
        (isTag_of_isOpeningTag (isOpeningTag_of_isPlainLink (mem_ownNames.1 hx).1))
    · rw [(mem_closingNames.1 (mem_closingNames_of_paired hn.formed hc hx)).1]
      rfl
  spot n hn x hx := by
    rcases mem_linkNames.1 hx with hx | ⟨c, hc, hx⟩
    · obtain ⟨hlink, hname⟩ := mem_ownNames.1 hx
      exact spot_tagName hn (isTag_of_isOpeningTag (isOpeningTag_of_isPlainLink hlink)) hname
    · exact spot_closingName hn
        (fun close hclose hkind => linkNames_closing hkind (hn.child hclose).formed)
        (mem_closingNames_of_paired hn.formed hc hx)
  beside _ hn := pairwise_linkNames hn.formed

/-! ### The import of links -/

/-- The place where an import is added is the start of the file or the end of one of its statements. -/
theorem insertImport_place (root : Node) (line : String) :
    ∃ k, (insertImport root line).start = (k : ℕ) ∧ (insertImport root line).stop = (k : ℕ) ∧
      (k = 0 ∨ ∃ c ∈ root.parts, k = c.stop) := by
  have hpart : ∀ c ∈ root.namedChildren, c.kind ≠ .comment → c ∈ root.parts := fun c hc hkind =>
    Node.mem_parts.2 ⟨(List.mem_filter.1 hc).1, hkind⟩
  unfold insertImport
  dsimp only
  split
  · rename_i last hlast
    obtain ⟨hlast, hkind⟩ := List.mem_filter.1 (List.mem_of_mem_getLast? hlast)
    refine ⟨last.stop, rfl, rfl, .inr ⟨last, hpart last hlast ?_, rfl⟩⟩
    rw [beq_iff_eq.1 hkind]
    decide
  · split
    · rename_i offset hoffset
      obtain ⟨c, hc, rfl⟩ := Option.map_eq_some_iff.1 hoffset
      have hkind := List.find?_some hc
      rw [Bool.and_eq_true, beq_iff_eq] at hkind
      refine ⟨c.stop, rfl, rfl, .inr ⟨c, hpart c (List.mem_of_find?_eq_some hc) ?_, rfl⟩⟩
      rw [hkind.1]
      decide
    · exact ⟨0, rfl, rfl, .inl rfl⟩

/-- Whatever is picked below the root stands before or behind that place. -/
theorem apart_insertImport {pick : Node → List Node} (hpick : Node.Picks pick) (h : InForm s)
    (line new : String) : ∀ e ∈ editsOf pick s new, e.Apart (insertImport s.root line) := by
  intro e he
  obtain ⟨m, hm, x, hx, rfl⟩ := mem_editsOf.1 he
  obtain ⟨c, hc, hin⟩ := hpick.exists_part h.grammatical hm hx
  obtain ⟨k, hstart, hstop, hk⟩ := insertImport_place s.root line
  have hplace : x.stop ≤ k ∨ k ≤ x.start := by
    rcases hk with rfl | ⟨d, hd, rfl⟩
    · exact .inr (Nat.zero_le _)
    · by_cases hne : c = d
      · exact .inl (hne ▸ hin.stop_le)
      · have hbeside := h.grammatical.formed.row.beside hc hd hne
        have hle := (h.grammatical.liesIn_of_mem_parts hd).start_le_stop
        rcases hbeside with hbefore | hbehind
        · exact .inl (Nat.le_trans hin.stop_le (Nat.le_trans hbefore hle))
        · exact .inr (Nat.le_trans hbehind hin.start_le)
  unfold Edit.Apart
  rw [hstart, hstop]
  exact hplace.imp Int.ofNat_le.2 Int.ofNat_le.2

theorem inRange_insertImport (h : InForm s) (line : String) :
    (insertImport s.root line).InRange s.content.list.length := by
  obtain ⟨k, hstart, hstop, hk⟩ := insertImport_place s.root line
  have hle : k ≤ s.content.list.length := by
    rcases hk with rfl | ⟨d, hd, rfl⟩
    · exact Nat.zero_le _
    · exact Nat.le_trans (h.grammatical.liesIn_of_mem_parts hd).stop_le h.stop_le
  refine ⟨?_, ?_, ?_⟩
  · rw [hstart]
    exact Int.natCast_nonneg k
  · exact Int.le_of_eq (hstart.trans hstop.symm)
  · rw [hstop]
    exact Int.ofNat_le.2 hle

theorem compatible_anchorEdits (h : InForm s) : Compatible s.content.list (anchorEdits s) := by
  have hlinks : Compatible s.content.list (editsOf (linkNames s) s "Link") :=
    compatible_editsOf picks_linkNames h
  unfold anchorEdits
  dsimp only
  split
  · exact hlinks.of_perm linkEdits_perm
  · exact (hlinks.concat (inRange_insertImport h _) (apart_insertImport picks_linkNames h _ _)).of_perm
      (linkEdits_perm.append_right _)

/-! ### Tags in step -/

theorem replacing_eq_iff {new : String} : replacing x new = replacing y new ↔ x.span = y.span := by
  simp only [replacing, Edit.replacing, Node.span, Edit.mk.injEq, Span.mk.injEq, Int.natCast_inj,
    and_true]

/-- The edits of links rename the same names as the picks at each node. -/
theorem replacing_mem_anchorEdits :
    replacing x "Link" ∈ anchorEdits s ↔ ∃ m ∈ s.root.preorder, ∃ y ∈ linkNames s m, y.span = x.span := by
  have hlinks : replacing x "Link" ∈ s.root.visits.flatMap (linkEdits s) ↔
      ∃ m ∈ s.root.preorder, ∃ y ∈ linkNames s m, y.span = x.span := by
    simp only [linkEdits_perm.mem_iff, mem_editsOf, replacing_eq_iff]
  unfold anchorEdits
  dsimp only
  split
  · exact hlinks
  · rw [List.mem_append, List.mem_singleton, ← hlinks]
    refine or_iff_left fun himport => ?_
    exact replacement_linkImport (s := s) (congrArg Edit.replacement himport).symm

/-- For every element, of which the names of both tags have one text, both names get a new text or
neither does. -/
def TagsInStep (s : Source) (edits : List Edit) (new : String) : Prop :=
  ∀ n ∈ s.root.preorder, ∀ opening closing, Tags n opening closing →
    ∀ a ∈ opening.child? .name, ∀ b ∈ closing.child? .name, s.nodeText a = s.nodeText b →
      (replacing a new ∈ edits ↔ replacing b new ∈ edits)

theorem nodeText_congr (h : x.span = y.span) : s.nodeText x = s.nodeText y := by
  obtain ⟨hstart, hstop⟩ : x.start = y.start ∧ x.stop = y.stop := Span.mk.inj h
  unfold Source.nodeText Module.Content.text
  rw [hstart, hstop]

/-- A name of a tag is renamed exactly if it is the old one. -/
theorem replacing_mem_renameTagEdits {old new : String} {m : Node} (hm : m ∈ s.root.preorder)
    (htag : isTag m = true) (hx : m.child? .name = some x) :
    replacing x new ∈ renameTagEdits s old new ↔ s.nodeText x = old := by
  rw [renameTagEdits_eq_editsOf, mem_editsOf]
  constructor
  · rintro ⟨m', -, y, hy, hspan⟩
    rw [← nodeText_congr (replacing_eq_iff.1 hspan)]
    exact (mem_tagsNamed.1 hy).2.2
  · exact fun hold => ⟨m, hm, x, mem_tagsNamed.2 ⟨htag, hx, hold⟩, rfl⟩

theorem mem_preorder_of_child {root : Node} (hn : n ∈ root.preorder) (hc : c ∈ n.children) :
    c ∈ root.preorder := by
  rw [← Node.map_node_places] at hn ⊢
  obtain ⟨p, hp, rfl⟩ := List.mem_map.1 hn
  obtain ⟨index, hindex⟩ := List.mem_iff_getElem?.1 hc
  exact List.mem_map.2 ⟨_, Node.below_mem_places hp hindex, rfl⟩

theorem tagsInStep_renameTagEdits (old new : String) :
    TagsInStep s (renameTagEdits s old new) new := by
  intro n hn o k htags a ha b hb hsame
  obtain ⟨ho, hokind⟩ := htags.opening_mem
  obtain ⟨hk, hkkind⟩ := htags.closing_mem
  rw [replacing_mem_renameTagEdits (mem_preorder_of_child hn ho) (by simp [isTag, isOpeningTag, hokind]) ha,
    replacing_mem_renameTagEdits (mem_preorder_of_child hn hk) (by simp [isTag, hkkind]) hb, hsame]

section Steps

variable {k m a b : Node}

/-- A range is the name of one tag only. -/
theorem eq_of_tagName (h : InForm s) (hm : m ∈ s.root.preorder) (hn : n ∈ s.root.preorder)
    (hmtag : isTag m = true) (hntag : isTag n = true) (hx : m.child? .name = some x)
    (hy : n.child? .name = some y) (hspan : x.span = y.span) : m = n := by
  have hxm : x ∈ tagsNamed s (s.nodeText y) m := mem_tagsNamed.2 ⟨hmtag, hx, nodeText_congr hspan⟩
  have hyn : y ∈ tagsNamed s (s.nodeText y) n := mem_tagsNamed.2 ⟨hntag, hy, rfl⟩
  exact picks_tagsNamed.eq_of_span_eq h.grammatical hm hn hxm hyn hspan

/-- The closing tag that a closing name belongs to. -/
theorem exists_closing (h : InForm s) (hm : m ∈ s.root.preorder) (hx : x ∈ closingNames m) :
    ∃ o k, Tags m o k ∧ k ∈ s.root.preorder ∧ isTag k = true ∧ k.child? .name = some x := by
  obtain ⟨hkind, close, hclose, hname⟩ := mem_closingNames.1 hx
  obtain ⟨o, k, htags⟩ := exists_tags (h.grammatical m hm) hkind
  obtain rfl : close = k := Option.some.inj (hclose.symm.trans htags.closing)
  obtain ⟨hmem, hclosing⟩ := htags.closing_mem
  exact ⟨o, close, htags, mem_preorder_of_child hm hmem, by simp [isTag, hclosing], hname⟩

/-- The opening name of an element is renamed exactly if its opening tag is a plain link. -/
theorem replacing_opening_mem (h : InForm s) (hn : n ∈ s.root.preorder) (htags : Tags n o k)
    (ha : o.child? .name = some a) : replacing a "Link" ∈ anchorEdits s ↔ isPlainLink s o = true := by
  obtain ⟨ho, hokind⟩ := htags.opening_mem
  have hoin := mem_preorder_of_child hn ho
  have hotag : isTag o = true := by simp [isTag, isOpeningTag, hokind]
  rw [replacing_mem_anchorEdits]
  constructor
  · rintro ⟨m, hm, y, hy, hspan⟩
    rcases mem_linkNames.1 hy with hy | ⟨c, hc, hy⟩
    · obtain ⟨hlink, hname⟩ := mem_ownNames.1 hy
      have hmtag := isTag_of_isOpeningTag (isOpeningTag_of_isPlainLink hlink)
      rwa [← eq_of_tagName h hm hoin hmtag hotag hname ha hspan]
    · obtain ⟨o', k', htags', hkin, hktag, hname⟩ :=
        exists_closing h hm (mem_closingNames_of_paired (h.grammatical m hm) hc hy)
      have hsame := eq_of_tagName h hkin hoin hktag hotag hname ha hspan
      have hkkind := htags'.closing_mem.2
      rw [hsame, hokind] at hkkind
      cases hkkind
  · exact fun hlink => ⟨o, hoin, a, mem_linkNames.2 (.inl (mem_ownNames.2 ⟨hlink, ha⟩)), rfl⟩

/-- So is the closing name, if the opening tag has a name. -/
theorem replacing_closing_mem (h : InForm s) (hn : n ∈ s.root.preorder) (htags : Tags n o k)
    (ha : o.child? .name = some a) (hb : k.child? .name = some b) :
    replacing b "Link" ∈ anchorEdits s ↔ isPlainLink s o = true := by
  obtain ⟨ho, hokind⟩ := htags.opening_mem
  obtain ⟨hk, hkkind⟩ := htags.closing_mem
  have hkin := mem_preorder_of_child hn hk
  have hktag : isTag k = true := by simp [isTag, hkkind]
  have hbn : b ∈ closingNames n := mem_closingNames.2 ⟨htags.kind, k, htags.closing, hb⟩
  rw [replacing_mem_anchorEdits]
  constructor
  · rintro ⟨m, hm, y, hy, hspan⟩
    rcases mem_linkNames.1 hy with hy | ⟨c, hc, hy⟩
    · obtain ⟨hlink, hname⟩ := mem_ownNames.1 hy
      have hopening := isOpeningTag_of_isPlainLink hlink
      rw [eq_of_tagName h hm hkin (isTag_of_isOpeningTag hopening) hktag hname hb hspan] at hopening
      simp [isOpeningTag, hkkind] at hopening
    · have hym := mem_closingNames_of_paired (h.grammatical m hm) hc hy
      obtain ⟨hlink, -, hckind, -⟩ := mem_pairedNames.1 hy
      obtain rfl : m = n := picks_closingNames.eq_of_span_eq h.grammatical hm hn hym hbn hspan
      rwa [← htags.eq_opening hc hckind]
  · refine fun hlink => ⟨n, hn, b, mem_linkNames.2 (.inr ⟨o, ho, ?_⟩), rfl⟩
    exact mem_pairedNames.2 ⟨hlink, Option.isSome_of_mem ha, hokind, k, htags.closing, hb⟩

theorem tagsInStep_anchorEdits (h : InForm s) : TagsInStep s (anchorEdits s) "Link" := by
  intro n hn o k htags a ha b hb _
  rw [replacing_opening_mem h hn htags ha, replacing_closing_mem h hn htags ha hb]

end Steps

/-! ### All rules -/

/-- The rules that rewrite by themselves. -/
inductive BuiltIn : RewriteRule → Prop
  | anchor : BuiltIn anchorRule
  | address : BuiltIn addressRule
  | hook : BuiltIn hookRule
  | function (old new : String) : BuiltIn (renameRule old new)
  | tag (old new : String) : BuiltIn (renameTagRule old new)

/-- The rules that give tags a new name. -/
inductive RenamesTags : RewriteRule → String → Prop
  | anchor : RenamesTags anchorRule "Link"
  | tag (old new : String) : RenamesTags (renameTagRule old new) new

/-- The tree of every file that parses is in the form of the grammar. -/
theorem inForm_parseAs [Salvage] {dialect : Dialect} {text path : String}
    (h : (Source.parseAs dialect text path).hasError = false) :
    InForm (Source.parseAs dialect text path) := by
  refine ⟨(Source.parseAs_root_settled h).grammatical, ?_⟩
  have hcontent : (Source.parseAs dialect text path).content.list = Text.bytesOf text.toList := by
    rw [Source.parseAs_content]
    exact Text.toUTF8_toList text
  rw [hcontent, Text.length_bytesOf]
  exact (Source.parseAs_root_within h).here.stop.le

variable {rule : RewriteRule} {v : RuleView}

theorem exists_compatible (hrule : BuiltIn rule) (h : InForm v.source) :
    ∃ edits, (rule.rewrite v).edits = .ok edits ∧ Compatible v.source.content.list edits := by
  cases hrule with
  | anchor => exact ⟨_, rfl, compatible_anchorEdits h⟩
  | address => exact ⟨_, rfl, addressEdits_eq_editsOf ▸ compatible_editsOf picks_addressNames h⟩
  | hook =>
    obtain ⟨bound, hperm⟩ := exists_hookEdits_perm v.source
    exact ⟨_, rfl, (compatible_editsOf picks_functionNames h).of_perm hperm⟩
  | function old new => exact ⟨_, rfl, renameEdits_eq_editsOf ▸ compatible_editsOf picks_functionNames h⟩
  | tag old new => exact ⟨_, rfl, renameTagEdits_eq_editsOf ▸ compatible_editsOf picks_tagsNamed h⟩

theorem tagsInStep_of_renamesTags {new : String} (hrule : RenamesTags rule new) (h : InForm v.source)
    {edits : List Edit} (hedits : (rule.rewrite v).edits = .ok edits) :
    TagsInStep v.source edits new := by
  cases hrule with
  | anchor =>
    cases hedits
    exact tagsInStep_anchorEdits h
  | tag old new =>
    cases hedits
    exact tagsInStep_renameTagEdits old _

/-- **No built-in rule conflicts with itself.**  The trees of all files that parse are in the form of the
grammar.  On every such tree a rule gives edits that lie in the file, of which no two overlap, so that all
of them are applied; and the two tags of an element that have one name get a new one together. -/
theorem builtIn_compatible [Salvage] :
    (∀ dialect text path, (Source.parseAs dialect text path).hasError = false →
        InForm (Source.parseAs dialect text path)) ∧
      ∀ rule, BuiltIn rule → ∀ v : RuleView, InForm v.source →
        ∃ edits, (rule.rewrite v).edits = .ok edits ∧ Compatible v.source.content.list edits ∧
          ∀ new, RenamesTags rule new → TagsInStep v.source edits new := by
  refine ⟨fun _ _ _ => inForm_parseAs, fun rule hrule v h => ?_⟩
  obtain ⟨edits, hedits, hcompatible⟩ := exists_compatible hrule h
  exact ⟨edits, hedits, hcompatible, fun new hnew => tagsInStep_of_renamesTags hnew h hedits⟩

section

attribute [local instance] Salvage.stopping

/-- A file with a plain link in another one. -/
def nestedLinks : Source :=
  .parseAs .javascript "export const L = <a href=\"/\"><a href=\"/b\">x</a></a>;\n" "x.jsx"

/-- All four names of the links are replaced, and the import is added. -/
theorem builtIn_compatible_nestedLinks : nestedLinks.hasError = false ∧ InForm nestedLinks ∧
    ∃ edits, (anchorRule.rewrite ⟨nestedLinks, {}, { path := "x.jsx" }⟩).edits = .ok edits ∧
      edits.length = 5 ∧ Compatible nestedLinks.content.list edits ∧ TagsInStep nestedLinks edits "Link" := by
  have hparsed : nestedLinks.hasError = false := by decide +kernel
  have hform : InForm nestedLinks := builtIn_compatible.1 _ _ _ hparsed
  have hrule (s : Source) (h : InForm s) :
      ∃ edits, (anchorRule.rewrite ⟨s, {}, { path := "x.jsx" }⟩).edits = .ok edits ∧
        anchorEdits s = edits ∧ Compatible s.content.list edits ∧ TagsInStep s edits "Link" := by
    obtain ⟨edits, hedits, hcompatible, hinStep⟩ :=
      builtIn_compatible.2 anchorRule .anchor ⟨s, {}, { path := "x.jsx" }⟩ h
    exact ⟨edits, hedits, Except.ok.inj hedits, hcompatible, hinStep "Link" .anchor⟩
  have hlength : (anchorEdits nestedLinks).length = 5 := by decide +kernel
  obtain ⟨edits, hedits, hsame, hcompatible, hinStep⟩ := hrule nestedLinks hform
  exact ⟨hparsed, hform, edits, hedits, hsame ▸ hlength, hcompatible, hinStep⟩

end

end WebMigration.Lane.AppRouter
