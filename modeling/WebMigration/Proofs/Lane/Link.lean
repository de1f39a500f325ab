import WebMigration.Lane.AppRouter.Rule
import WebMigration.Proofs.Module.Scope
import WebMigration.Proofs.Module.Source

/-!
# The import of links

Where plain links become links of the router, the import of those is added unless some reference to a
module binds their name.  References are not what declares a name: an import at the top of a file does,
an export from another module does not, and what the file declares itself is no reference.
-/

namespace WebMigration.Lane.AppRouter

open Syntax
open WebMigration.Module
open Rewrite (binds)

variable {s : Source} {name : String}

/-! ### What binds a name -/

/-- A node refers to a module and binds a name. -/
def BindsName (s : Source) (name : String) (n : Node) : Prop :=
  ∃ r ∈ reference? s.content n, ∃ b ∈ r.bindings, b.localName = name

/-- An import statement stands at the top of its file. -/
def IsTopImport (p : Place) : Prop := p.above.length = 1 ∧ p.node.kind = .importStatement

/-- An import at the top of a file binds a name. -/
def ImportedAtTop (s : Source) (name : String) : Prop :=
  ∃ p ∈ s.root.places, IsTopImport p ∧ BindsName s name p.node

/-- An export from another module has a name, or an import that stands below the top binds it. -/
def NamedElsewhere (s : Source) (name : String) : Prop :=
  ∃ p ∈ s.root.places, ¬ IsTopImport p ∧ BindsName s name p.node

/-- A name is declared for a whole file, by an import or by anything else. -/
def DeclaredAtTop (s : Source) (name : String) : Prop := ∃ d ∈ s.declarations name, d.home = []

section Decidable

instance (n : Node) : Decidable (BindsName s name n) :=
  inferInstanceAs (Decidable (∃ r ∈ reference? s.content n, ∃ b ∈ r.bindings, b.localName = name))

instance (p : Place) : Decidable (IsTopImport p) := inferInstanceAs (Decidable (_ ∧ _))

instance : Decidable (NamedElsewhere s name) :=
  inferInstanceAs (Decidable (∃ p ∈ s.root.places, ¬ IsTopImport p ∧ BindsName s name p.node))

instance : Decidable (DeclaredAtTop s name) :=
  inferInstanceAs (Decidable (∃ d ∈ s.declarations name, d.home = []))

end Decidable

theorem binds_iff (hs : s.references = references s.content s.root) :
    binds s name = true ↔ ImportedAtTop s name ∨ NamedElsewhere s name := by
  have hplace : binds s name = true ↔ ∃ p ∈ s.root.places, BindsName s name p.node := by
    simp only [binds, hs, references, Node.walk_eq_preorder, ← Node.map_node_places, List.any_eq_true,
      List.mem_filterMap, List.mem_map, beq_iff_eq]
    constructor
    · rintro ⟨r, ⟨_, ⟨p, hp, rfl⟩, hr⟩, b, hb, hname⟩
      exact ⟨p, hp, r, hr, b, hb, hname⟩
    · rintro ⟨p, hp, r, hr, b, hb, hname⟩
      exact ⟨r, ⟨_, ⟨p, hp, rfl⟩, hr⟩, b, hb, hname⟩
  rw [hplace]
  constructor
  · rintro ⟨p, hp, h⟩
    by_cases htop : IsTopImport p
    · exact .inl ⟨p, hp, htop, h⟩
    · exact .inr ⟨p, hp, htop, h⟩
  · rintro (⟨p, hp, -, h⟩ | ⟨p, hp, -, h⟩)
    · exact ⟨p, hp, h⟩
    · exact ⟨p, hp, h⟩

/-! ### What an import declares -/

section Imports

variable {p : Place} {b : Binding}

theorem declared_of_isImported (hp : p ∈ s.root.places) {index : Nat} {c : Node}
    (hc : p.node.children[index]? = some c) (h : (p.below index c).isImported = true) :
    ∃ d ∈ s.declarations (s.content.text c), d.home = p.inner := by
  refine ⟨p.below index c, List.mem_filter.2 ⟨Node.below_mem_places hp hc, ?_⟩,
    Place.home_of_isImported h⟩
  rw [Bool.and_eq_true]
  exact ⟨by simp [Place.reach?, h], beq_iff_eq.2 rfl⟩

theorem declared_of_namedBinding? (hp : p ∈ s.root.places) (hkind : p.node.kind = .importSpecifier)
    (h : namedBinding? s.content p.node = some b) :
    ∃ d ∈ s.declarations b.localName, d.home = p.inner := by
  obtain ⟨n, hn, rfl⟩ := Option.map_eq_some_iff.1 h
  rcases halias : p.node.child? .alias with _ | a
  · obtain ⟨index, hc, hplays⟩ := Place.exists_of_child? hn
    have himported : (p.below index n).isImported = true := by
      simpa [Place.isImported, Place.below, hkind, halias] using hplays
    simp only [Option.map_none, Option.getD_none]
    exact declared_of_isImported hp hc himported
  · obtain ⟨index, hc, hplays⟩ := Place.exists_of_child? halias
    have himported : (p.below index a).isImported = true := by
      simpa [Place.isImported, Place.below, hkind, halias] using hplays
    simp only [Option.map_some, Option.getD_some]
    exact declared_of_isImported hp hc himported

theorem declared_of_namespaceImport (hp : p ∈ s.root.places) (hkind : p.node.kind = .namespaceImport)
    {n : Node} (hn : p.node.childOfKind? .identifier = some n) :
    ∃ d ∈ s.declarations (s.content.text n), d.home = p.inner := by
  obtain ⟨index, hc⟩ := List.mem_iff_getElem?.1 (List.mem_of_find?_eq_some hn)
  have hname : n.kind = .identifier := by simpa using List.find?_some hn
  exact declared_of_isImported hp hc (by simp [Place.isImported, Place.below, hkind, hname])

theorem declared_of_clauseBindings (hp : p ∈ s.root.places) (hkind : p.node.kind = .importClause)
    (h : b ∈ clauseBindings s.content p.node) :
    ∃ d ∈ s.declarations b.localName, d.home = p.inner := by
  obtain ⟨n, hn, hb⟩ := List.mem_flatMap.1 h
  obtain ⟨index, hc⟩ := Place.exists_of_mem_namedChildren hn
  have hplace : p.below index n ∈ s.root.places := Node.below_mem_places hp hc
  split at hb
  · rename_i hname
    obtain rfl := List.mem_singleton.1 hb
    have himported : (p.below index n).isImported = true := by
      simp [Place.isImported, Place.below, hkind, hname]
    dsimp only
    exact declared_of_isImported hp hc himported
  · rename_i hstar
    have hinner : (p.below index n).inner = p.inner := Place.inner_below (by rw [hstar]; rfl)
    split at hb
    · rename_i hname
      obtain rfl := List.mem_singleton.1 hb
      rw [← hinner]
      dsimp only
      exact declared_of_namespaceImport hplace hstar hname
    · cases hb
  · rename_i hnamed
    have hinner : (p.below index n).inner = p.inner := Place.inner_below (by rw [hnamed]; rfl)
    obtain ⟨c, hspecifier, hb⟩ := List.mem_filterMap.1 hb
    obtain ⟨hchild, hspecifier⟩ := List.mem_filter.1 hspecifier
    obtain ⟨k, hk⟩ := Place.exists_of_mem_namedChildren (p := p.below index n) hchild
    have hspecifier : c.kind = .importSpecifier := by simpa using hspecifier
    have hinner' : ((p.below index n).below k c).inner = (p.below index n).inner :=
      Place.inner_below (by rw [hspecifier]; rfl)
    rw [← hinner, ← hinner']
    exact declared_of_namedBinding? (Node.below_mem_places hplace hk) hspecifier hb
  · cases hb

end Imports

/-- The place of a statement at the top of a file. -/
theorem inner_of_isTopImport {root : Node} {p : Place} (hp : p ∈ root.places)
    (htop : IsTopImport p) : p.inner = [] := by
  obtain ⟨hlength, hkind⟩ := htop
  rcases Node.mem_places.1 hp with rfl | ⟨q, hq, index, c, -, rfl⟩
  · cases hlength
  · have hinner : (q.below index c).inner = q.inner :=
      Place.inner_below (by rw [show c.kind = .importStatement from hkind]; rfl)
    rw [hinner]
    rcases Node.mem_places.1 hq with rfl | ⟨q', -, index', c', -, rfl⟩
    · exact Place.inner_root root
    · simp [Place.below] at hlength

/-- What an import at the top of a file binds is declared for the whole file. -/
theorem ImportedAtTop.declaredAtTop (h : ImportedAtTop s name) : DeclaredAtTop s name := by
  obtain ⟨p, hp, htop, r, hr, b, hb, rfl⟩ := h
  rw [DeclaredAtTop, ← inner_of_isTopImport hp htop]
  rw [reference?, htop.2] at hr
  obtain ⟨literal, -, hr⟩ := Option.bind_eq_some_iff.1 hr
  rw [of?_bindings hr] at hb
  obtain ⟨clause, hclause, hb⟩ := List.mem_flatMap.1 hb
  obtain ⟨hclause, hkind⟩ := List.mem_filter.1 hclause
  have hkind : clause.kind = .importClause := by simpa using hkind
  obtain ⟨index, hc⟩ := Place.exists_of_mem_namedChildren hclause
  have hinner : (p.below index clause).inner = p.inner := Place.inner_below (by rw [hkind]; rfl)
  rw [← hinner]
  exact declared_of_clauseBindings (Node.below_mem_places hp hc) hkind hb

/-! ### The edits -/

/-- The edit that imports links of the router. -/
def linkImport (s : Source) : Edit := insertImport s.root "import Link from \"next/link\";"

theorem replacement_of_mem_linkEdits {v : Node.Visit} {e : Edit} (h : e ∈ linkEdits s v) :
    e.replacement = "Link" := by
  unfold linkEdits at h
  split at h
  · split at h
    · rcases List.mem_cons.1 h with rfl | h
      · rfl
      · obtain ⟨n, -, rfl⟩ := Option.map_eq_some_iff.1 (Option.mem_toList.1 h)
        rfl
    · cases h
  · cases h

theorem replacement_linkImport : (linkImport s).replacement ≠ "Link" := by
  unfold linkImport insertImport
  dsimp only
  split
  · exact show "\nimport Link from \"next/link\";" ≠ "Link" by decide
  · split
    · exact show "\nimport Link from \"next/link\";" ≠ "Link" by decide
    · exact show "import Link from \"next/link\";\n" ≠ "Link" by decide

theorem linkImport_mem_iff (hconverted : s.root.visits.flatMap (linkEdits s) ≠ []) :
    linkImport s ∈ anchorEdits s ↔ binds s "Link" = false := by
  have hother : linkImport s ∉ s.root.visits.flatMap (linkEdits s) := by
    intro h
    obtain ⟨v, -, h⟩ := List.mem_flatMap.1 h
    exact replacement_linkImport (replacement_of_mem_linkEdits h)
  unfold anchorEdits
  dsimp only
  rw [List.isEmpty_eq_false_iff.2 hconverted, Bool.false_or]
  cases binds s "Link" with
  | true => simpa using hother
  | false => simp [linkImport]

/-- **When links are imported.**  In a parsed file with plain links that become links of the router,
their import is added exactly if no reference binds the name.  This agrees with what the file declares
if an import at the top binds the name, or if it is declared at the top exactly when another reference
names it.  Otherwise it is declared twice or not at all: twice if only the file itself declares it, not
at all if it is only named elsewhere. -/
theorem linkImport_mem_iff_of_parse [Salvage] {text path : String} {language : Option String} {s : Source}
    (hs : s = Source.parse text path language)
    (hconverted : s.root.visits.flatMap (linkEdits s) ≠ []) :
    (linkImport s ∈ anchorEdits s ↔ ¬ (ImportedAtTop s "Link" ∨ NamedElsewhere s "Link")) ∧
    ((linkImport s ∈ anchorEdits s ↔ ¬ DeclaredAtTop s "Link") ↔
      ImportedAtTop s "Link" ∨ (DeclaredAtTop s "Link" ↔ NamedElsewhere s "Link")) ∧
    (linkImport s ∈ anchorEdits s ∧ DeclaredAtTop s "Link" ↔
      DeclaredAtTop s "Link" ∧ ¬ ImportedAtTop s "Link" ∧ ¬ NamedElsewhere s "Link") ∧
    (linkImport s ∉ anchorEdits s ∧ ¬ DeclaredAtTop s "Link" ↔
      NamedElsewhere s "Link" ∧ ¬ DeclaredAtTop s "Link") := by
  have himported : ImportedAtTop s "Link" → DeclaredAtTop s "Link" := ImportedAtTop.declaredAtTop
  have hadded : linkImport s ∈ anchorEdits s ↔
      ¬ (ImportedAtTop s "Link" ∨ NamedElsewhere s "Link") := by
    rw [linkImport_mem_iff hconverted, ← binds_iff (hs ▸ Source.parse_references), Bool.not_eq_true]
  rw [hadded]
  -- An import at the top is a reference and a declaration, so they can disagree only without one.
  by_cases hi : ImportedAtTop s "Link"
  · simp [hi, himported hi]
  · by_cases hd : DeclaredAtTop s "Link" <;> by_cases hn : NamedElsewhere s "Link" <;> simp [hi, hd, hn]

section

attribute [local instance] Salvage.stopping

/-- A file with a plain link. -/
def plainLink : Source := .parse "export const L = <a href=\"/\">x</a>;\n" "x.jsx" none

theorem linkImport_mem_plainLink :
    plainLink.root.visits.flatMap (linkEdits plainLink) ≠ [] ∧ ¬ DeclaredAtTop plainLink "Link" ∧
      linkImport plainLink ∈ anchorEdits plainLink := by
  have hconverted : plainLink.root.visits.flatMap (linkEdits plainLink) ≠ [] := by decide +kernel
  have hdeclared : ¬ DeclaredAtTop plainLink "Link" := by decide +kernel
  have hnamed : ¬ NamedElsewhere plainLink "Link" := by decide +kernel
  have hadded := (linkImport_mem_iff_of_parse rfl hconverted).2.1.2
    (.inr (iff_of_false hdeclared hnamed))
  exact ⟨hconverted, hdeclared, hadded.2 hdeclared⟩

/-- A file with a plain link that declares the name of links of the router. -/
def declaringLink : Source :=
  .parse "const Link = \"a\";\nexport const L = <a href=\"/\">x</a>;\n" "x.jsx" none

/-- The import is added beside the declaration. -/
theorem linkImport_mem_declaringLink : declaringLink.hasError = false ∧
    declaringLink.root.visits.flatMap (linkEdits declaringLink) ≠ [] ∧
    DeclaredAtTop declaringLink "Link" ∧ linkImport declaringLink ∈ anchorEdits declaringLink := by
  decide +kernel

end

end WebMigration.Lane.AppRouter
