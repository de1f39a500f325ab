import WebMigration.Syntax.Offset

/-!
# Pieces of a file

A piece is a tree whose nodes all start and end at cuts of a file; a string in it starts and ends
with one byte, its quote, so that its inside lies between cuts too, and an import statement starts
with its keyword.  Everything that a reader builds is a piece.
-/

namespace WebMigration.Syntax

variable {file : List Char}

namespace Node

/-- A node starts and ends at cuts of a file, and so does the inside of a string; an import statement
starts with its keyword. -/
structure Fits (file : List Char) (n : Node) : Prop where
  start : IsCut file n.start
  stop : IsCut file n.stop
  inside : n.kind = .string → IsCut file (n.start + 1) ∧ IsCut file (n.stop - 1)
  keyword : n.kind = .importStatement → Stands file n.start "import"

/-- All nodes of a tree have a property. -/
def Everywhere (P : Node → Prop) (n : Node) : Prop := ∀ m ∈ n.preorder, P m

instance (P : Node → Prop) [DecidablePred P] (n : Node) : Decidable (n.Everywhere P) :=
  inferInstanceAs (Decidable (∀ m ∈ n.preorder, P m))

theorem mem_preorderList {m : Node} {nodes : List Node} :
    m ∈ preorderList nodes ↔ ∃ n ∈ nodes, m ∈ n.preorder := by
  induction nodes with
  | nil => simp [preorderList]
  | cons n rest ih => simp [preorderList, ih]

theorem mem_preorder {m n : Node} : m ∈ n.preorder ↔ m = n ∨ m ∈ preorderList n.children := by
  obtain ⟨kind, field, start, stop, children⟩ := n
  simp [preorder]

section Everywhere

variable {P : Node → Prop}

/-- A property holds everywhere in a tree when the root and the trees below it have it. -/
theorem everywhere_iff {n : Node} :
    n.Everywhere P ↔ P n ∧ ∀ c ∈ n.children, c.Everywhere P := by
  constructor
  · intro h
    refine ⟨h n (mem_preorder.2 (.inl rfl)), fun c hc m hm => h m (mem_preorder.2 (.inr ?_))⟩
    exact mem_preorderList.2 ⟨c, hc, hm⟩
  · rintro ⟨hn, hchildren⟩ m hm
    rcases mem_preorder.1 hm with rfl | hm
    · exact hn
    · obtain ⟨c, hc, hm⟩ := mem_preorderList.1 hm
      exact hchildren c hc m hm

theorem Everywhere.here {n : Node} (h : n.Everywhere P) : P n := (everywhere_iff.1 h).1

theorem Everywhere.child {n c : Node} (h : n.Everywhere P) (hc : c ∈ n.children) : c.Everywhere P :=
  (everywhere_iff.1 h).2 c hc

theorem Everywhere.of_child? {n c : Node} {field : Field} (h : n.Everywhere P)
    (hc : n.child? field = some c) : c.Everywhere P :=
  h.child (List.mem_of_find?_eq_some hc)

theorem Everywhere.of_mem_namedChildren {n c : Node} (h : n.Everywhere P)
    (hc : c ∈ n.namedChildren) : c.Everywhere P :=
  h.child (List.mem_filter.1 hc).1

mutual

/-- What holds everywhere in a tree holds everywhere in each of its subtrees. -/
theorem Everywhere.of_mem_preorder : ∀ {n : Node}, n.Everywhere P → ∀ m ∈ n.preorder, m.Everywhere P
  | ⟨kind, field, start, stop, children⟩, h => by
    intro m hm
    rcases mem_preorder.1 hm with rfl | hm
    · exact h
    · exact everywhere_of_mem_preorderList children (fun _ hc => h.child hc) m hm

theorem everywhere_of_mem_preorderList : ∀ nodes : List Node, (∀ n ∈ nodes, n.Everywhere P) →
    ∀ m ∈ preorderList nodes, m.Everywhere P
  | [], _ => by
    intro m hm
    rw [preorderList] at hm
    cases hm
  | n :: rest, h => by
    intro m hm
    obtain ⟨hn, hrest⟩ := List.forall_mem_cons.1 h
    rw [preorderList, List.mem_append] at hm
    rcases hm with hm | hm
    · exact hn.of_mem_preorder m hm
    · exact everywhere_of_mem_preorderList rest hrest m hm

end

mutual

/-- What holds everywhere in a tree holds in what a visit of the tree tells about as well. -/
theorem Everywhere.of_mem_visitsUnder : ∀ {n : Node} {parent : Option Node}, n.Everywhere P →
    (∀ p ∈ parent, p.Everywhere P) → ∀ v ∈ n.visitsUnder parent,
      v.node.Everywhere P ∧ ∀ p ∈ v.parent, p.Everywhere P
  | ⟨kind, field, start, stop, children⟩, parent, h, hparent => by
    intro v hv
    rw [visitsUnder, List.mem_cons] at hv
    rcases hv with rfl | hv
    · exact ⟨h, hparent⟩
    · refine everywhere_of_mem_visitsUnderList children (fun _ hc => h.child hc) ?_ v hv
      rintro p ⟨⟩
      exact h

theorem everywhere_of_mem_visitsUnderList : ∀ {parent : Option Node} (nodes : List Node),
    (∀ n ∈ nodes, n.Everywhere P) → (∀ p ∈ parent, p.Everywhere P) →
      ∀ v ∈ visitsUnderList parent nodes, v.node.Everywhere P ∧ ∀ p ∈ v.parent, p.Everywhere P
  | _, [], _, _ => by
    intro v hv
    rw [visitsUnderList] at hv
    cases hv
  | parent, n :: rest, h, hparent => by
    intro v hv
    obtain ⟨hn, hrest⟩ := List.forall_mem_cons.1 h
    rw [visitsUnderList, List.mem_append] at hv
    rcases hv with hv | hv
    · exact hn.of_mem_visitsUnder hparent v hv
    · exact everywhere_of_mem_visitsUnderList rest hrest hparent v hv

end

theorem Everywhere.of_mem_visits {n : Node} (h : n.Everywhere P) {v : Visit} (hv : v ∈ n.visits) :
    v.node.Everywhere P ∧ ∀ p ∈ v.parent, p.Everywhere P :=
  h.of_mem_visitsUnder (fun _ hp => by cases hp) v hv

end Everywhere

/-- All nodes of a tree start and end at cuts of a file. -/
abbrev AtCuts (file : List Char) (n : Node) : Prop := n.Everywhere fun m => m.span.AtCuts file

/-- All nodes of a tree fit a file. -/
abbrev Within (file : List Char) (n : Node) : Prop := n.Everywhere (Fits file)

theorem Within.atCuts {n : Node} (h : n.Within file) : n.AtCuts file :=
  fun m hm => ⟨(h m hm).start, (h m hm).stop⟩

/-- The part that a node plays in its parent has nothing to do with its ends. -/
theorem Within.as {n : Node} (h : n.Within file) (field : Field) : (n.as field).Within file :=
  everywhere_iff.2 ⟨⟨h.here.start, h.here.stop, h.here.inside, h.here.keyword⟩, fun _ hc => h.child hc⟩

theorem Within.retag {n : Node} (h : n.Within file) {kind : Kind} (hkind : kind.isPlain = true) :
    (n.retag kind).Within file :=
  everywhere_iff.2 ⟨⟨h.here.start, h.here.stop, fun hs => absurd hs (Kind.ne_string hkind),
    fun hi => absurd hi (Kind.ne_importStatement hkind)⟩, fun _ hc => h.child hc⟩

/-- A node over its children starts where the first one starts and ends where the last one ends. -/
theorem within_spanning {kind : Kind} {start : Nat} {children : List Node} (hkind : kind ≠ .string)
    (hstart : IsCut file start) (h : ∀ c ∈ children, c.Within file)
    (hkeyword : kind = .importStatement → Stands file (spanning kind start children).start "import") :
    (spanning kind start children).Within file := by
  refine everywhere_iff.2 ⟨⟨?_, ?_, fun hs => absurd hs hkind, hkeyword⟩, h⟩
  · show IsCut file ((children.head?.map (·.start)).getD start)
    rcases hc : children.head? with _ | c
    · exact hstart
    · exact (h c (List.mem_of_mem_head? hc)).here.start
  · show IsCut file ((children.getLast?.map (·.stop)).getD start)
    rcases hc : children.getLast? with _ | c
    · exact hstart
    · exact (h c (List.mem_of_mem_getLast? hc)).here.stop

/-! ## Comments -/

theorem within_comment (c : Passage file) : (leaf .comment c.start.1 c.stop.1).Within file :=
  everywhere_iff.2 ⟨⟨c.start.2, c.stop.2, nofun, nofun⟩, nofun⟩

mutual

/-- A comment is put into a tree without moving the ends of any node. -/
theorem within_insertComment (c : Passage file) : ∀ n : Node, n.Within file →
    (n.insertComment c.span).Within file
  | ⟨kind, field, start, stop, children⟩, h => by
    rw [insertComment]
    refine everywhere_iff.2 ⟨⟨h.here.start, h.here.stop, h.here.inside, h.here.keyword⟩, ?_⟩
    exact within_insertCommentList c children fun _ hc => h.child hc

theorem within_insertCommentList (c : Passage file) : ∀ nodes : List Node,
    (∀ n ∈ nodes, n.Within file) → ∀ n ∈ insertCommentList c.span nodes, n.Within file
  | [], _ => by
    rw [insertCommentList]
    exact List.forall_mem_singleton.2 (within_comment c)
  | m :: rest, h => by
    obtain ⟨hm, hrest⟩ := List.forall_mem_cons.1 h
    rw [insertCommentList]
    split
    · exact List.forall_mem_cons.2 ⟨within_comment c, h⟩
    · split
      · exact List.forall_mem_cons.2 ⟨within_insertComment c m hm, hrest⟩
      · exact List.forall_mem_cons.2 ⟨hm, within_insertCommentList c rest hrest⟩

end

/-- The nodes of a file with its comments among them. -/
def withComments (comments : List (Passage file)) (nodes : List Node) : List Node :=
  comments.foldl (fun nodes c => insertCommentList c.span nodes) nodes

theorem within_withComments (comments : List (Passage file)) {nodes : List Node}
    (h : ∀ n ∈ nodes, n.Within file) : ∀ n ∈ withComments comments nodes, n.Within file := by
  induction comments generalizing nodes with
  | nil => exact h
  | cons c rest ih => exact ih (within_insertCommentList c nodes h)

end Node

/-- A tree that fits a file. -/
structure Piece (file : List Char) where
  node : Node
  within : node.Within file

namespace Piece

theorem within_of_mem_map (pieces : List (Piece file)) :
    ∀ n ∈ pieces.map (·.node), n.Within file := by
  intro n hn
  obtain ⟨p, -, rfl⟩ := List.mem_map.1 hn
  exact p.within

/-- A piece without children. -/
def leaf (kind : Kind) (start stop : Offset file)
    (hstring : kind = .string → IsCut file (start.1 + 1) ∧ IsCut file (stop.1 - 1))
    (himport : kind ≠ .importStatement) : Piece file where
  node := .leaf kind start.1 stop.1
  within := Node.everywhere_iff.2
    ⟨⟨start.2, stop.2, hstring, fun hi => absurd hi himport⟩, fun _ hc => by cases hc⟩

/-- A piece over its children, covering them; without children it is empty and stands at `start`. -/
def spanning (kind : Kind) (start : Offset file) (children : List (Piece file))
    (hkind : kind.isPlain = true := by exact Eq.refl true) : Piece file where
  node := .spanning kind start.1 (children.map (·.node))
  within := Node.within_spanning (Kind.ne_string hkind) start.2 (within_of_mem_map children)
    fun hi => absurd hi (Kind.ne_importStatement hkind)

/-- An import statement over its keyword and what follows it. -/
def importing (keyword : Piece file) (hkeyword : Stands file keyword.node.start "import")
    (rest : List (Piece file)) : Piece file where
  node := .spanning .importStatement keyword.node.start ((keyword :: rest).map (·.node))
  within := Node.within_spanning Kind.noConfusion keyword.within.here.start
    (within_of_mem_map (keyword :: rest)) fun _ => by exact hkeyword

/-- The same piece playing a part. -/
def as (field : Field) (p : Piece file) : Piece file := ⟨p.node.as field, p.within.as field⟩

/-- The same piece under another kind. -/
def retag (kind : Kind) (p : Piece file)
    (hkind : kind.isPlain = true := by exact Eq.refl true) : Piece file :=
  ⟨p.node.retag kind, p.within.retag hkind⟩

def kind (p : Piece file) : Kind := p.node.kind

/-- Where a piece starts. -/
def start (p : Piece file) : Offset file := ⟨p.node.start, p.within.here.start⟩

/-- The first child that plays a part. -/
def child? (p : Piece file) (field : Field) : Option Node := p.node.child? field

/-- The pieces right below a piece. -/
def children (p : Piece file) : List (Piece file) :=
  p.node.children.attach.map fun c => ⟨c.1, p.within.child c.2⟩

/-- The tree of a whole file. -/
def program (comments : List (Passage file)) (statements : List (Piece file)) : Piece file where
  node := ⟨.program, none, 0, byteSize file, Node.withComments comments (statements.map (·.node))⟩
  within := Node.everywhere_iff.2 ⟨⟨isCut_zero file, isCut_byteSize file, nofun, nofun⟩,
    Node.within_withComments comments (within_of_mem_map statements)⟩

end Piece

end WebMigration.Syntax
