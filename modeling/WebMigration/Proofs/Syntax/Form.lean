import Mathlib.Data.List.Basic
import Mathlib.Data.List.Pairwise
import WebMigration.Syntax.Piece

/-!
# The form of a tree

What the grammar says of every tree, whatever the file says: the children of a node stand in order and
inside it, only comments are below a name, and an element has one opening and one closing tag.  Comments
may stand anywhere and are left out of the order.

Names that are picked at the nodes of such a tree, each right below its node or one step further down,
stand beside each other.
-/

namespace WebMigration.Syntax

/-- The kinds of node with a name of their own that may get another text; an element has those of its
tags. -/
def Kind.holdsName : Kind → Bool
  | .callExpression | .importSpecifier | .jsxElement | .jsxOpeningElement | .jsxClosingElement
  | .jsxSelfClosingElement => Bool.true
  | _ => Bool.false

/-- The kinds of node whose name is a leaf or made of leaves: tags, and the names in an import. -/
def Kind.isNamedSimply : Kind → Bool
  | .importSpecifier | .jsxOpeningElement | .jsxClosingElement | .jsxSelfClosingElement => Bool.true
  | _ => Bool.false

/-- The tags that belong to an element. -/
def Kind.isPairedTag : Kind → Bool
  | .jsxOpeningElement | .jsxClosingElement => Bool.true
  | _ => Bool.false

/-- The kinds of node of which the grammar only says that the children stand in order. -/
def Kind.isCommon (kind : Kind) : Bool :=
  !kind.isNamedSimply && kind != .comment && kind != .identifier && kind != .jsxAttribute &&
    kind != .jsxElement

theorem Kind.isPairedTag_of_isCommon {kind : Kind} (h : kind.isCommon = Bool.true) :
    kind.isPairedTag = Bool.false := by
  unfold Kind.isPairedTag
  split
  · cases h
  · cases h
  · rfl

namespace Node

/-! ### Rows -/

/-- Nodes stand in order between two offsets. -/
def Row : Nat → List Node → Nat → Prop
  | k, [], k' => k ≤ k'
  | k, n :: rest, k' => k ≤ n.start ∧ n.start ≤ n.stop ∧ Row n.stop rest k'

/-- One of two nodes ends before the other starts. -/
def Beside (m n : Node) : Prop := m.stop ≤ n.start ∨ n.stop ≤ m.start

/-- A node lies inside another one. -/
structure LiesIn (m n : Node) : Prop where
  start_le : n.start ≤ m.start
  start_le_stop : m.start ≤ m.stop
  stop_le : m.stop ≤ n.stop

variable {k k' k'' : Nat} {m n c x y : Node} {nodes nodes' : List Node}

theorem Beside.symm (h : m.Beside n) : n.Beside m := Or.symm h

instance : Std.Symm Beside := ⟨fun _ _ => Beside.symm⟩

theorem LiesIn.trans (h : x.LiesIn m) (h' : m.LiesIn n) : x.LiesIn n :=
  ⟨Nat.le_trans h'.start_le h.start_le, h.start_le_stop, Nat.le_trans h.stop_le h'.stop_le⟩

/-- Nodes in nodes that stand beside each other do so as well. -/
theorem Beside.mono (h : m.Beside n) (hx : x.LiesIn m) (hy : y.LiesIn n) : x.Beside y := by
  obtain ⟨hm, -, hm'⟩ := hx
  obtain ⟨hn, -, hn'⟩ := hy
  unfold Beside at h ⊢
  omega

namespace Row

theorem le (h : Row k nodes k') : k ≤ k' := by
  induction nodes generalizing k with
  | nil => exact h
  | cons n rest ih =>
    obtain ⟨hstart, hle, hrest⟩ := h
    have := ih hrest
    omega

theorem append (h : Row k nodes k') (h' : Row k' nodes' k'') : Row k (nodes ++ nodes') k'' := by
  induction nodes generalizing k with
  | nil =>
    cases nodes' with
    | nil => exact Nat.le_trans h h'
    | cons n rest => exact ⟨Nat.le_trans h h'.1, h'.2⟩
  | cons n rest ih => exact ⟨h.1, h.2.1, ih h.2.2⟩

/-- Some nodes of a row are a row between the same offsets. -/
theorem sublist (h : Row k nodes k') (hsub : nodes'.Sublist nodes) : Row k nodes' k' := by
  induction hsub generalizing k with
  | slnil => exact h
  | cons n _ ih =>
    have hrest := ih h.2.2
    have hnil : Row k [] n.stop := Nat.le_trans h.1 h.2.1
    exact hnil.append hrest
  | cons_cons n _ ih => exact ⟨h.1, h.2.1, ih h.2.2⟩

theorem range (h : Row k nodes k') : ∀ n ∈ nodes, k ≤ n.start ∧ n.start ≤ n.stop ∧ n.stop ≤ k' := by
  induction nodes generalizing k with
  | nil => nofun
  | cons n rest ih =>
    obtain ⟨hstart, hle, hrest⟩ := h
    refine List.forall_mem_cons.2 ⟨⟨hstart, hle, hrest.le⟩, fun m hm => ?_⟩
    have := ih hrest m hm
    omega

theorem pairwise (h : Row k nodes k') : nodes.Pairwise fun m n => m.stop ≤ n.start := by
  induction nodes generalizing k with
  | nil => exact .nil
  | cons n rest ih => exact List.pairwise_cons.2 ⟨fun m hm => (h.2.2.range m hm).1, ih h.2.2⟩

/-- A node of a row may give way to one in its place. -/
theorem replace (h : Row k (nodes ++ m :: nodes') k') (hstart : n.start = m.start)
    (hstop : n.stop = m.stop) : Row k (nodes ++ n :: nodes') k' := by
  induction nodes generalizing k with
  | nil =>
    obtain ⟨hk, hle, hrest⟩ := h
    exact ⟨hstart ▸ hk, hstart ▸ hstop ▸ hle, hstop ▸ hrest⟩
  | cons c rest ih => exact ⟨h.1, h.2.1, ih h.2.2⟩

/-- A row starts where its first node does and ends where its last node does. -/
theorem tighten (start : Nat) (h : Row k (m :: nodes) k') :
    Row m.start (m :: nodes) (((m :: nodes).getLast?.map (·.stop)).getD start) ∧
      ((m :: nodes).getLast?.map (·.stop)).getD start ≤ k' := by
  induction nodes generalizing k m with
  | nil => exact ⟨⟨Nat.le_refl _, h.2.1, Nat.le_refl _⟩, h.2.2⟩
  | cons n rest ih =>
    obtain ⟨-, hle, hrest⟩ := h
    obtain ⟨hrow, hstop⟩ := ih hrest
    rw [List.getLast?_cons_cons]
    exact ⟨⟨Nat.le_refl _, hle, hrest.1, hrow.2⟩, hstop⟩

/-- The children of a node that covers them are a row in it. -/
theorem spanning (kind : Kind) (start : Nat) (h : Row k nodes k')
    (hstart : nodes = [] → k ≤ start ∧ start ≤ k') :
    k ≤ (Node.spanning kind start nodes).start ∧
      Row (Node.spanning kind start nodes).start nodes (Node.spanning kind start nodes).stop ∧
      (Node.spanning kind start nodes).stop ≤ k' := by
  cases nodes with
  | nil => exact ⟨(hstart rfl).1, Nat.le_refl _, (hstart rfl).2⟩
  | cons m rest =>
    obtain ⟨hrow, hstop⟩ := h.tighten start
    exact ⟨h.1, hrow, hstop⟩

/-- Two different nodes of a row stand beside each other. -/
theorem beside (h : Row k nodes k') (hm : m ∈ nodes) (hn : n ∈ nodes) (hne : m ≠ n) : m.Beside n := by
  have hbeside : nodes.Pairwise Beside := h.pairwise.imp fun hle => .inl hle
  exact hbeside.forall hm hn hne

end Row

/-! ### Nodes of a tree -/

/-- The children of a node that are no comments. -/
def parts (n : Node) : List Node := n.children.filter (·.kind != .comment)

/-- A node that takes up some place, is no comment, and has nothing below it that holds a name. -/
structure Simple (n : Node) : Prop where
  kind : n.kind ≠ .comment
  nonempty : n.start < n.stop
  plain : ∀ m ∈ n.preorder, m.kind.holdsName = false

theorem Simple.as (h : n.Simple) (field : Field) : (n.as field).Simple := by
  refine ⟨h.kind, h.nonempty, fun m hm => ?_⟩
  rcases mem_preorder.1 hm with rfl | hm
  · exact h.plain n (mem_preorder.2 (.inl rfl))
  · exact h.plain m (mem_preorder.2 (.inr hm))

theorem Simple.retag (h : n.Simple) {kind : Kind} (hcomment : kind ≠ .comment)
    (hholds : kind.holdsName = false) : (n.retag kind).Simple := by
  refine ⟨hcomment, h.nonempty, fun m hm => ?_⟩
  rcases mem_preorder.1 hm with rfl | hm
  · exact hholds
  · exact h.plain m (mem_preorder.2 (.inr hm))

/-- What the grammar says of a node and its children. -/
structure Formed (n : Node) : Prop where
  /-- The children stand in order and inside the node. -/
  row : Row n.start n.parts n.stop
  /-- Nothing but comments is below a comment or a name. -/
  leaf : n.kind = .comment ∨ n.kind = .identifier → ∀ c ∈ n.children, c.kind = .comment
  /-- A name takes up some place. -/
  nonempty : n.kind = .identifier → n.start < n.stop
  /-- The name of a tag or of an import is simple. -/
  name : n.kind.isNamedSimply = true → ∀ x ∈ n.child? .name, x.Simple
  /-- An attribute starts with its name, which is simple. -/
  property : n.kind = .jsxAttribute → ∃ x rest, n.children = x :: rest ∧ x.isNamed = true ∧
    x.start = n.start ∧ x.Simple
  /-- Opening and closing tags belong to an element. -/
  tags : n.kind ≠ .jsxElement → ∀ c ∈ n.children, c.kind.isPairedTag = false
  /-- An element has one opening tag and one closing tag. -/
  element : n.kind = .jsxElement → n.children.countP (·.kind == .jsxOpeningElement) = 1 ∧
    n.children.countP (·.kind == .jsxClosingElement) = 1 ∧
    ∃ closing ∈ n.child? .closeTag, closing.kind = .jsxClosingElement

theorem formed_of_isCommon (hcommon : n.kind.isCommon = true) (hrow : Row n.start n.parts n.stop)
    (htags : ∀ c ∈ n.children, c.kind.isPairedTag = false) : n.Formed := by
  simp only [Kind.isCommon, Bool.and_eq_true, Bool.not_eq_true', bne_iff_ne] at hcommon
  obtain ⟨⟨⟨⟨hnamed, hcomment⟩, hidentifier⟩, hattribute⟩, helement⟩ := hcommon
  refine ⟨hrow, ?_, fun h => absurd h hidentifier, ?_, fun h => absurd h hattribute, fun _ => htags,
    fun h => absurd h helement⟩
  · exact fun h => h.elim (absurd · hcomment) (absurd · hidentifier)
  · rw [hnamed]
    nofun

theorem formed_leaf (hleaf : n.children = []) (hle : n.start ≤ n.stop)
    (hkind : n.kind.isCommon = true ∨ n.kind = .comment ∨ n.kind = .identifier ∧ n.start < n.stop) :
    n.Formed := by
  have hrow : Row n.start n.parts n.stop := by
    unfold parts
    rwa [hleaf]
  have hnone : ∀ c ∈ n.children, c.kind.isPairedTag = false := by
    rw [hleaf]
    nofun
  rcases hkind with hcommon | hcomment | ⟨hidentifier, hlt⟩
  · exact formed_of_isCommon hcommon hrow hnone
  · constructor <;> simp_all [Kind.isNamedSimply]
  · constructor <;> simp_all [Kind.isNamedSimply]

theorem Formed.as (h : n.Formed) (field : Field) : (n.as field).Formed :=
  ⟨h.row, h.leaf, h.nonempty, h.name, h.property, h.tags, h.element⟩

/-- All nodes of a tree are formed as the grammar says. -/
def Grammatical (n : Node) : Prop := ∀ m ∈ n.preorder, m.Formed

theorem mem_parts : m ∈ n.parts ↔ m ∈ n.children ∧ m.kind ≠ .comment := by
  simp [parts, List.mem_filter]

theorem grammatical_iff : n.Grammatical ↔ n.Formed ∧ ∀ c ∈ n.children, c.Grammatical := by
  constructor
  · intro h
    refine ⟨h n (mem_preorder.2 (.inl rfl)), fun c hc m hm => h m (mem_preorder.2 (.inr ?_))⟩
    exact mem_preorderList.2 ⟨c, hc, hm⟩
  · rintro ⟨hn, hchildren⟩ m hm
    rcases mem_preorder.1 hm with rfl | hm
    · exact hn
    · obtain ⟨c, hc, hm⟩ := mem_preorderList.1 hm
      exact hchildren c hc m hm

theorem Grammatical.formed (h : n.Grammatical) : n.Formed := (grammatical_iff.1 h).1

theorem Grammatical.child (h : n.Grammatical) (hc : c ∈ n.children) : c.Grammatical :=
  (grammatical_iff.1 h).2 c hc

theorem Grammatical.liesIn_of_mem_parts (h : n.Grammatical) (hc : c ∈ n.parts) : c.LiesIn n :=
  have ⟨hstart, hle, hstop⟩ := h.formed.row.range c hc
  ⟨hstart, hle, hstop⟩

theorem Formed.start_le_stop (h : n.Formed) : n.start ≤ n.stop := h.row.le

mutual

theorem Grammatical.of_mem_preorder : ∀ {n : Node}, n.Grammatical → ∀ m ∈ n.preorder, m.Grammatical
  | ⟨kind, field, start, stop, children⟩, h, m, hm => by
    rcases mem_preorder.1 hm with rfl | hm
    · exact h
    · exact grammatical_of_mem_preorderList children (fun _ hc => h.child hc) m hm

theorem grammatical_of_mem_preorderList : ∀ nodes : List Node, (∀ n ∈ nodes, n.Grammatical) →
    ∀ m ∈ preorderList nodes, m.Grammatical
  | [], _, m, hm => by
    rw [preorderList] at hm
    cases hm
  | n :: rest, h, m, hm => by
    obtain ⟨hn, hrest⟩ := List.forall_mem_cons.1 h
    rw [preorderList, List.mem_append] at hm
    exact hm.elim (hn.of_mem_preorder m) (grammatical_of_mem_preorderList rest hrest m)

end

mutual

/-- Nothing but comments is in a comment. -/
theorem Grammatical.comments : ∀ {n : Node}, n.Grammatical → n.kind = .comment →
    ∀ m ∈ n.preorder, m.kind = .comment
  | ⟨kind, field, start, stop, children⟩, h, hkind, m, hm => by
    rcases mem_preorder.1 hm with rfl | hm
    · exact hkind
    · exact comments_of_mem_preorderList children (fun _ hc => h.child hc)
        (h.formed.leaf (.inl hkind)) m hm

theorem comments_of_mem_preorderList : ∀ nodes : List Node, (∀ n ∈ nodes, n.Grammatical) →
    (∀ n ∈ nodes, n.kind = .comment) → ∀ m ∈ preorderList nodes, m.kind = .comment
  | [], _, _, m, hm => by
    rw [preorderList] at hm
    cases hm
  | n :: rest, h, hkinds, m, hm => by
    obtain ⟨hn, hrest⟩ := List.forall_mem_cons.1 h
    obtain ⟨hkind, hkinds⟩ := List.forall_mem_cons.1 hkinds
    rw [preorderList, List.mem_append] at hm
    exact hm.elim (hn.comments hkind m) (comments_of_mem_preorderList rest hrest hkinds m)

end

/-- Whatever holds a name below a node is below one of its parts. -/
theorem Grammatical.exists_part (h : n.Grammatical) (hm : m ∈ preorderList n.children)
    (hkind : m.kind ≠ .comment) : ∃ c ∈ n.parts, m ∈ c.preorder := by
  obtain ⟨c, hc, hm⟩ := mem_preorderList.1 hm
  exact ⟨c, mem_parts.2 ⟨hc, fun hcomment => hkind ((h.child hc).comments hcomment m hm)⟩, hm⟩

mutual

/-- Every node of a tree but a comment lies in the tree. -/
theorem Grammatical.liesIn : ∀ {n : Node}, n.Grammatical → ∀ m ∈ n.preorder, m.kind ≠ .comment →
    m.LiesIn n
  | ⟨kind, field, start, stop, children⟩, h, m, hm, hkind => by
    rcases mem_preorder.1 hm with rfl | hm
    · exact ⟨Nat.le_refl _, h.formed.start_le_stop, Nat.le_refl _⟩
    · obtain ⟨c, hc, hin⟩ :=
        liesIn_of_mem_preorderList children (fun _ hc => h.child hc) m hm hkind
      exact hin.trans (h.liesIn_of_mem_parts (mem_parts.2 hc))

theorem liesIn_of_mem_preorderList : ∀ nodes : List Node, (∀ n ∈ nodes, n.Grammatical) →
    ∀ m ∈ preorderList nodes, m.kind ≠ .comment →
      ∃ c, (c ∈ nodes ∧ c.kind ≠ .comment) ∧ m.LiesIn c
  | [], _, m, hm, _ => by
    rw [preorderList] at hm
    cases hm
  | n :: rest, h, m, hm, hkind => by
    obtain ⟨hn, hrest⟩ := List.forall_mem_cons.1 h
    rw [preorderList, List.mem_append] at hm
    rcases hm with hm | hm
    · have hnkind : n.kind ≠ .comment := fun hcomment => hkind (hn.comments hcomment m hm)
      exact ⟨n, ⟨List.mem_cons_self, hnkind⟩, hn.liesIn m hm hkind⟩
    · obtain ⟨c, ⟨hc, hckind⟩, hin⟩ := liesIn_of_mem_preorderList rest hrest m hm hkind
      exact ⟨c, ⟨List.mem_cons_of_mem n hc, hckind⟩, hin⟩

end

/-! ### Comments that are put in -/

section Comments

variable {comment : Span} {p : Node → Bool} {q : Kind → Bool} {P : Kind → Prop}

@[simp] theorem insertComment_kind (n : Node) : (n.insertComment comment).kind = n.kind := by
  obtain ⟨kind, field, start, stop, children⟩ := n
  rw [insertComment]

@[simp] theorem insertComment_field (n : Node) : (n.insertComment comment).field = n.field := by
  obtain ⟨kind, field, start, stop, children⟩ := n
  rw [insertComment]

@[simp] theorem insertComment_start (n : Node) : (n.insertComment comment).start = n.start := by
  obtain ⟨kind, field, start, stop, children⟩ := n
  rw [insertComment]

@[simp] theorem insertComment_stop (n : Node) : (n.insertComment comment).stop = n.stop := by
  obtain ⟨kind, field, start, stop, children⟩ := n
  rw [insertComment]

@[simp] theorem insertComment_children (n : Node) :
    (n.insertComment comment).children = insertCommentList comment n.children := by
  obtain ⟨kind, field, start, stop, children⟩ := n
  rw [insertComment]

/-- A comment goes between siblings, before the first one only if it ends before that, or into a sibling
that spans it. -/
inductive Inserted (comment : Span) : List Node → List Node → Prop
  | between (front back : List Node)
      (hfirst : front = [] → ∀ n ∈ back.head?, comment.stop ≤ n.start) :
      Inserted comment (front ++ back) (front ++ leaf .comment comment.start comment.stop :: back)
  | inside (front : List Node) (n : Node) (back : List Node) :
      Inserted comment (front ++ n :: back) (front ++ n.insertComment comment :: back)

theorem inserted_insertCommentList (comment : Span) (nodes : List Node) :
    Inserted comment nodes (insertCommentList comment nodes) := by
  induction nodes with
  | nil =>
    rw [insertCommentList]
    exact .between [] [] fun _ => nofun
  | cons n rest ih =>
    rw [insertCommentList]
    split
    · rename_i hbefore
      refine .between [] (n :: rest) fun _ m hm => ?_
      cases hm
      exact hbefore
    · split
      · exact .inside [] n rest
      · generalize insertCommentList comment rest = rest' at ih
        cases ih with
        | between front back _ => exact .between (n :: front) back nofun
        | inside front m back => exact .inside (n :: front) m back

namespace Inserted

theorem row (h : Inserted comment nodes nodes')
    (hrow : Row k (nodes.filter (·.kind != .comment)) k') :
    Row k (nodes'.filter (·.kind != .comment)) k' := by
  cases h with
  | between front back _ =>
    rwa [List.filter_append, List.filter_cons_of_neg (by simp [leaf]), ← List.filter_append]
  | inside front n back =>
    rw [List.filter_append] at hrow ⊢
    by_cases hkind : n.kind = .comment
    · rwa [List.filter_cons_of_neg (by simpa using hkind)] at hrow ⊢
    · rw [List.filter_cons_of_pos (by simpa using hkind)] at hrow ⊢
      exact hrow.replace (insertComment_start n) (insertComment_stop n)

theorem forall_kind (h : Inserted comment nodes nodes') (hcomment : P .comment)
    (hnodes : ∀ n ∈ nodes, P n.kind) : ∀ n ∈ nodes', P n.kind := by
  cases h with
  | between front back _ =>
    obtain ⟨hfront, hback⟩ := List.forall_mem_append.1 hnodes
    exact List.forall_mem_append.2 ⟨hfront, List.forall_mem_cons.2 ⟨hcomment, hback⟩⟩
  | inside front n back =>
    obtain ⟨hfront, hback⟩ := List.forall_mem_append.1 hnodes
    obtain ⟨hn, hback⟩ := List.forall_mem_cons.1 hback
    refine List.forall_mem_append.2 ⟨hfront, List.forall_mem_cons.2 ⟨?_, hback⟩⟩
    rwa [insertComment_kind]

theorem countP (h : Inserted comment nodes nodes') (hcomment : q .comment = false) :
    nodes'.countP (fun n => q n.kind) = nodes.countP (fun n => q n.kind) := by
  cases h with
  | between front back _ => simp [List.countP_append, leaf, hcomment]
  | inside front n back => simp [List.countP_append, List.countP_cons]

/-- The first child that plays a part is the same as before, comments in it aside. -/
theorem find? (h : Inserted comment nodes nodes') (field : Field) :
    nodes'.find? (·.field == some field) = nodes.find? (·.field == some field) ∨
      ∃ n, nodes.find? (·.field == some field) = some n ∧
        nodes'.find? (·.field == some field) = some (n.insertComment comment) := by
  cases h with
  | between front back _ =>
    left
    rw [List.find?_append, List.find?_append, List.find?_cons_of_neg (by simp [leaf])]
  | inside front n back =>
    rw [List.find?_append, List.find?_append]
    cases front.find? (·.field == some field) with
    | none =>
      rw [Option.none_or, Option.none_or]
      by_cases hn : n.field = some field
      · refine .inr ⟨n, List.find?_cons_of_pos (beq_iff_eq.2 hn), List.find?_cons_of_pos ?_⟩
        simpa using hn
      · left
        rw [List.find?_cons_of_neg (by simpa using hn), List.find?_cons_of_neg (by simpa using hn)]
    | some m =>
      rw [Option.some_or, Option.some_or]
      exact .inl rfl

end Inserted

mutual

theorem kind_of_mem_insertComment (comment : Span) : ∀ n : Node,
    ∀ m ∈ (n.insertComment comment).preorder, m.kind = .comment ∨ ∃ m' ∈ n.preorder, m'.kind = m.kind
  | ⟨kind, field, start, stop, children⟩, m, hm => by
    rcases mem_preorder.1 hm with rfl | hm
    · exact .inr ⟨_, mem_preorder.2 (.inl rfl), (insertComment_kind _).symm⟩
    · rw [insertComment_children] at hm
      refine (kind_of_mem_insertCommentList comment children m hm).imp_right ?_
      rintro ⟨m', hm', hkind⟩
      exact ⟨m', mem_preorder.2 (.inr hm'), hkind⟩

theorem kind_of_mem_insertCommentList (comment : Span) : ∀ nodes : List Node,
    ∀ m ∈ preorderList (insertCommentList comment nodes),
      m.kind = .comment ∨ ∃ m' ∈ preorderList nodes, m'.kind = m.kind
  | [], m, hm => by
    rw [insertCommentList] at hm
    simp only [preorderList, preorder, leaf, List.append_nil, List.mem_singleton] at hm
    exact .inl (by rw [hm])
  | n :: rest, m, hm => by
    have hsame : ∀ {l : List Node}, m ∈ preorderList l → ∃ m' ∈ preorderList l, m'.kind = m.kind :=
      fun h => ⟨m, h, rfl⟩
    rw [insertCommentList] at hm
    split at hm
    · rw [preorderList, List.mem_append] at hm
      rcases hm with hm | hm
      · simp only [preorder, preorderList, leaf, List.mem_singleton] at hm
        exact .inl (by rw [hm])
      · exact .inr (hsame hm)
    · split at hm
      · rw [preorderList, List.mem_append] at hm
        rcases hm with hm | hm
        · refine (kind_of_mem_insertComment comment n m hm).imp_right ?_
          rintro ⟨m', hm', hkind⟩
          exact ⟨m', by rw [preorderList]; exact List.mem_append_left _ hm', hkind⟩
        · exact .inr ⟨m, by rw [preorderList]; exact List.mem_append_right _ hm, rfl⟩
      · rw [preorderList, List.mem_append] at hm
        rcases hm with hm | hm
        · exact .inr ⟨m, by rw [preorderList]; exact List.mem_append_left _ hm, rfl⟩
        · refine (kind_of_mem_insertCommentList comment rest m hm).imp_right ?_
          rintro ⟨m', hm', hkind⟩
          exact ⟨m', by rw [preorderList]; exact List.mem_append_right _ hm', hkind⟩

end

theorem Simple.insertComment (h : n.Simple) : (n.insertComment comment).Simple := by
  refine ⟨by rw [insertComment_kind]; exact h.kind, ?_, fun m hm => ?_⟩
  · rw [insertComment_start, insertComment_stop]
    exact h.nonempty
  · rcases kind_of_mem_insertComment comment n m hm with hcomment | ⟨m', hm', hkind⟩
    · rw [hcomment]
      rfl
    · rw [← hkind]
      exact h.plain m' hm'

/-- A child that is found stays the one, with the comment in it or not. -/
theorem child?_insertComment (n : Node) (field : Field) :
    (n.insertComment comment).child? field = n.child? field ∨ ∃ x, n.child? field = some x ∧
      (n.insertComment comment).child? field = some (x.insertComment comment) := by
  unfold child?
  rw [insertComment_children]
  exact (inserted_insertCommentList comment n.children).find? field

/-- A comment in a node leaves it as the grammar says. -/
theorem Formed.insertComment (h : n.Formed) (hnonempty : comment.start < comment.stop)
    (hstart : n.start ≤ comment.start) : (n.insertComment comment).Formed := by
  have hinserted := inserted_insertCommentList comment n.children
  constructor
  · unfold parts
    rw [insertComment_children, insertComment_start, insertComment_stop]
    exact hinserted.row h.row
  · rw [insertComment_kind, insertComment_children]
    exact fun hkind => hinserted.forall_kind (P := (· = .comment)) rfl (h.leaf hkind)
  · rw [insertComment_kind, insertComment_start, insertComment_stop]
    exact h.nonempty
  · rw [insertComment_kind]
    intro hkind x hx
    rcases child?_insertComment n .name with hsame | ⟨y, hy, hinside⟩
    · exact h.name hkind x (hsame ▸ hx)
    · obtain rfl : y.insertComment comment = x := Option.some.inj (hinside.symm.trans hx)
      exact (h.name hkind y hy).insertComment
  · rw [insertComment_kind, insertComment_children, insertComment_start]
    intro hkind
    obtain ⟨x, rest, hchildren, hnamed, hx, hsimple⟩ := h.property hkind
    rw [hchildren, insertCommentList]
    -- The comment cannot stand before the name, which starts where the attribute does.
    rw [if_neg (by omega)]
    split
    · refine ⟨_, _, rfl, ?_, ?_, hsimple.insertComment⟩
      · unfold isNamed at hnamed ⊢
        rwa [insertComment_kind]
      · rw [insertComment_start]
        exact hx
    · exact ⟨_, _, rfl, hnamed, hx, hsimple⟩
  · rw [insertComment_kind, insertComment_children]
    exact fun hkind => hinserted.forall_kind (P := fun kind => kind.isPairedTag = false) rfl (h.tags hkind)
  · rw [insertComment_kind, insertComment_children]
    intro hkind
    obtain ⟨hopening, hclosing, x, hx, hxkind⟩ := h.element hkind
    refine ⟨?_, ?_, ?_⟩
    · exact (hinserted.countP (q := (· == .jsxOpeningElement)) rfl).trans hopening
    · exact (hinserted.countP (q := (· == .jsxClosingElement)) rfl).trans hclosing
    · rcases child?_insertComment n .closeTag with hsame | ⟨y, hy, hinside⟩
      · exact ⟨x, hsame ▸ hx, hxkind⟩
      · obtain rfl : y = x := Option.some.inj (hy.symm.trans hx)
        exact ⟨_, hinside, by rwa [insertComment_kind]⟩

end Comments

/-! ### Names that are picked -/

/-- A simple node right below a node, or below a child at which nothing is picked. -/
inductive Spot (pick : Node → List Node) (n x : Node) : Prop
  | child (hx : x ∈ n.children) (hsimple : x.Simple)
  | grandchild (c : Node) (hc : c ∈ n.parts) (hnone : pick c = []) (hx : x ∈ c.children)
      (hsimple : x.Simple)

/-- Names are picked at nodes that hold one. -/
structure Picks (pick : Node → List Node) : Prop where
  holder : ∀ n, n.Grammatical → ∀ x ∈ pick n, n.kind.holdsName = true
  spot : ∀ n, n.Grammatical → ∀ x ∈ pick n, Spot pick n x
  beside : ∀ n, n.Grammatical → (pick n).Pairwise Beside

theorem simple_leaf {kind : Kind} {start stop : Nat} (hcomment : kind ≠ .comment)
    (hholds : kind.holdsName = false) (hlt : start < stop) : (leaf kind start stop).Simple := by
  refine ⟨hcomment, hlt, fun m hm => ?_⟩
  simp only [leaf, preorder, preorderList, List.mem_singleton] at hm
  rw [hm]
  exact hholds

/-- A name by itself is simple. -/
theorem Grammatical.simple (h : n.Grammatical) (hkind : n.kind = .identifier) : n.Simple := by
  refine ⟨by rw [hkind]; decide, h.formed.nonempty hkind, fun m hm => ?_⟩
  rcases mem_preorder.1 hm with rfl | hm
  · rw [hkind]
    rfl
  · obtain ⟨c, hc, hm⟩ := mem_preorderList.1 hm
    rw [(h.child hc).comments (h.formed.leaf (.inr hkind) c hc) m hm]
    rfl

theorem Simple.mem_parts (h : x.Simple) (hx : x ∈ n.children) : x ∈ n.parts :=
  Node.mem_parts.2 ⟨hx, h.kind⟩

theorem ne_comment_of_holdsName (h : n.kind.holdsName = true) : n.kind ≠ .comment := by
  intro hkind
  rw [hkind] at h
  cases h

section Picks

variable {pick : Node → List Node}

theorem Spot.exists_part (h : Spot pick n x) (hn : n.Grammatical) : ∃ c ∈ n.parts, x.LiesIn c := by
  cases h with
  | child hx hsimple =>
    exact ⟨x, hsimple.mem_parts hx, Nat.le_refl _, Nat.le_of_lt hsimple.nonempty, Nat.le_refl _⟩
  | grandchild c hc _ hx hsimple =>
    have hchild := hn.child (Node.mem_parts.1 hc).1
    exact ⟨c, hc, hchild.liesIn_of_mem_parts (hsimple.mem_parts hx)⟩

theorem Spot.nonempty (h : Spot pick n x) : x.start < x.stop := by
  cases h with
  | child _ hsimple => exact hsimple.nonempty
  | grandchild _ _ _ _ hsimple => exact hsimple.nonempty

theorem Spot.liesIn (h : Spot pick n x) (hn : n.Grammatical) : x.LiesIn n :=
  have ⟨_, hc, hin⟩ := h.exists_part hn
  hin.trans (hn.liesIn_of_mem_parts hc)

/-- What is picked anywhere below a node lies in a part of the node. -/
theorem Picks.exists_part (h : Picks pick) (hn : n.Grammatical) (hm : m ∈ n.preorder)
    (hx : x ∈ pick m) : ∃ c ∈ n.parts, x.LiesIn c := by
  have hkind := ne_comment_of_holdsName (h.holder m (hn.of_mem_preorder m hm) x hx)
  rcases mem_preorder.1 hm with rfl | hbelow
  · exact (h.spot m hn x hx).exists_part hn
  · obtain ⟨c, hc, hmc⟩ := hn.exists_part hbelow hkind
    have hchild := hn.child (Node.mem_parts.1 hc).1
    have hin := (h.spot m (hchild.of_mem_preorder m hmc) x hx).liesIn (hchild.of_mem_preorder m hmc)
    exact ⟨c, hc, hin.trans (hchild.liesIn m hmc hkind)⟩

theorem Picks.liesIn (h : Picks pick) (hn : n.Grammatical) (hm : m ∈ n.preorder) (hx : x ∈ pick m) :
    x.LiesIn n :=
  have ⟨_, hc, hin⟩ := h.exists_part hn hm hx
  hin.trans (hn.liesIn_of_mem_parts hc)

theorem Grammatical.below (h : n.Grammatical) (hm : m ∈ preorderList n.children) : m.Grammatical :=
  h.of_mem_preorder m (mem_preorder.2 (.inr hm))

/-- A simple child stands beside whatever is picked further below. -/
theorem Picks.beside_child (h : Picks pick) (hn : n.Grammatical) (hx : x ∈ n.children)
    (hsimple : x.Simple) (hm : m ∈ preorderList n.children) (hy : y ∈ pick m) : x.Beside y := by
  have hholds := h.holder m (hn.below hm) y hy
  obtain ⟨c, hc, hmc⟩ := hn.exists_part hm (ne_comment_of_holdsName hholds)
  have hchild := hn.child (Node.mem_parts.1 hc).1
  have hne : x ≠ c := by
    rintro rfl
    rw [hsimple.plain m hmc] at hholds
    cases hholds
  have hself : x.LiesIn x := ⟨Nat.le_refl _, Nat.le_of_lt hsimple.nonempty, Nat.le_refl _⟩
  exact (hn.formed.row.beside (hsimple.mem_parts hx) hc hne).mono hself (h.liesIn hchild hmc hy)

/-- What is picked at a node stands beside whatever is picked further below. -/
theorem Picks.beside_below (h : Picks pick) (hn : n.Grammatical) (hx : x ∈ pick n)
    (hm : m ∈ preorderList n.children) (hy : y ∈ pick m) : x.Beside y := by
  cases h.spot n hn x hx with
  | child hx hsimple => exact h.beside_child hn hx hsimple hm hy
  | grandchild d hd hnone hx hsimple =>
    have hkind := ne_comment_of_holdsName (h.holder m (hn.below hm) y hy)
    obtain ⟨c, hc, hmc⟩ := hn.exists_part hm hkind
    have hdchild := hn.child (Node.mem_parts.1 hd).1
    by_cases hne : d = c
    · subst hne
      rcases mem_preorder.1 hmc with rfl | hmc
      · rw [hnone] at hy
        cases hy
      · exact h.beside_child hdchild hx hsimple hmc hy
    · have hcchild := hn.child (Node.mem_parts.1 hc).1
      exact (hn.formed.row.beside hd hc hne).mono
        (hdchild.liesIn_of_mem_parts (hsimple.mem_parts hx)) (h.liesIn hcchild hmc hy)

/-- The names that are picked at two nodes stand beside each other. -/
def PickedApart (pick : Node → List Node) (m n : Node) : Prop :=
  ∀ x ∈ pick m, ∀ y ∈ pick n, x.Beside y

instance : Std.Symm (PickedApart pick) := ⟨fun _ _ h y hy x hx => (h x hx y hy).symm⟩

mutual

theorem Picks.pickedApart (h : Picks pick) : ∀ {n : Node}, n.Grammatical →
    n.preorder.Pairwise (PickedApart pick)
  | ⟨kind, field, start, stop, children⟩, hn => by
    rw [preorder]
    refine List.pairwise_cons.2 ⟨fun m hm x hx y hy => h.beside_below hn hx hm hy, ?_⟩
    exact h.pickedApart_preorderList children (fun _ hc => hn.child hc) hn.formed.row

theorem Picks.pickedApart_preorderList (h : Picks pick) : ∀ (nodes : List Node) {k k' : Nat},
    (∀ n ∈ nodes, n.Grammatical) → Row k (nodes.filter (·.kind != .comment)) k' →
      (preorderList nodes).Pairwise (PickedApart pick)
  | [], _, _, _, _ => by
    rw [preorderList]
    exact .nil
  | n :: rest, k, k', hnodes, hrow => by
    obtain ⟨hn, hrest⟩ := List.forall_mem_cons.1 hnodes
    have hrestRow := hrow.sublist ((List.sublist_cons_self n rest).filter _)
    rw [preorderList]
    refine List.pairwise_append.2
      ⟨h.pickedApart hn, h.pickedApart_preorderList rest hrest hrestRow, ?_⟩
    intro m hm m' hm' x hx y hy
    have hkind := ne_comment_of_holdsName (h.holder m (hn.of_mem_preorder m hm) x hx)
    have hnkind : n.kind ≠ .comment := fun hcomment => hkind (hn.comments hcomment m hm)
    obtain ⟨c, hc, hm'⟩ := mem_preorderList.1 hm'
    have hkind' :=
      ne_comment_of_holdsName (h.holder m' ((hrest c hc).of_mem_preorder m' hm') y hy)
    have hckind : c.kind ≠ .comment := fun hcomment => hkind' ((hrest c hc).comments hcomment m' hm')
    rw [List.filter_cons_of_pos (by simpa using hnkind)] at hrow
    have hbefore : n.stop ≤ c.start :=
      (List.pairwise_cons.1 hrow.pairwise).1 c (List.mem_filter.2 ⟨hc, by simpa using hckind⟩)
    have hxn := h.liesIn hn hm hx
    have hyc := h.liesIn (hrest c hc) hm' hy
    exact .inl (Nat.le_trans hxn.stop_le (Nat.le_trans hbefore hyc.start_le))

end

/-- **Names that are picked in a tree stand beside each other.** -/
theorem Picks.pairwise_beside (h : Picks pick) (hn : n.Grammatical) :
    (n.preorder.flatMap pick).Pairwise Beside :=
  List.pairwise_flatMap.2 ⟨fun m hm => h.beside m (hn.of_mem_preorder m hm), h.pickedApart hn⟩

/-- One range is picked at one node only. -/
theorem Picks.eq_of_span_eq (h : Picks pick) (hn : n.Grammatical) (hm : m ∈ n.preorder)
    (hc : c ∈ n.preorder) (hx : x ∈ pick m) (hy : y ∈ pick c) (hspan : x.span = y.span) : m = c := by
  by_contra hne
  have hnonempty := (h.spot m (hn.of_mem_preorder m hm) x hx).nonempty
  have hbeside : x.Beside y :=
    (h.pickedApart hn).forall hm hc hne x hx y hy
  obtain ⟨hstart, hstop⟩ : x.start = y.start ∧ x.stop = y.stop := Span.mk.inj hspan
  unfold Beside at hbeside
  omega

end Picks

end Node

end WebMigration.Syntax
