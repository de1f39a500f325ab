import WebMigration.Syntax.Kind

/-!
# Syntax trees

A node covers a range of bytes of its file and owns its children in source order.  `Node.preorder`
lists every node of a tree before its children.  `Node.visits` lists the same nodes together with the
node that each one hangs from.

The analyses of a file look at the nodes of its tree one at a time, by a walk that keeps a stack of
the nodes whose subtrees are still ahead.  A step takes the node on top and puts its children in its
place, the last child first, so that the first child comes out on top.  What lies ahead of a walk is
the preorder of its stack; a step moves the first node that lies ahead to the visited ones
(`Walk.of_step?`), so the walk ends, and it has then visited the preorder of the tree
(`Node.walk_eq_preorder`).
-/

namespace WebMigration.Syntax

/-- A range of byte offsets, the end excluded. -/
structure Span where
  start : Nat
  stop : Nat
  deriving DecidableEq, Repr, Inhabited

/-- A node of a syntax tree. -/
structure Node where
  kind : Kind
  /-- The part that the node plays in its parent. -/
  field : Option Field
  start : Nat
  stop : Nat
  children : List Node
  deriving Repr, Inhabited

namespace Node

/-- A node without children. -/
def leaf (kind : Kind) (start stop : Nat) : Node := ⟨kind, none, start, stop, []⟩

/-- A node over its children, covering them; without children it is empty and stands at `start`. -/
def spanning (kind : Kind) (start : Nat) (children : List Node) : Node :=
  ⟨kind, none, (children.head?.map (·.start)).getD start,
    (children.getLast?.map (·.stop)).getD start, children⟩

/-- The same node playing a part. -/
def as (field : Field) (n : Node) : Node := { n with field := some field }

/-- The same node under another kind. -/
def retag (kind : Kind) (n : Node) : Node := { n with kind }

def span (n : Node) : Span := ⟨n.start, n.stop⟩

def isNamed (n : Node) : Bool := n.kind.isNamed

def namedChildren (n : Node) : List Node := n.children.filter (·.isNamed)

/-- The first child that plays a part. -/
def child? (n : Node) (field : Field) : Option Node :=
  n.children.find? (·.field == some field)

/-- The first child of a kind. -/
def childOfKind? (n : Node) (kind : Kind) : Option Node :=
  n.children.find? (·.kind == kind)

mutual

/-- The nodes of a tree, each before its children, children in order. -/
def preorder : Node → List Node
  | ⟨kind, field, start, stop, children⟩ =>
      ⟨kind, field, start, stop, children⟩ :: preorderList children

/-- The nodes of a list of trees, tree after tree. -/
def preorderList : List Node → List Node
  | [] => []
  | n :: rest => n.preorder ++ preorderList rest

end

theorem preorder_eq (n : Node) : n.preorder = n :: preorderList n.children := by
  cases n
  rw [preorder]

theorem preorderList_append (a b : List Node) :
    preorderList (a ++ b) = preorderList a ++ preorderList b := by
  induction a with
  | nil => rw [preorderList, List.nil_append, List.nil_append]
  | cons n rest ih => rw [List.cons_append, preorderList, preorderList, ih, List.append_assoc]

/-- A node together with the node that it is a child of. -/
structure Visit where
  node : Node
  parent : Option Node
  deriving Inhabited

mutual

/-- The visits of a tree that hangs from `parent`, in the order of `preorder`. -/
def visitsUnder (parent : Option Node) : Node → List Visit
  | ⟨kind, field, start, stop, children⟩ =>
      ⟨⟨kind, field, start, stop, children⟩, parent⟩ ::
        visitsUnderList (some ⟨kind, field, start, stop, children⟩) children

/-- The visits of a list of trees that hang from one parent. -/
def visitsUnderList (parent : Option Node) : List Node → List Visit
  | [] => []
  | n :: rest => n.visitsUnder parent ++ visitsUnderList parent rest

end

/-- Every node of a tree with its parent. -/
def visits (root : Node) : List Visit := root.visitsUnder none

mutual

/-- Puts a comment below the innermost node that spans it, among that node's children. -/
def insertComment (comment : Span) : Node → Node
  | ⟨kind, field, start, stop, children⟩ =>
      ⟨kind, field, start, stop, insertCommentList comment children⟩

/-- Puts a comment among siblings in source order, or inside the sibling that spans it. -/
def insertCommentList (comment : Span) : List Node → List Node
  | [] => [leaf .comment comment.start comment.stop]
  | n :: rest =>
      if comment.stop ≤ n.start then leaf .comment comment.start comment.stop :: n :: rest
      else if n.start ≤ comment.start && comment.stop ≤ n.stop then
        n.insertComment comment :: rest
      else n :: insertCommentList comment rest

end

end Node

/-- A walk under way. -/
structure Walk where
  /-- The visited nodes, the latest first. -/
  visited : List Node
  /-- The nodes whose subtrees are still to be visited, the next one first. -/
  stack : List Node

namespace Walk

def start (root : Node) : Walk := ⟨[], [root]⟩

/-- Pushes nodes one after the other. -/
def pushAll (nodes stack : List Node) : List Node := nodes.foldl (fun stack n => n :: stack) stack

/-- Visits the node on top of the stack; there is no step from an empty stack. -/
def step? : Walk → Option Walk
  | ⟨_, []⟩ => none
  | ⟨visited, n :: rest⟩ => some ⟨n :: visited, pushAll n.children.reverse rest⟩

/-- The nodes that are still to be visited. -/
def ahead (w : Walk) : List Node := Node.preorderList w.stack

theorem pushAll_reverse (nodes stack : List Node) :
    pushAll nodes.reverse stack = nodes ++ stack := by
  rw [pushAll, List.foldl_flip_cons_eq_append', List.reverse_reverse]

/-- A step visits the first node ahead and leaves the others ahead. -/
theorem of_step? {w next : Walk} (h : w.step? = some next) :
    ∃ n, next.visited = n :: w.visited ∧ w.ahead = n :: next.ahead := by
  obtain ⟨visited, _ | ⟨n, rest⟩⟩ := w
  · cases h
  · obtain rfl := Option.some.inj h
    refine ⟨n, rfl, ?_⟩
    rw [ahead, ahead, pushAll_reverse, Node.preorderList_append, Node.preorderList, Node.preorder_eq,
      List.cons_append]

theorem step?_eq_none {w : Walk} : w.step? = none ↔ w.ahead = [] := by
  obtain ⟨visited, _ | ⟨n, rest⟩⟩ := w
  · simp [step?, ahead, Node.preorderList]
  · simp [step?, ahead, Node.preorderList, Node.preorder_eq]

/-- The nodes visited once the stack is empty, the first one first. -/
def finish (w : Walk) : List Node :=
  match _hstep : w.step? with
  | none => w.visited.reverse
  | some next => next.finish
termination_by w.ahead.length
decreasing_by
  obtain ⟨n, -, hahead⟩ := of_step? _hstep
  rw [hahead]
  exact Nat.lt_succ_self _

/-- Nothing is visited but the nodes ahead, and these in their order. -/
theorem finish_eq (w : Walk) : w.finish = w.visited.reverse ++ w.ahead := by
  fun_induction finish w with
  | case1 w h => rw [step?_eq_none.1 h, List.append_nil]
  | case2 w next h ih =>
    obtain ⟨n, hvisited, hahead⟩ := of_step? h
    rw [ih, hvisited, hahead, List.reverse_cons, List.append_assoc, List.singleton_append]

end Walk

/-- The nodes of a tree in the order in which a walk visits them. -/
def Node.walk (root : Node) : List Node := (Walk.start root).finish

@[simp] theorem Walk.ahead_start (root : Node) : (Walk.start root).ahead = root.preorder := by
  simp [ahead, start, Node.preorderList]

theorem Node.walk_eq_preorder (root : Node) : root.walk = root.preorder := by
  rw [walk, Walk.finish_eq, Walk.ahead_start]
  rfl

end WebMigration.Syntax
