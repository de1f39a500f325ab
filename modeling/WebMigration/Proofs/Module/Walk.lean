import WebMigration.Proofs.Module.Scope
import WebMigration.Proofs.Module.Source
import WebMigration.Proofs.Syntax.Grammar.Statement

/-!
# Walks and what they find

A walk is at every place of a tree once, in the order of the places' addresses: after `k` steps it has
visited the first `k` nodes of the preorder, and it can go on exactly as long as there are more.  So an
analysis that picks something at each node finds it once for each node where it is.

Where the children of every node stand in order and inside it, the nodes of the preorder start one
after the other, and so do the references of a file.  In a parsed file this is so of all nodes but the
comments, and no reference is a comment.
-/

namespace WebMigration.Syntax

/-! ### Steps of a walk -/

namespace Walk

/-- A walk some steps later, if there are as many. -/
def after : Nat → Walk → Option Walk
  | 0, w => some w
  | k + 1, w => w.step?.bind (after k)

/-- Every step visits the next node ahead, and there are as many steps as nodes ahead. -/
theorem visited_after (k : Nat) (w : Walk) : (w.after k).map (·.visited.reverse) =
    if k ≤ w.ahead.length then some (w.visited.reverse ++ w.ahead.take k) else none := by
  induction k generalizing w with
  | zero => simp [after]
  | succ k ih =>
    rw [after]
    cases hstep : w.step? with
    | none => simp [step?_eq_none.1 hstep]
    | some next =>
      obtain ⟨n, hvisited, hahead⟩ := of_step? hstep
      simp [ih, hvisited, hahead]

end Walk

namespace Node

mutual

theorem map_node_visitsUnder (parent : Option Node) :
    ∀ n : Node, (n.visitsUnder parent).map (·.node) = n.preorder
  | ⟨kind, field, start, stop, children⟩ => by
    rw [visitsUnder, preorder, List.map_cons, map_node_visitsUnderList]

theorem map_node_visitsUnderList (parent : Option Node) :
    ∀ nodes : List Node, (visitsUnderList parent nodes).map (·.node) = preorderList nodes
  | [] => rfl
  | n :: rest => by
    rw [visitsUnderList, preorderList, List.map_append, map_node_visitsUnder,
      map_node_visitsUnderList]

end

/-- A walk meets the nodes of a tree as its visits do. -/
theorem map_node_visits (root : Node) : root.visits.map (·.node) = root.walk := by
  rw [walk_eq_preorder, visits, map_node_visitsUnder]

end Node

/-! ### Addresses -/

/-- The numbers of the children that lead from the root to a place. -/
def Place.address (p : Place) : List Nat := p.path.reverse

theorem Place.address_cons (n parent : Node) (index : Nat) (above : List (Node × Nat)) :
    Place.address ⟨n, (parent, index) :: above⟩ = Place.address ⟨parent, above⟩ ++ [index] :=
  List.reverse_cons

namespace Node

/-- The node at the end of a path, which lists the numbers of the children that lead to it, the last one
first. -/
def at? (root : Node) : List Nat → Option Node
  | [] => some root
  | index :: path => (root.at? path).bind fun n => n.children[index]?

/-- The places of a tree are the nodes at the ends of its paths. -/
theorem exists_place_iff {root n : Node} {path : List Nat} :
    (∃ p ∈ root.places, p.path = path ∧ p.node = n) ↔ root.at? path = some n := by
  induction path generalizing n with
  | nil =>
    rw [at?, Option.some_inj]
    constructor
    · rintro ⟨p, hp, hpath, rfl⟩
      rcases mem_places.1 hp with rfl | ⟨q, -, k, c, -, rfl⟩
      · rfl
      · cases hpath
    · rintro rfl
      exact ⟨⟨root, []⟩, mem_places.2 (.inl rfl), rfl, rfl⟩
  | cons index path ih =>
    rw [at?, Option.bind_eq_some_iff]
    constructor
    · rintro ⟨p, hp, hpath, rfl⟩
      rcases mem_places.1 hp with rfl | ⟨q, hq, k, c, hc, rfl⟩
      · cases hpath
      · obtain ⟨rfl, rfl⟩ := List.cons.inj hpath
        exact ⟨q.node, ih.1 ⟨q, hq, rfl, rfl⟩, hc⟩
    · rintro ⟨m, hm, hn⟩
      obtain ⟨q, hq, rfl, rfl⟩ := ih.2 hm
      exact ⟨q.below index n, below_mem_places hq hn, rfl, rfl⟩

mutual

/-- The addresses in a tree go on from that of its root. -/
theorem address_of_mem_placesUnder {p : Place} : ∀ {above : List (Node × Nat)} {n : Node},
    p ∈ n.placesUnder above → ∃ a, p.address = Place.address ⟨n, above⟩ ++ a
  | above, ⟨kind, field, start, stop, children⟩, hp => by
    rw [placesUnder, List.mem_cons] at hp
    rcases hp with rfl | hp
    · exact ⟨[], (List.append_nil _).symm⟩
    · obtain ⟨k, a, -, h⟩ := address_of_mem_placesUnderList hp
      exact ⟨k :: a, h⟩

theorem address_of_mem_placesUnderList {p : Place} : ∀ {above : List (Node × Nat)} {parent : Node}
    {index : Nat} {nodes : List Node}, p ∈ placesUnderList above parent index nodes →
      ∃ k a, index ≤ k ∧ p.address = Place.address ⟨parent, above⟩ ++ k :: a
  | above, parent, index, [], hp => by cases hp
  | above, parent, index, n :: rest, hp => by
    rw [placesUnderList, List.mem_append] at hp
    rcases hp with hp | hp
    · obtain ⟨a, h⟩ := address_of_mem_placesUnder hp
      rw [Place.address_cons, List.append_assoc, List.singleton_append] at h
      exact ⟨index, a, Nat.le_refl index, h⟩
    · obtain ⟨k, a, hk, h⟩ := address_of_mem_placesUnderList hp
      exact ⟨k, a, Nat.le_of_succ_le hk, h⟩

end

/-- An address is less than those that go on from it. -/
theorem lt_append_cons (a : List Nat) (k : Nat) (b : List Nat) : a < a ++ k :: b := by
  have hlt : a ++ [] < a ++ k :: b := List.append_left_lt (List.nil_lt_cons k b)
  rwa [List.append_nil] at hlt

mutual

theorem pairwise_placesUnder : ∀ (above : List (Node × Nat)) (n : Node),
    (n.placesUnder above).Pairwise fun p q => p.address < q.address
  | above, ⟨kind, field, start, stop, children⟩ => by
    rw [placesUnder]
    refine List.pairwise_cons.2 ⟨fun q hq => ?_, pairwise_placesUnderList above _ 0 children⟩
    obtain ⟨k, b, -, hq⟩ := address_of_mem_placesUnderList hq
    rw [hq]
    exact lt_append_cons _ k b

theorem pairwise_placesUnderList : ∀ (above : List (Node × Nat)) (parent : Node) (index : Nat)
    (nodes : List Node),
      (placesUnderList above parent index nodes).Pairwise fun p q => p.address < q.address
  | above, parent, index, [] => .nil
  | above, parent, index, n :: rest => by
    rw [placesUnderList]
    refine List.pairwise_append.2 ⟨pairwise_placesUnder _ n,
      pairwise_placesUnderList above parent (index + 1) rest, fun p hp q hq => ?_⟩
    -- The addresses part at the number of the child, which is smaller in the first tree.
    obtain ⟨a, hp⟩ := address_of_mem_placesUnder hp
    obtain ⟨k, b, hk, hq⟩ := address_of_mem_placesUnderList hq
    rw [hp, hq, Place.address_cons, List.append_assoc, List.singleton_append]
    exact List.append_left_lt (List.cons_lt_cons_iff.2 (.inl hk))

end

/-- The places of a tree have ascending addresses, so no two of them are the same. -/
theorem pairwise_places (root : Node) : root.places.Pairwise fun p q => p.address < q.address :=
  pairwise_placesUnder [] root

/-! ### The order of starts -/

/-- The kept ones among the children of every node of a tree stand in order and inside it, and nothing is
kept below a node that is not kept. -/
structure Orderly (keep : Node → Bool) (root : Node) : Prop where
  row : ∀ n ∈ root.preorder, Row n.start (n.children.filter keep) n.stop
  below : ∀ n ∈ root.preorder, keep n = false → ∀ m ∈ n.preorder, keep m = false

section Orderly

variable {keep : Node → Bool} {k k' : Nat} {c n : Node}

theorem Orderly.child (h : n.Orderly keep) (hc : c ∈ n.children) : c.Orderly keep := by
  have hsub : ∀ m ∈ c.preorder, m ∈ n.preorder := fun m hm =>
    mem_preorder.2 (.inr (mem_preorderList.2 ⟨c, hc, hm⟩))
  exact ⟨fun m hm => h.row m (hsub m hm), fun m hm => h.below m (hsub m hm)⟩

/-- Nodes start one after the other, from one offset on and no later than another one. -/
structure Ascending (k : Nat) (nodes : List Node) (k' : Nat) : Prop where
  pairwise : nodes.Pairwise fun m n => m.start ≤ n.start
  range : ∀ n ∈ nodes, k ≤ n.start ∧ n.start ≤ k'

theorem Ascending.append {nodes nodes' : List Node} {j : Nat} (h : Ascending k nodes j)
    (h' : Ascending j nodes' k') (hj : k ≤ j ∧ j ≤ k') : Ascending k (nodes ++ nodes') k' := by
  refine ⟨List.pairwise_append.2 ⟨h.pairwise, h'.pairwise, fun m hm n hn => ?_⟩, fun m hm => ?_⟩
  · exact Nat.le_trans (h.range m hm).2 (h'.range n hn).1
  · rcases List.mem_append.1 hm with hm | hm
    · exact ⟨(h.range m hm).1, Nat.le_trans (h.range m hm).2 hj.2⟩
    · exact ⟨Nat.le_trans hj.1 (h'.range m hm).1, (h'.range m hm).2⟩

theorem Orderly.filter_eq_nil (h : n.Orderly keep) (hn : keep n = false) :
    n.preorder.filter keep = [] :=
  List.filter_eq_nil_iff.2 fun m hm hkeep => by
    rw [h.below n (mem_preorder.2 (.inl rfl)) hn m hm] at hkeep
    cases hkeep

mutual

/-- The kept nodes of an orderly tree start one after the other, inside its root. -/
theorem Orderly.ascending : ∀ {n : Node}, n.Orderly keep → keep n = true →
    Ascending n.start (n.preorder.filter keep) n.stop
  | ⟨kind, field, start, stop, children⟩, h, hkeep => by
    have hrow := h.row _ (mem_preorder.2 (.inl rfl))
    have hbelow := ascending_preorderList children (fun _ hc => h.child hc) hrow
    rw [preorder, List.filter_cons_of_pos hkeep]
    refine ⟨List.pairwise_cons.2 ⟨fun m hm => (hbelow.range m hm).1, hbelow.pairwise⟩, ?_⟩
    exact List.forall_mem_cons.2 ⟨⟨Nat.le_refl start, hrow.le⟩, hbelow.range⟩

theorem ascending_preorderList {k k' : Nat} : ∀ nodes : List Node, (∀ n ∈ nodes, n.Orderly keep) →
    Row k (nodes.filter keep) k' → Ascending k ((preorderList nodes).filter keep) k'
  | [], _, _ => ⟨.nil, nofun⟩
  | n :: rest, h, hrow => by
    obtain ⟨hn, hrest⟩ := List.forall_mem_cons.1 h
    rw [preorderList, List.filter_append]
    cases hkeep : keep n with
    | false =>
      rw [List.filter_cons_of_neg (by simp [hkeep])] at hrow
      rw [hn.filter_eq_nil hkeep, List.nil_append]
      exact ascending_preorderList rest hrest hrow
    | true =>
      rw [List.filter_cons_of_pos hkeep] at hrow
      obtain ⟨hstart, hle, hrow⟩ := hrow
      have hfirst : Ascending k (n.preorder.filter keep) n.stop :=
        ⟨(hn.ascending hkeep).pairwise, fun m hm =>
          ⟨Nat.le_trans hstart ((hn.ascending hkeep).range m hm).1,
            ((hn.ascending hkeep).range m hm).2⟩⟩
      exact hfirst.append (ascending_preorderList rest hrest hrow)
        ⟨Nat.le_trans hstart hle, hrow.le⟩

end

/-- The nodes of a tree start one after the other when all children stand in order and inside their
parents. -/
theorem orderly_of_row (h : ∀ m ∈ n.preorder, Row m.start m.children m.stop) :
    n.Orderly fun _ => true :=
  ⟨fun m hm => by rw [List.filter_true]; exact h m hm, nofun⟩

/-- The comments of a tree that is formed as the grammar says stand outside the order of the other
nodes. -/
theorem Grammatical.orderly (h : n.Grammatical) : n.Orderly (·.kind != .comment) :=
  ⟨fun m hm => (h m hm).row, fun m hm hcomment x hx => by
    have hkind : m.kind = .comment := by simpa using hcomment
    simp [(h.of_mem_preorder m hm).comments hkind x hx]⟩

instance decidableRow : ∀ (k : Nat) (nodes : List Node) (k' : Nat), Decidable (Row k nodes k')
  | k, [], k' => inferInstanceAs (Decidable (k ≤ k'))
  | k, n :: rest, k' =>
    have := decidableRow n.stop rest k'
    inferInstanceAs (Decidable (k ≤ n.start ∧ n.start ≤ n.stop ∧ Row n.stop rest k'))

end Orderly

end Node

end WebMigration.Syntax

namespace WebMigration.Module

open Syntax

variable {c : Content} {root n : Node} {r : Reference}

/-! ### References -/

theorem reference?_kind (h : reference? c n = some r) : n.kind ≠ .comment := by
  intro hkind
  rw [reference?, hkind] at h
  cases h

/-- The references of an orderly tree start one after the other. -/
theorem pairwise_references {keep : Node → Bool} (hroot : root.Orderly keep)
    (hkept : keep root = true) (h : ∀ n r, reference? c n = some r → keep n = true) :
    (references c root).Pairwise fun r r' => r.span.start ≤ r'.span.start := by
  rw [references, Node.walk_eq_preorder]
  have hstarts := List.pairwise_filter.1 (hroot.ascending hkept).pairwise
  refine hstarts.filterMap _ fun n n' hle r hr r' hr' => ?_
  rw [reference?_span hr, reference?_span hr']
  exact hle (h n r hr) (h n' r' hr')

/-- The references of a parsed file are listed in the order in which they start. -/
theorem Source.pairwise_parse_references [Salvage] {text path : String} {language : Option String}
    (h : (Source.parse text path language).hasError = false) :
    (Source.parse text path language).references.Pairwise fun r r' =>
      r.span.start ≤ r'.span.start := by
  rw [Source.parse_references]
  refine pairwise_references (Source.parseAs_root_settled h).grammatical.orderly ?_ fun n r hr => ?_
  · simp [Source.parse_root_kind h]
  · simp [reference?_kind hr]

/-- A walk of a tree is the recursive traversal of it: after `k` steps it has visited the first `k` nodes
of the preorder, and there are as many steps as nodes.  It is at every place of the tree once, by
ascending addresses, and the references of the tree are what is read at the places one by one.  They
start one after the other if the children of every node stand in order and inside it. -/
theorem walked_once_in_order (c : Content) (root : Node) :
    (∀ k, ((Walk.start root).after k).map (·.visited.reverse) =
      if k ≤ root.preorder.length then some (root.preorder.take k) else none) ∧
    root.walk = root.preorder ∧
    root.visits.map (·.node) = root.walk ∧
    root.places.map (·.node) = root.walk ∧
    root.places.Pairwise (fun p q => p.address < q.address) ∧
    (∀ path n, (∃ p ∈ root.places, p.path = path ∧ p.node = n) ↔ root.at? path = some n) ∧
    references c root = root.places.filterMap (fun p => reference? c p.node) ∧
    ((∀ n ∈ root.preorder, Node.Row n.start n.children n.stop) →
      (references c root).Pairwise fun r r' => r.span.start ≤ r'.span.start) := by
  have hplaces : root.places.map (·.node) = root.walk := by
    rw [Node.walk_eq_preorder, Node.map_node_places]
  refine ⟨fun k => ?_, root.walk_eq_preorder, root.map_node_visits, hplaces, root.pairwise_places,
    fun path n => Node.exists_place_iff, ?_, fun hrow => ?_⟩
  · have hstart := Walk.visited_after k (Walk.start root)
    rwa [Walk.ahead_start] at hstart
  · rw [references, ← hplaces, List.filterMap_map]
    rfl
  · exact pairwise_references (Node.orderly_of_row hrow) rfl fun _ _ _ => rfl

section

attribute [local instance] Salvage.stopping

/-- A file that names a module in each of three ways, the last time inside a block. -/
def threeModules : Source :=
  Source.parse ("import a, \x7b b \x7d from \"x\"; // first\nexport \x7b b \x7d from \"y\";\n" ++
    "if (b) \x7b require(\"z\") \x7d\n") "a.js" none

theorem walked_once_in_order_threeModules :
    (∀ n ∈ threeModules.root.preorder, Node.Row n.start n.children n.stop) ∧
    (references threeModules.content threeModules.root).map (·.span.start) = [0, 35, 67] ∧
    (references threeModules.content threeModules.root).Pairwise fun r r' =>
      r.span.start ≤ r'.span.start := by
  have hrow : ∀ n ∈ threeModules.root.preorder, Node.Row n.start n.children n.stop := by
    decide +kernel
  obtain ⟨-, -, -, -, -, -, -, hordered⟩ := walked_once_in_order threeModules.content threeModules.root
  exact ⟨hrow, by decide +kernel, hordered hrow⟩

end

end WebMigration.Module
