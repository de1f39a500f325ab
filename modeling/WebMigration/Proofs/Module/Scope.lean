import WebMigration.Module.Source
import WebMigration.Syntax.Piece

/-!
# Names and their scopes

Which declaration a name of a file means.  A name stands at a place of the syntax tree, which tells
whether it declares something there, means something declared elsewhere, or only names a property, a
label or an export.  A declaration reaches over the scope that it belongs to: the block around it, or
for a `var` the function around it; and a name means what the smallest scope around it declares.
-/

namespace WebMigration.Syntax

/-! ### Places -/

/-- A node at its place in a tree. -/
structure Place where
  node : Node
  /-- The nodes above it, the nearest first, each with the number of the child that leads down. -/
  above : List (Node × Nat)

namespace Place

/-- The numbers of the children that lead to a place, the last one first. -/
def path (p : Place) : List Nat := p.above.map (·.2)

/-- The node that a place hangs from. -/
def parent? (p : Place) : Option Node := p.above.head?.map (·.1)

/-- A place right below a place. -/
def below (p : Place) (index : Nat) (n : Node) : Place := ⟨n, (p.node, index) :: p.above⟩

/-- Whether a node is the first child of its parent that plays a part. -/
def plays (p : Place) (field : Field) : Bool :=
  match p.above with
  | [] => false
  | (parent, index) :: _ => parent.children.findIdx? (·.field == some field) == some index

/-- The place below a place that plays a part and fits. -/
def part? (field : Field) (fits : Node → Node → Bool) (p : Place) : Option Place :=
  (p.node.children.findIdx? (·.field == some field)).bind fun index =>
    ((p.node.children[index]?).filter (fits p.node)).map (p.below index)

end Place

namespace Node

mutual

/-- The places of a tree that hangs below some nodes, in the order of `preorder`. -/
def placesUnder (above : List (Node × Nat)) : Node → List Place
  | ⟨kind, field, start, stop, children⟩ =>
      ⟨⟨kind, field, start, stop, children⟩, above⟩ ::
        placesUnderList above ⟨kind, field, start, stop, children⟩ 0 children

/-- The places of some children of a node, which are numbered from `index` on. -/
def placesUnderList (above : List (Node × Nat)) (parent : Node) (index : Nat) : List Node → List Place
  | [] => []
  | n :: rest =>
      n.placesUnder ((parent, index) :: above) ++ placesUnderList above parent (index + 1) rest

end

/-- The places of a tree. -/
def places (root : Node) : List Place := root.placesUnder []

mutual

theorem map_node_placesUnder (above : List (Node × Nat)) :
    ∀ n : Node, (n.placesUnder above).map (·.node) = n.preorder
  | ⟨kind, field, start, stop, children⟩ => by
    rw [placesUnder, preorder, List.map_cons, map_node_placesUnderList]

theorem map_node_placesUnderList (above : List (Node × Nat)) (parent : Node) (index : Nat) :
    ∀ nodes : List Node,
      (placesUnderList above parent index nodes).map (·.node) = preorderList nodes
  | [] => rfl
  | n :: rest => by
    rw [placesUnderList, preorderList, List.map_append, map_node_placesUnder,
      map_node_placesUnderList]

end

/-- The places of a tree are those of its nodes. -/
theorem map_node_places (root : Node) : root.places.map (·.node) = root.preorder :=
  map_node_placesUnder [] root

theorem mem_placesUnderList {above : List (Node × Nat)} {parent : Node} {index : Nat}
    {nodes : List Node} {p : Place} : p ∈ placesUnderList above parent index nodes ↔
      ∃ (k : Nat) (n : Node), nodes[k]? = some n ∧
        p ∈ n.placesUnder ((parent, index + k) :: above) := by
  induction nodes generalizing index with
  | nil => simp [placesUnderList]
  | cons n rest ih =>
    rw [placesUnderList, List.mem_append, ih]
    constructor
    · rintro (h | ⟨k, m, hm, h⟩)
      · exact ⟨0, n, rfl, h⟩
      · exact ⟨k + 1, m, hm, by rwa [Nat.add_right_comm] at h⟩
    · rintro ⟨_ | k, m, hm, h⟩
      · obtain rfl := Option.some.inj hm
        exact .inl h
      · exact .inr ⟨k, m, hm, by rwa [Nat.add_right_comm]⟩

theorem mem_placesUnder {above : List (Node × Nat)} {n : Node} {p : Place} :
    p ∈ n.placesUnder above ↔ p = ⟨n, above⟩ ∨
      ∃ (k : Nat) (c : Node), n.children[k]? = some c ∧ p ∈ c.placesUnder ((n, k) :: above) := by
  obtain ⟨kind, field, start, stop, children⟩ := n
  rw [placesUnder, List.mem_cons, mem_placesUnderList]
  simp only [Nat.zero_add]

mutual

theorem below_mem_placesUnder {index : Nat} {c : Node} {p : Place} : ∀ {above : List (Node × Nat)}
    {n : Node}, p ∈ n.placesUnder above → p.node.children[index]? = some c →
      p.below index c ∈ n.placesUnder above
  | above, ⟨kind, field, start, stop, children⟩, hp, hc => by
    rw [placesUnder, List.mem_cons] at hp ⊢
    rcases hp with rfl | hp
    · refine .inr (mem_placesUnderList.2 ⟨index, c, hc, mem_placesUnder.2 (.inl ?_)⟩)
      rw [Place.below, Nat.zero_add]
    · exact .inr (below_mem_placesUnderList hp hc)

theorem below_mem_placesUnderList {index : Nat} {c : Node} {p : Place} :
    ∀ {above : List (Node × Nat)} {parent : Node} {k : Nat} {nodes : List Node},
      p ∈ placesUnderList above parent k nodes → p.node.children[index]? = some c →
        p.below index c ∈ placesUnderList above parent k nodes
  | above, parent, k, [], hp, _ => by cases hp
  | above, parent, k, n :: rest, hp, hc => by
    rw [placesUnderList, List.mem_append] at hp ⊢
    exact hp.imp (below_mem_placesUnder · hc) (below_mem_placesUnderList · hc)

end

mutual

theorem eq_or_below_of_mem_placesUnder {p : Place} : ∀ {above : List (Node × Nat)} {n : Node},
    p ∈ n.placesUnder above → p = ⟨n, above⟩ ∨
      ∃ q ∈ n.placesUnder above, ∃ (k : Nat) (c : Node), q.node.children[k]? = some c ∧
        p = q.below k c
  | above, ⟨kind, field, start, stop, children⟩, hp => by
    rw [placesUnder, List.mem_cons] at hp
    refine hp.imp_right fun hp => ?_
    -- A child hangs from the node itself, and what is further down from a place below the node.
    rcases eq_or_below_of_mem_placesUnderList hp with ⟨k, c, hc, rfl⟩ | ⟨q, hq, h⟩
    · refine ⟨_, mem_placesUnder.2 (.inl rfl), k, c, hc, ?_⟩
      rw [Place.below, Nat.zero_add]
    · refine ⟨q, ?_, h⟩
      rw [placesUnder]
      exact List.mem_cons_of_mem _ hq

theorem eq_or_below_of_mem_placesUnderList {p : Place} : ∀ {above : List (Node × Nat)}
    {parent : Node} {index : Nat} {nodes : List Node},
      p ∈ placesUnderList above parent index nodes →
        (∃ (k : Nat) (c : Node), nodes[k]? = some c ∧ p = ⟨c, (parent, index + k) :: above⟩) ∨
        ∃ q ∈ placesUnderList above parent index nodes, ∃ (k : Nat) (c : Node),
          q.node.children[k]? = some c ∧ p = q.below k c
  | above, parent, index, [], hp => by cases hp
  | above, parent, index, n :: rest, hp => by
    simp only [placesUnderList, List.mem_append] at hp ⊢
    rcases hp with hp | hp
    · rcases eq_or_below_of_mem_placesUnder hp with rfl | ⟨q, hq, h⟩
      · exact .inl ⟨0, n, rfl, rfl⟩
      · exact .inr ⟨q, .inl hq, h⟩
    · rcases eq_or_below_of_mem_placesUnderList hp with ⟨k, c, hc, rfl⟩ | ⟨q, hq, h⟩
      · exact .inl ⟨k + 1, c, hc, by rw [Nat.add_right_comm, Nat.add_assoc]⟩
      · exact .inr ⟨q, .inr hq, h⟩

end

/-- The places of a tree are that of its root and those below its places. -/
theorem mem_places {root : Node} {p : Place} : p ∈ root.places ↔ p = ⟨root, []⟩ ∨
    ∃ q ∈ root.places, ∃ (k : Nat) (c : Node), q.node.children[k]? = some c ∧ p = q.below k c := by
  refine ⟨eq_or_below_of_mem_placesUnder, ?_⟩
  rintro (rfl | ⟨q, hq, k, c, hc, rfl⟩)
  · exact mem_placesUnder.2 (.inl rfl)
  · exact below_mem_placesUnder hq hc

theorem below_mem_places {root : Node} {p : Place} (hp : p ∈ root.places) {index : Nat} {c : Node}
    (hc : p.node.children[index]? = some c) : p.below index c ∈ root.places :=
  mem_places.2 (.inr ⟨p, hp, index, c, hc, rfl⟩)

end Node

namespace Place

variable {root : Node} {field : Field} {fits : Node → Node → Bool} {p q : Place}

theorem exists_of_child? {c : Node} (h : p.node.child? field = some c) :
    ∃ (index : Nat), p.node.children[index]? = some c ∧ (p.below index c).plays field = true := by
  rw [Node.child?, List.find?_eq_bind_findIdx?_getElem?] at h
  obtain ⟨index, hindex, hc⟩ := Option.bind_eq_some_iff.1 h
  exact ⟨index, hc, beq_iff_eq.2 hindex⟩

theorem exists_of_mem_namedChildren {c : Node} (h : c ∈ p.node.namedChildren) :
    ∃ (index : Nat), p.node.children[index]? = some c :=
  List.mem_iff_getElem?.1 (List.mem_filter.1 h).1

theorem part?_eq_some_iff : q.part? field fits = some p ↔
    ∃ (index : Nat) (c : Node), q.node.children.findIdx? (·.field == some field) = some index ∧
      q.node.children[index]? = some c ∧ fits q.node c = true ∧ p = q.below index c := by
  simp only [part?, Option.bind_eq_some_iff, Option.map_eq_some_iff, Option.filter_eq_some_iff]
  constructor
  · rintro ⟨index, hindex, c, ⟨hc, hfits⟩, rfl⟩
    exact ⟨index, c, hindex, hc, hfits, rfl⟩
  · rintro ⟨index, c, hindex, hc, hfits, rfl⟩
    exact ⟨index, hindex, c, ⟨hc, hfits⟩, rfl⟩

/-- The node of the place that plays a part is the child that does. -/
theorem map_node_part? : (p.part? field fits).map (·.node) =
    (p.node.child? field).filter (fits p.node) := by
  rw [part?, Node.child?, List.find?_eq_bind_findIdx?_getElem?]
  cases p.node.children.findIdx? (·.field == some field) with
  | none => rfl
  | some index =>
    rw [Option.bind_some, Option.bind_some, Option.map_map]
    exact Option.map_id'

/-- The places that play a part below places of a tree are the places of the tree that play it. -/
theorem exists_part?_iff : (∃ q ∈ root.places, q.part? field fits = some p) ↔
    p ∈ root.places ∧ p.plays field = true ∧ ∃ n ∈ p.parent?, fits n p.node = true := by
  constructor
  · rintro ⟨q, hq, h⟩
    obtain ⟨index, c, hindex, hc, hfits, rfl⟩ := part?_eq_some_iff.1 h
    exact ⟨Node.below_mem_places hq hc, beq_iff_eq.2 hindex, q.node, rfl, hfits⟩
  · rintro ⟨hp, hplays, n, hn, hfits⟩
    rcases Node.mem_places.1 hp with rfl | ⟨q, hq, index, c, hc, rfl⟩
    · cases hn
    · obtain rfl := Option.some.inj hn
      exact ⟨q, hq, part?_eq_some_iff.2 ⟨index, c, beq_iff_eq.1 hplays, hc, hfits, rfl⟩⟩

end Place

/-! ### Declarations -/

/-- How far a declaration reaches. -/
inductive Reach
  /-- Over the function around it. -/
  | function
  /-- Over the block around it. -/
  | block
  /-- Over the block around the construct that it names. -/
  | outer
  deriving DecidableEq

/-- Kinds of nodes that are functions or say what a function is like. -/
def functionKinds : List Kind :=
  [.functionDeclaration, .functionExpression, .generatorFunctionDeclaration, .generatorFunction,
    .arrowFunction, .methodDefinition, .functionSignature, .methodSignature,
    .abstractMethodSignature, .functionType, .constructorType, .callSignature, .constructSignature]

/-- Kinds of nodes over which a `var` reaches. -/
def functionScopes : List Kind :=
  functionKinds ++ [.program, .classStaticBlock, .module, .internalModule]

/-- Kinds of nodes over which other declarations reach. -/
def blockScopes : List Kind :=
  functionKinds ++ [.program, .statementBlock, .switchBody, .forStatement, .forInStatement,
    .catchClause, .classExpression]

namespace Place

/-- How far a pattern below some nodes reaches if it declares names. -/
def patternReach? (n : Node) : List (Node × Nat) → Option Reach
  | [] => none
  | (parent, _) :: above =>
      match parent.kind with
      | .objectPattern | .arrayPattern | .restPattern => patternReach? parent above
      | .pairPattern => if n.field == some .value then patternReach? parent above else none
      | .assignmentPattern | .objectAssignmentPattern =>
          if n.field == some .left then patternReach? parent above else none
      | .variableDeclarator =>
          if n.field == some .name then
            if (above.head?.map (·.1.kind)) == some .variableDeclaration then some .function
            else some .block
          else none
      | .requiredParameter | .optionalParameter =>
          if n.field == some .pattern then some .block else none
      | .formalParameters => some .block
      | .arrowFunction | .catchClause => if n.field == some .parameter then some .block else none
      | .forInStatement =>
          if n.field == some .left then
            (parent.child? .kind).map fun word =>
              if word.kind == .token "var" then .function else .block
          else none
      | _ => none

/-- How far the name of a construct reaches if it declares the construct. -/
def nameReach? (p : Place) : Option Reach :=
  match p.above with
  | [] => none
  | (parent, _) :: _ =>
      if p.plays .name then
        match parent.kind with
        | .functionDeclaration | .generatorFunctionDeclaration | .functionSignature | .module
        | .internalModule => some .outer
        | .functionExpression | .generatorFunction | .classExpression | .classDeclaration
        | .abstractClassDeclaration | .enumDeclaration => some .block
        | _ => none
      else none

/-- Whether a name is bound by a clause of an import statement. -/
def isImported (p : Place) : Bool :=
  match p.above with
  | [] => false
  | (parent, _) :: _ =>
      match parent.kind with
      | .importClause | .namespaceImport => p.node.kind == .identifier
      | .importSpecifier => p.plays (if (parent.child? .alias).isSome then .alias else .name)
      | _ => false

/-- Whether a name is bound by an import that is written as an assignment. -/
def isAssignedImport (p : Place) : Bool :=
  match p.above with
  | [] => false
  | (parent, index) :: _ =>
      (parent.kind == .importRequireClause || parent.kind == .importAlias) &&
        parent.children.findIdx? (·.kind == .identifier) == some index

/-- How far a name reaches if it is declared at a place. -/
def reach? (p : Place) : Option Reach :=
  if p.isImported || p.isAssignedImport then some .block
  else p.nameReach? <|> patternReach? p.node p.above

/-- The path of the nearest of some nodes that has one of some kinds. -/
def scopeAbove (kinds : List Kind) : List (Node × Nat) → List Nat
  | [] => []
  | (n, _) :: above => if kinds.contains n.kind then above.map (·.2) else scopeAbove kinds above

/-- The path of the scope that a declaration belongs to. -/
def home (p : Place) : List Nat :=
  match p.reach? with
  | some .function => scopeAbove functionScopes p.above
  | some .outer => scopeAbove blockScopes (p.above.drop 1)
  | _ => scopeAbove blockScopes p.above

/-- The path of the block scope in which a place lies with what hangs from it. -/
def inner (p : Place) : List Nat := scopeAbove blockScopes ((p.node, 0) :: p.above)

section Inner

variable {p : Place} {index : Nat} {n : Node}

theorem inner_below (h : blockScopes.contains n.kind = false) : (p.below index n).inner = p.inner := by
  rw [inner, scopeAbove, below, h, if_neg Bool.false_ne_true]
  rfl

/-- An import reaches over the block around it. -/
theorem home_of_isImported (h : (p.below index n).isImported = true) :
    (p.below index n).home = p.inner := by
  rw [home, reach?, h, Bool.true_or, if_pos rfl]
  rfl

theorem inner_root (root : Node) : (Place.mk root []).inner = [] := by
  rw [inner, scopeAbove]
  split <;> rfl

end Inner

/-! ### Uses -/

/-- Whether a node is a name. -/
def isName (p : Place) : Bool :=
  [.identifier, .shorthandPropertyIdentifier, .shorthandPropertyIdentifierPattern].contains p.node.kind

/-- Whether a tag names an element of the page and no component. -/
def isElementName (text : String) : Bool := (text.toList.head?.map Char.isLower).getD false

/-- Whether a name that declares nothing does not mean a declaration of the file either: it names what
another module has, a label of a type, or an element of the page. -/
def isForeign (text : String) (p : Place) : Bool :=
  match p.above with
  | [] => false
  | (parent, _) :: above =>
      match parent.kind with
      | .importSpecifier | .namespaceExport | .jsxNamespaceName => true
      | .exportSpecifier =>
          !p.plays .name || (above.drop 1).head?.any fun a => (a.1.child? .source).isSome
      | .exportStatement => parent.children.any (·.kind == .token "namespace")
      | .indexSignature | .requiredParameter | .optionalParameter => p.node.field == some .name
      | .restPattern => parent.field == some .name
      | .jsxOpeningElement | .jsxClosingElement | .jsxSelfClosingElement =>
          p.node.field == some .name && isElementName text
      | _ => false

end Place

end WebMigration.Syntax

namespace WebMigration.Module.Source

open Syntax

/-- The places where a name is declared. -/
def declarations (s : Source) (name : String) : List Place :=
  s.root.places.filter fun p => p.reach?.isSome && s.nodeText p.node == name

/-- The places where a name means a declaration. -/
def uses (s : Source) (name : String) : List Place :=
  s.root.places.filter fun p =>
    p.isName && p.reach?.isNone && s.nodeText p.node == name && !p.isForeign name

/-- A use of a name means a declaration of it: the use is in the scope of the declaration, and no
smaller scope around the use declares the name. -/
def Binds (s : Source) (name : String) (d u : Place) : Prop :=
  d ∈ s.declarations name ∧ u ∈ s.uses name ∧ d.home <:+ u.path ∧
    ∀ d' ∈ s.declarations name, d'.home <:+ u.path → d'.home.length ≤ d.home.length

end WebMigration.Module.Source
