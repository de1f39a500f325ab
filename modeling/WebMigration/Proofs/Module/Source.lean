import WebMigration.Module.Source

/-!
# Where the tree and the references of a file lie

The nodes of a file that parses start and end between its characters, and so do the places where it
names other modules.  What is left of a file that does not parse lies between its characters if the
salvaged trees do, and so do the references that are read off them.
-/

namespace WebMigration.Module

open Syntax

variable {file : List Char}

/-! ### References -/

/-- A reference and the name of its module start and end at cuts of a file. -/
structure Reference.Fits (file : List Char) (r : Reference) : Prop where
  start : IsCut file r.span.start
  stop : IsCut file r.span.stop
  sourceStart : IsCut file r.sourceSpan.start
  sourceStop : IsCut file r.sourceSpan.stop

variable {c : Content} {n literal : Node} {kind : ReferenceKind} {bindings : List Binding}
  {r : Reference}

theorem of?_kind (h : Reference.of? c n literal kind bindings = some r) :
    r.kind = kind ∧ r.span = n.span := by
  obtain ⟨inside, -, hr⟩ := Option.bind_eq_some_iff.1 h
  obtain rfl := Option.some.inj hr
  exact ⟨rfl, rfl⟩

theorem of?_bindings (h : Reference.of? c n literal kind bindings = some r) :
    r.bindings = bindings := by
  obtain ⟨inside, -, hr⟩ := Option.bind_eq_some_iff.1 h
  obtain rfl := Option.some.inj hr
  rfl

/-- A call that loads a module names it by its first argument, and is no static import. -/
theorem exists_of_callReference? (h : callReference? c n = some r) :
    ∃ arguments first kind, n.child? .arguments = some arguments ∧
      first ∈ arguments.namedChildren ∧ kind ≠ ReferenceKind.static ∧
        Reference.of? c n first kind [] = some r := by
  have hfirst : ∀ kind, kind ≠ ReferenceKind.static → (do
      let first ← (← n.child? .arguments).namedChildren.head?
      if first.kind == .string then Reference.of? c n first kind [] else none) = some r →
        ∃ arguments first kind, n.child? .arguments = some arguments ∧
          first ∈ arguments.namedChildren ∧ kind ≠ ReferenceKind.static ∧
            Reference.of? c n first kind [] = some r := by
    intro kind hkind h
    obtain ⟨arguments, harguments, h⟩ := Option.bind_eq_some_iff.1 h
    obtain ⟨first, hfirst, h⟩ := Option.bind_eq_some_iff.1 h
    split at h
    · exact ⟨arguments, first, kind, harguments, List.mem_of_mem_head? hfirst, hkind, h⟩
    · cases h
  obtain ⟨callee, -, h⟩ := Option.bind_eq_some_iff.1 h
  dsimp only at h
  split at h
  · exact hfirst .dynamic nofun h
  · split at h
    · exact hfirst .require nofun h
    · cases h

/-- A reference covers the node that it is read from. -/
theorem reference?_span (h : reference? c n = some r) : r.span = n.span := by
  unfold reference? at h
  split at h
  · obtain ⟨literal, -, h⟩ := Option.bind_eq_some_iff.1 h
    exact (of?_kind h).2
  · obtain ⟨literal, -, h⟩ := Option.bind_eq_some_iff.1 h
    exact (of?_kind h).2
  · obtain ⟨-, first, kind, -, -, -, h⟩ := exists_of_callReference? h
    exact (of?_kind h).2
  · cases h

theorem of?_fits (hn : n.Within file) (hliteral : literal.Within file)
    (h : Reference.of? c n literal kind bindings = some r) : r.Fits file := by
  obtain ⟨inside, hinside, hr⟩ := Option.bind_eq_some_iff.1 h
  obtain rfl := Option.some.inj hr
  unfold stringInside? at hinside
  split at hinside
  · rename_i hstring
    obtain rfl := Option.some.inj hinside
    simp only [Bool.and_eq_true, beq_iff_eq] at hstring
    obtain ⟨hstart, hstop⟩ := hliteral.here.inside hstring.1
    exact ⟨hn.here.start, hn.here.stop, hstart, hstop⟩
  · cases hinside

theorem staticReference?_fits (hn : n.Within file) (h : staticReference? c n = some r) :
    r.Fits file := by
  obtain ⟨literal, hliteral, h⟩ := Option.bind_eq_some_iff.1 h
  exact of?_fits hn (hn.of_child? hliteral) h

theorem reexportReference?_fits (hn : n.Within file) (h : reexportReference? c n = some r) :
    r.Fits file := by
  obtain ⟨literal, hliteral, h⟩ := Option.bind_eq_some_iff.1 h
  exact of?_fits hn (hn.of_child? hliteral) h

theorem callReference?_fits (hn : n.Within file) (h : callReference? c n = some r) :
    r.Fits file := by
  obtain ⟨arguments, first, kind, harguments, hfirst, -, h⟩ := exists_of_callReference? h
  exact of?_fits hn ((hn.of_child? harguments).of_mem_namedChildren hfirst) h

theorem reference?_fits (hn : n.Within file) (h : reference? c n = some r) : r.Fits file := by
  unfold reference? at h
  split at h
  · exact staticReference?_fits hn h
  · exact reexportReference?_fits hn h
  · exact callReference?_fits hn h
  · cases h

/-! ### Static imports -/

theorem callReference?_kind (h : callReference? c n = some r) : r.kind ≠ .static := by
  obtain ⟨-, first, kind, -, -, hkind, h⟩ := exists_of_callReference? h
  rwa [(of?_kind h).1]

/-- A static import is an import statement, which starts with its keyword. -/
theorem reference?_stands (hn : n.Within file) (h : reference? c n = some r)
    (hstatic : r.kind = .static) : Stands file r.span.start "import" := by
  unfold reference? at h
  split at h
  · rename_i hkind
    obtain ⟨literal, -, h⟩ := Option.bind_eq_some_iff.1 h
    rw [(of?_kind h).2]
    exact hn.here.keyword hkind
  · obtain ⟨literal, -, h⟩ := Option.bind_eq_some_iff.1 h
    rw [(of?_kind h).1] at hstatic
    cases hstatic
  · exact absurd hstatic (callReference?_kind h)
  · cases h

/-! ### Parsed files -/

/-- A parser that passes over whole characters: also the nodes that it leaves of a text that does not
parse start and end between characters. -/
def Salvage.AtCuts [Salvage] : Prop :=
  ∀ dialect file, (Salvage.left dialect file).root.AtCuts file

namespace Salvage

theorem prefix_upTo (k : Nat) (text : List Char) : upTo k text <+: text := by
  induction text generalizing k with
  | nil => exact List.nil_prefix
  | cons c rest ih =>
    rw [upTo]
    split
    · exact List.cons_prefix_cons.2 ⟨rfl, ih _⟩
    · exact List.nil_prefix

theorem prefix_withoutName (front : List Char) : withoutName front <+: front := by
  unfold withoutName
  dsimp only
  split
  · exact List.prefix_rfl
  · rw [← List.reverse_suffix, List.reverse_reverse]
    exact (List.drop_suffix _ _).trans (List.dropWhile_suffix _)

theorem prefix_frontOf (text : List Char) (reach : Nat) : frontOf text reach <+: text := by
  unfold frontOf
  dsimp only
  split
  · exact (prefix_withoutName _).trans (prefix_upTo _ _)
  · exact prefix_upTo _ _

/-- A parser that stops at the first error leaves whole characters. -/
theorem stopping_atCuts : @Salvage.AtCuts stopping := by
  intro dialect text
  have hfront : ∀ front : List Char, front <+: text →
      (Node.leaf .error (byteSize front) (byteSize text)).AtCuts text := fun front h =>
    Node.everywhere_iff.2 ⟨⟨isCut_byteSize_front h, isCut_byteSize text⟩, by simp [Node.leaf]⟩
  refine Node.everywhere_iff.2 ⟨⟨isCut_zero text, isCut_byteSize text⟩, ?_⟩
  refine List.forall_mem_singleton.2 (hfront _ ?_)
  split
  · exact List.prefix_rfl
  · exact prefix_frontOf _ _

end Salvage

namespace Source

variable [Salvage] {text path : String} {language : Option String} {dialect : Dialect}

/-- A text parses under a dialect, or it is what is left of it. -/
theorem parseAs_cases (dialect : Dialect) (text path : String) :
    (∃ piece, Syntax.parse dialect text.toList = .ok piece ∧
      parseAs dialect text path = ofTree dialect text path piece.node none) ∨
    (∃ reach, Syntax.parse dialect text.toList = .error reach) ∧
      parseAs dialect text path = salvageAs dialect text path := by
  unfold parseAs readAs?
  cases h : Syntax.parse dialect text.toList with
  | ok piece => exact .inl ⟨piece, rfl, rfl⟩
  | error reach => exact .inr ⟨⟨reach, rfl⟩, rfl⟩

theorem exists_piece (h : (parseAs dialect text path).hasError = false) :
    ∃ piece, Syntax.parse dialect text.toList = .ok piece ∧
      parseAs dialect text path = ofTree dialect text path piece.node none := by
  rcases parseAs_cases dialect text path with hpiece | ⟨-, hleft⟩
  · exact hpiece
  · rw [hleft] at h
    cases h

theorem parseAs_content : (parseAs dialect text path).content = Content.ofString text := by
  rcases parseAs_cases dialect text path with ⟨piece, -, h⟩ | ⟨-, h⟩ <;> rw [h] <;> rfl

theorem parseAs_root_within (h : (parseAs dialect text path).hasError = false) :
    (parseAs dialect text path).root.Within text.toList := by
  obtain ⟨piece, -, hpiece⟩ := exists_piece h
  rw [hpiece]
  exact piece.within

theorem parse_content : (parse text path language).content = Content.ofString text := parseAs_content

theorem parse_root_within (h : (parse text path language).hasError = false) :
    (parse text path language).root.Within text.toList :=
  parseAs_root_within h

/-- The tree of a file lies between its characters, whether it parses or not. -/
theorem parse_root_atCuts (h : Salvage.AtCuts) :
    (parse text path language).root.AtCuts text.toList := by
  rw [parse]
  rcases parseAs_cases (dialectOf path language) text path with ⟨piece, -, hp⟩ | ⟨-, hp⟩
  · rw [hp]
    exact piece.within.atCuts
  · rw [hp]
    exact h _ _

theorem parse_root_kind (h : (parse text path language).hasError = false) :
    (parse text path language).root.kind = .program := by
  obtain ⟨piece, hparse, hpiece⟩ := exists_piece h
  rw [parse, hpiece]
  unfold Syntax.parse at hparse
  dsimp only at hparse
  split at hparse
  · cases hparse
  · exact (congrArg (·.node.kind) (Except.ok.inj hparse)).symm

/-- The references of a parsed file are those of the nodes of its tree. -/
theorem parse_references : (parse text path language).references =
    Module.references (parse text path language).content (parse text path language).root := by
  rw [parse]
  rcases parseAs_cases (dialectOf path language) text path with ⟨piece, -, h⟩ | ⟨-, h⟩ <;> rw [h] <;> rfl

theorem exists_of_mem_references (h : r ∈ (parse text path language).references) :
    ∃ n ∈ (parse text path language).root.preorder,
      reference? (parse text path language).content n = some r := by
  rw [parse_references] at h
  obtain ⟨n, hn, hr⟩ := List.mem_filterMap.1 h
  rw [Node.walk_eq_preorder] at hn
  exact ⟨n, hn, hr⟩

/-- References lie where the nodes lie that they are read from. -/
theorem parse_references_atCuts (h : Salvage.AtCuts) (hr : r ∈ (parse text path language).references) :
    r.span.AtCuts text.toList := by
  obtain ⟨n, hn, hr⟩ := exists_of_mem_references hr
  rw [reference?_span hr]
  exact parse_root_atCuts h n hn

theorem parse_references_fit (h : (parse text path language).hasError = false)
    (hr : r ∈ (parse text path language).references) : r.Fits text.toList := by
  obtain ⟨n, hn, hr⟩ := exists_of_mem_references hr
  exact reference?_fits ((parse_root_within h).of_mem_preorder n hn) hr

theorem parse_references_stand (h : (parse text path language).hasError = false)
    (hr : r ∈ (parse text path language).references) (hstatic : r.kind = .static) :
    Stands text.toList r.span.start "import" := by
  obtain ⟨n, hn, hr⟩ := exists_of_mem_references hr
  exact reference?_stands ((parse_root_within h).of_mem_preorder n hn) hr hstatic

end Source

end WebMigration.Module
