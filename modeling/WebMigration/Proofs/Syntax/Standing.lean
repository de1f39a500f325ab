import WebMigration.Proofs.Syntax.Boundary
import WebMigration.Proofs.Syntax.Form

/-!
# Names that stand apart

Which nodes of a tree stand apart in their file: names, and members of what begins at the start of an
operand.  In a name with a colon the parts need not, since it may follow a hyphenated one directly.  All
nodes are formed as the grammar says.
-/

namespace WebMigration.Syntax

variable {file : List Char}

/-- A name as a leaf of its own. -/
def Kind.isName (kind : Kind) : Bool := kind == .identifier || kind == .typeIdentifier

/-- Neither a name nor an access to a member. -/
def Kind.isNameless (kind : Kind) : Bool := !kind.isName && kind != .memberExpression

/-- Neither a name nor an access to a member, nor a node of which the grammar says more than that its
children stand in order. -/
def Kind.isOrdinary (kind : Kind) : Bool := kind.isNameless && kind.isCommon

theorem Kind.isNameless_of_isOrdinary {kind : Kind} (h : kind.isOrdinary = Bool.true) :
    kind.isNameless = Bool.true :=
  (Bool.and_eq_true_iff.1 h).1

theorem Kind.isCommon_of_isOrdinary {kind : Kind} (h : kind.isOrdinary = Bool.true) :
    kind.isCommon = Bool.true :=
  (Bool.and_eq_true_iff.1 h).2

/-- No dot is between two places of a file. -/
def Undotted (file : List Char) (start stop : Nat) : Prop :=
  ∀ front word back, front ++ (word ++ back) = file → byteSize front = start →
    byteSize (front ++ word) = stop → '.' ∉ word

namespace Node

/-- A name stands apart and has no dot in it; an access to a member stands apart behind a dot as well. -/
structure StandsApart (file : List Char) (n : Node) : Prop where
  name : n.kind.isName = true →
    Level.loose.At file n.start ∧ ShutAt file n.stop ∧ Undotted file n.start n.stop
  member : n.kind = .memberExpression → Level.free.At file n.start ∧ ShutAt file n.stop

theorem standsApart_of_isNameless {n : Node} (h : n.kind.isNameless = true) : n.StandsApart file := by
  rw [Kind.isNameless, Bool.and_eq_true, Bool.not_eq_true', bne_iff_ne] at h
  exact ⟨fun hname => absurd hname (by rw [h.1]; decide), fun hmember => absurd hmember h.2⟩

theorem standsApart_of_isOrdinary {n : Node} (h : n.kind.isOrdinary = true) : n.StandsApart file :=
  standsApart_of_isNameless (Kind.isNameless_of_isOrdinary h)

/-- All names of a tree stand apart, but for those in a name with a colon; `bare` holds for a node in
such a name.  All nodes are formed as the grammar says. -/
inductive Settled (file : List Char) : Bool → Node → Prop
  | node {bare : Bool} {n : Node} (own : bare = false → n.StandsApart file) (form : n.Formed)
      (children : ∀ c ∈ n.children, Settled file (n.kind == .jsxNamespaceName) c) : Settled file bare n

variable {n c : Node} {bare : Bool}

theorem Settled.own (h : Settled file false n) : n.StandsApart file := by
  cases h with
  | node own _ _ => exact own rfl

theorem Settled.form (h : Settled file bare n) : n.Formed := by
  cases h with
  | node _ form _ => exact form

theorem Settled.child (h : Settled file bare n) (hc : c ∈ n.children) :
    Settled file (n.kind == .jsxNamespaceName) c := by
  cases h with
  | node _ _ children => exact children c hc

mutual

theorem Settled.grammatical : ∀ {n : Node} {bare : Bool}, Settled file bare n → n.Grammatical
  | ⟨kind, field, start, stop, children⟩, _, h => fun m hm => by
    rcases mem_preorder.1 hm with rfl | hm
    · exact h.form
    · exact formed_of_settled children (fun _ hc => h.child hc) m hm

theorem formed_of_settled : ∀ (nodes : List Node) {bare : Bool}, (∀ n ∈ nodes, Settled file bare n) →
    ∀ m ∈ preorderList nodes, m.Formed
  | [], _, _, m, hm => by
    rw [preorderList] at hm
    cases hm
  | n :: rest, _, h, m, hm => by
    obtain ⟨hn, hrest⟩ := List.forall_mem_cons.1 h
    rw [preorderList, List.mem_append] at hm
    exact hm.elim (Settled.grammatical hn m) (formed_of_settled rest hrest m)

end

theorem Settled.weaken (h : Settled file false n) (bare : Bool) : Settled file bare n :=
  .node (fun _ => h.own) h.form fun _ hc => h.child hc

theorem settled_leaf (hleaf : n.children = []) (h : bare = false → n.StandsApart file)
    (hform : n.Formed) : Settled file bare n :=
  .node h hform (by rw [hleaf]; nofun)

theorem Settled.as (h : Settled file bare n) (field : Field) : Settled file bare (n.as field) :=
  .node (fun hbare => by subst hbare; exact ⟨h.own.name, h.own.member⟩) (h.form.as field)
    fun _ hc => h.child hc

/-- A node that is no element may get another kind. -/
theorem Settled.retag (h : Settled file bare n) {kind : Kind} (hordinary : kind.isOrdinary = true)
    (hcolon : n.children ≠ [] →
      (n.kind == .jsxNamespaceName) = (kind == .jsxNamespaceName) ∧ n.kind ≠ .jsxElement) :
    Settled file bare (n.retag kind) := by
  refine .node (fun _ => standsApart_of_isOrdinary hordinary)
    (formed_of_isCommon (Kind.isCommon_of_isOrdinary hordinary) h.form.row fun c hc => ?_)
    fun _ hc => (hcolon (List.ne_nil_of_mem hc)).1 ▸ h.child hc
  exact h.form.tags (hcolon (List.ne_nil_of_mem hc)).2 c hc

/-! ### Comments -/

section Comments

variable {comment : Span}

theorem settled_comment (hnonempty : comment.start < comment.stop) (bare : Bool) :
    Settled file bare (leaf .comment comment.start comment.stop) :=
  settled_leaf rfl (fun _ => standsApart_of_isNameless (Eq.refl true))
    (formed_leaf rfl (Nat.le_of_lt hnonempty) (.inr (.inl rfl)))

mutual

theorem Settled.insertComment (hnonempty : comment.start < comment.stop) : ∀ (n : Node) {bare : Bool},
    Settled file bare n → n.start ≤ comment.start → Settled file bare (n.insertComment comment)
  | ⟨kind, field, start, stop, children⟩, bare, h, hstart => by
    have hform := h.form.insertComment hnonempty hstart
    rw [Node.insertComment] at hform ⊢
    refine .node (fun hbare => ?_) hform
      (settled_insertCommentList hnonempty children fun _ hc => h.child hc)
    subst hbare
    exact ⟨h.own.name, h.own.member⟩

theorem settled_insertCommentList (hnonempty : comment.start < comment.stop) :
    ∀ (nodes : List Node) {bare : Bool}, (∀ n ∈ nodes, Settled file bare n) →
      ∀ n ∈ insertCommentList comment nodes, Settled file bare n
  | [], bare, _ => by
    rw [insertCommentList]
    exact List.forall_mem_singleton.2 (settled_comment hnonempty bare)
  | m :: rest, bare, h => by
    obtain ⟨hm, hrest⟩ := List.forall_mem_cons.1 h
    rw [insertCommentList]
    split
    · exact List.forall_mem_cons.2 ⟨settled_comment hnonempty bare, h⟩
    · split
      · rename_i hin
        rw [Bool.and_eq_true, decide_eq_true_eq] at hin
        exact List.forall_mem_cons.2 ⟨Settled.insertComment hnonempty m hm hin.1, hrest⟩
      · exact List.forall_mem_cons.2 ⟨hm, settled_insertCommentList hnonempty rest hrest⟩

end

end Comments

theorem settled_withComments (comments : List (Passage file)) {nodes : List Node}
    (h : ∀ n ∈ nodes, Settled file false n) :
    ∀ n ∈ withComments comments nodes, Settled file false n := by
  induction comments generalizing nodes with
  | nil => exact h
  | cons c rest ih =>
    have hnonempty : c.span.start < c.span.stop := c.nonempty
    exact ih (settled_insertCommentList hnonempty nodes h)

/-- Comments among the nodes of a file leave the others in order. -/
theorem row_withComments (comments : List (Passage file)) {k k' : Nat} {nodes : List Node}
    (h : Row k (nodes.filter (·.kind != .comment)) k') :
    Row k ((withComments comments nodes).filter (·.kind != .comment)) k' := by
  induction comments generalizing nodes with
  | nil => exact h
  | cons c rest ih => exact ih ((inserted_insertCommentList c.span nodes).row h)

theorem kind_withComments (comments : List (Passage file)) {P : Kind → Prop} {nodes : List Node}
    (hcomment : P .comment) (h : ∀ n ∈ nodes, P n.kind) :
    ∀ n ∈ withComments comments nodes, P n.kind := by
  induction comments generalizing nodes with
  | nil => exact h
  | cons c rest ih => exact ih ((inserted_insertCommentList c.span nodes).forall_kind hcomment h)

/-! ### Visits -/

/-- Whether a node hangs from a name with a colon. -/
def isBare (parent : Option Node) : Bool := parent.any (·.kind == .jsxNamespaceName)

mutual

theorem Settled.of_mem_visitsUnder : ∀ {n : Node} {parent : Option Node},
    Settled file (isBare parent) n → ∀ v ∈ n.visitsUnder parent, Settled file (isBare v.parent) v.node
  | ⟨kind, field, start, stop, children⟩, parent, h => by
    intro v hv
    rw [visitsUnder, List.mem_cons] at hv
    rcases hv with rfl | hv
    · exact h
    · refine settled_of_mem_visitsUnderList children (fun c hc => ?_) v hv
      exact h.child hc

theorem settled_of_mem_visitsUnderList : ∀ {parent : Option Node} (nodes : List Node),
    (∀ n ∈ nodes, Settled file (isBare parent) n) →
      ∀ v ∈ visitsUnderList parent nodes, Settled file (isBare v.parent) v.node
  | _, [], _ => by
    intro v hv
    rw [visitsUnderList] at hv
    cases hv
  | parent, n :: rest, h => by
    intro v hv
    obtain ⟨hn, hrest⟩ := List.forall_mem_cons.1 h
    rw [visitsUnderList, List.mem_append] at hv
    rcases hv with hv | hv
    · exact Settled.of_mem_visitsUnder hn v hv
    · exact settled_of_mem_visitsUnderList rest hrest v hv

end

/-- Every node of a settled tree is settled, though one in a name with a colon only below itself. -/
theorem Settled.of_mem_visits (h : Settled file false n) {v : Visit} (hv : v ∈ n.visits) :
    Settled file (isBare v.parent) v.node := by
  have hroot : Settled file (isBare none) n := h
  exact hroot.of_mem_visitsUnder v hv

end Node

/-! ### Pieces -/

/-- Pieces that are read from one place to another: they are settled and stand in order there, none is a
tag of an element, no identifier goes on behind another where the first one starts unless it does so where
reading starts, and nothing is passed where nothing is read. -/
structure Sound (file : List Char) (bare : Bool) (k : Nat) (ps : List (Piece file)) (k' : Nat) :
    Prop where
  settled : ∀ p ∈ ps, Node.Settled file bare p.node
  row : Node.Row k (ps.map (·.node)) k'
  tags : ∀ p ∈ ps, p.kind.isPairedTag = false
  first : Level.free.At file k → ∀ p ∈ ps.head?, Level.free.At file p.node.start
  empty : ps = [] → k' = k

namespace Sound

variable {bare : Bool} {k k' k'' : Nat} {p : Piece file} {ps qs : List (Piece file)}

theorem nil (bare : Bool) (k : Nat) : Sound file bare k [] k :=
  ⟨nofun, Nat.le_refl k, nofun, fun _ => nofun, fun _ => rfl⟩

theorem append (h : Sound file bare k ps k') (h' : Sound file bare k' qs k'') :
    Sound file bare k (ps ++ qs) k'' := by
  cases ps with
  | nil =>
    obtain rfl := h.empty rfl
    exact h'
  | cons p ps =>
    refine ⟨fun q hq => ?_, ?_, fun q hq => ?_, fun hk q hq => h.first hk q hq, nofun⟩
    · exact (List.mem_append.1 hq).elim (h.settled q) (h'.settled q)
    · rw [List.map_append]
      exact h.row.append h'.row
    · exact (List.mem_append.1 hq).elim (h.tags q) (h'.tags q)

theorem cons (h : Sound file bare k [p] k') (h' : Sound file bare k' qs k'') :
    Sound file bare k (p :: qs) k'' :=
  h.append h'

theorem start (h : Sound file bare k [p] k') (hk : Level.free.At file k) :
    Level.free.At file p.node.start :=
  h.first hk p rfl

theorem one (h : Sound file bare k [p] k') : Node.Settled file bare p.node :=
  h.settled p List.mem_cons_self

theorem tag (h : Sound file bare k [p] k') : p.kind.isPairedTag = false :=
  h.tags p List.mem_cons_self

/-- A piece by itself. -/
theorem single (hsettled : Node.Settled file bare p.node) (hrow : Node.Row k [p.node] k')
    (htag : p.kind.isPairedTag = false)
    (hstart : Level.free.At file k → Level.free.At file p.node.start) : Sound file bare k [p] k' := by
  refine ⟨List.forall_mem_singleton.2 hsettled, hrow, List.forall_mem_singleton.2 htag,
    fun hk q hq => ?_, nofun⟩
  cases hq
  exact hstart hk

theorem as (h : Sound file bare k [p] k') (field : Field) : Sound file bare k [p.as field] k' :=
  .single (h.one.as field) h.row h.tag h.start

/-- A piece among others may play a part. -/
theorem asAmong (h : Sound file bare k (ps ++ p :: qs) k') (field : Field) :
    Sound file bare k (ps ++ p.as field :: qs) k' := by
  obtain ⟨hps, hqs⟩ := List.forall_mem_append.1 h.settled
  obtain ⟨hp, hqs⟩ := List.forall_mem_cons.1 hqs
  obtain ⟨hpstags, hqstags⟩ := List.forall_mem_append.1 h.tags
  obtain ⟨hptag, hqstags⟩ := List.forall_mem_cons.1 hqstags
  have hrow := h.row
  rw [List.map_append, List.map_cons] at hrow
  refine ⟨List.forall_mem_append.2 ⟨hps, List.forall_mem_cons.2 ⟨hp.as field, hqs⟩⟩, ?_,
    List.forall_mem_append.2 ⟨hpstags, List.forall_mem_cons.2 ⟨hptag, hqstags⟩⟩, fun hk q hq => ?_,
    fun hnone => absurd (List.append_eq_nil_iff.1 hnone).2 nofun⟩
  · rw [List.map_append, List.map_cons]
    exact hrow.replace rfl rfl
  · cases ps with
    | nil =>
      cases hq
      exact h.first hk p rfl
    | cons r ps => exact h.first hk q hq

theorem asFirst (h : Sound file bare k (p :: qs) k') (field : Field) :
    Sound file bare k (p.as field :: qs) k' := by
  have hamong : Sound file bare k ([] ++ p :: qs) k' := h
  exact hamong.asAmong field

theorem retag {kind : Kind} {hkind : kind.isPlain = true} (h : Sound file bare k [p] k')
    (hordinary : kind.isOrdinary = true)
    (hcolon : p.node.children ≠ [] →
      (p.kind == .jsxNamespaceName) = (kind == .jsxNamespaceName) ∧ p.kind ≠ .jsxElement) :
    Sound file bare k [p.retag kind hkind] k' :=
  .single (h.one.retag hordinary hcolon) h.row
    (Kind.isPairedTag_of_isCommon (Kind.isCommon_of_isOrdinary hordinary)) h.start

/-- A piece goes on with what is below another one. -/
theorem absorb {q : Piece file} (h : Sound file false k [p] k') (h' : Sound file false k' [q] k'')
    (hrow : Node.Row q.node.start q.node.children q.node.stop)
    (hcolon : (q.kind == .jsxNamespaceName) = false) (helement : q.kind ≠ .jsxElement) :
    Sound file false k (p :: q.children) k'' := by
  have hnodes : q.children.map (·.node) = q.node.children := by
    rw [Piece.children, List.map_map]
    exact List.attach_map_subtype_val _
  refine ⟨List.forall_mem_cons.2 ⟨h.one, fun c hc => ?_⟩, ?_,
    List.forall_mem_cons.2 ⟨h.tag, fun c hc => ?_⟩, fun hk r hr => h.first hk r hr, nofun⟩
  · obtain ⟨child, -, rfl⟩ := List.mem_map.1 hc
    exact hcolon ▸ h'.one.child child.2
  · obtain ⟨hstart, -, hstop⟩ := h'.row
    rw [List.map_cons, hnodes]
    have hfirst : Node.Row k [p.node] q.node.start := h.row.append (show Node.Row k' [] _ from hstart)
    have hlast : Node.Row q.node.start q.node.children k'' :=
      List.append_nil q.node.children ▸ hrow.append (show Node.Row q.node.stop [] _ from hstop)
    exact hfirst.append hlast
  · obtain ⟨child, -, rfl⟩ := List.mem_map.1 hc
    exact h'.one.form.tags helement child.1 child.2

theorem weaken (h : Sound file false k ps k') (bare : Bool) : Sound file bare k ps k' :=
  ⟨fun p hp => (h.settled p hp).weaken bare, h.row, h.tags, h.first, h.empty⟩

section Nodes

variable {kind : Kind} {start : Offset file} {hkind : kind.isPlain = true}

/-- A node over pieces starts where they do. -/
theorem start_spanning (h : Sound file bare k ps k') (hk : Level.free.At file k)
    (hstart : ps = [] → start.1 = k) :
    Level.free.At file (Piece.spanning kind start ps hkind).node.start := by
  show Level.free.At file (((ps.map (·.node)).head?.map (·.start)).getD start.1)
  cases ps with
  | nil =>
    rw [List.map_nil, List.head?_nil, Option.map_none, Option.getD_none, hstart rfl]
    exact hk
  | cons q qs => exact h.first hk q rfl

/-- The pieces of a node over them stand in order in it. -/
theorem row_spanning (h : Sound file bare k ps k') (hstart : ps = [] → start.1 = k) :
    Node.Row (Piece.spanning kind start ps hkind).node.start (ps.map (·.node))
        (Piece.spanning kind start ps hkind).node.stop ∧
      Node.Row k [(Piece.spanning kind start ps hkind).node] k' := by
  have hplace : ps.map (·.node) = [] → k ≤ start.1 ∧ start.1 ≤ k' := by
    intro hnone
    rw [hstart (List.map_eq_nil_iff.1 hnone), h.empty (List.map_eq_nil_iff.1 hnone)]
    exact ⟨Nat.le_refl k, Nat.le_refl k⟩
  obtain ⟨hk, hrow, hk'⟩ := h.row.spanning kind start.1 hplace
  exact ⟨hrow, hk, hrow.le, hk'⟩

/-- A node over pieces, of which it remains to be said that it is formed as the grammar says. -/
theorem covering (h : Sound file (kind == .jsxNamespaceName) k ps k')
    (hstart : ps = [] → start.1 = k) (htag : kind.isPairedTag = false)
    (hown : (Piece.spanning kind start ps hkind).node.StandsApart file)
    (hform : (Piece.spanning kind start ps hkind).node.Formed) :
    Sound file false k [.spanning kind start ps hkind] k' := by
  refine .single (.node (fun _ => hown) hform ?_) (h.row_spanning hstart).2 htag
    fun hk => h.start_spanning hk hstart
  rintro c hc
  obtain ⟨p, hp, rfl⟩ := List.mem_map.1 hc
  exact h.settled p hp

/-- A node of a common kind over pieces is formed as the grammar says. -/
theorem formed (h : Sound file bare k ps k') (hstart : ps = [] → start.1 = k)
    (hcommon : kind.isCommon = true) : (Piece.spanning kind start ps hkind).node.Formed := by
  refine Node.formed_of_isCommon hcommon ((h.row_spanning hstart).1.sublist List.filter_sublist) ?_
  rintro c hc
  obtain ⟨p, hp, rfl⟩ := List.mem_map.1 hc
  exact h.tags p hp

/-- An ordinary node over pieces. -/
theorem spanning (h : Sound file (kind == .jsxNamespaceName) k ps k')
    (hordinary : kind.isOrdinary = true) (hstart : ps = [] → start.1 = k) :
    Sound file false k [.spanning kind start ps hkind] k' :=
  have hcommon := Kind.isCommon_of_isOrdinary hordinary
  h.covering hstart (Kind.isPairedTag_of_isCommon hcommon) (Node.standsApart_of_isOrdinary hordinary)
    (h.formed hstart hcommon)

/-- An ordinary node other than a name with a colon. -/
theorem whole (h : Sound file false k ps k') (hordinary : kind.isOrdinary = true)
    (hcolon : (kind == .jsxNamespaceName) = false) (hstart : ps = [] → start.1 = k) :
    Sound file false k [.spanning kind start ps hkind] k' :=
  Sound.spanning (hcolon ▸ h) hordinary hstart

/-- A node that goes on with a piece. -/
theorem spanning_cons (h : Sound file false k [p] k') (h' : Sound file false k' qs k'')
    (hordinary : kind.isOrdinary = true) (hcolon : (kind == .jsxNamespaceName) = false)
    (start : Offset file) : Sound file false k [.spanning kind start (p :: qs) hkind] k'' :=
  (h.cons h').whole hordinary hcolon nofun

end Nodes

/-- An import statement. -/
theorem importing {hkeyword : Stands file p.node.start "import"} (h : Sound file false k [p] k')
    (h' : Sound file false k' qs k'') : Sound file false k [.importing p hkeyword qs] k'' := by
  have hpieces := h.cons h'
  obtain ⟨hk, hrow, hk'⟩ := hpieces.row.spanning .importStatement p.node.start nofun
  refine .single (.node (fun _ => ?_) (Node.formed_of_isCommon (Eq.refl true) ?_ ?_) ?_)
    ⟨hk, hrow.le, hk'⟩ (Eq.refl false) h.start
  · exact Node.standsApart_of_isOrdinary (Eq.refl true)
  · exact hrow.sublist List.filter_sublist
  · rintro c hc
    obtain ⟨q, hq, rfl⟩ := List.mem_map.1 hc
    exact hpieces.tags q hq
  · rintro c hc
    obtain ⟨q, hq, rfl⟩ := List.mem_map.1 hc
    exact hpieces.settled q hq

/-- An access to a member of what begins where a name may begin. -/
theorem member {start : Offset file} (hk : Level.free.At file k) (h : Sound file false k ps k')
    (hne : ps ≠ []) (hlast : ∀ p ∈ ps.getLast?, ShutAt file p.node.stop) :
    Sound file false k [.spanning .memberExpression start ps] k' := by
  have hfirst : Level.free.At file (Piece.spanning .memberExpression start ps).node.start :=
    h.start_spanning hk fun hnone => absurd hnone hne
  have hpieces : Sound file (Kind.memberExpression == .jsxNamespaceName) k ps k' := h
  refine hpieces.covering (fun hnone => absurd hnone hne) rfl
    ⟨nofun, fun _ => ⟨hfirst, ?_⟩⟩ (h.formed (fun hnone => absurd hnone hne) rfl)
  show ShutAt file (((ps.map (·.node)).getLast?.map (·.stop)).getD start.1)
  obtain ⟨init, q, rfl⟩ := (List.eq_nil_or_concat ps).resolve_left hne
  rw [List.concat_eq_append] at hlast ⊢
  rw [List.map_append, List.map_singleton, List.getLast?_concat]
  exact hlast q List.getLast?_concat

end Sound

/-! ### Names of tags and imports -/

/-- Pieces of which none plays a part. -/
structure Unplayed (file : List Char) (field : Field) (k : Nat) (ps : List (Piece file)) (k' : Nat) :
    Prop where
  sound : Sound file false k ps k'
  unplayed : ∀ p ∈ ps, p.node.field ≠ some field

/-- Simple pieces, of which there is one at least. -/
structure SoundName (file : List Char) (bare : Bool) (k : Nat) (ps : List (Piece file)) (k' : Nat) :
    Prop where
  sound : Sound file bare k ps k'
  simple : ∀ p ∈ ps, p.node.Simple
  nonempty : ps ≠ []

/-- Pieces of which the first one that plays the part of a name is simple. -/
structure SoundNamed (file : List Char) (k : Nat) (ps : List (Piece file)) (k' : Nat) : Prop where
  sound : Sound file false k ps k'
  named : ∀ x ∈ (ps.map (·.node)).find? (·.field == some .name), x.Simple

/-- Pieces of which the first one is a simple node with a name of its kind. -/
structure SoundProperty (file : List Char) (k : Nat) (ps : List (Piece file)) (k' : Nat) : Prop where
  sound : Sound file false k ps k'
  first : ∃ x rest, ps = x :: rest ∧ x.node.isNamed = true ∧ x.node.Simple

section Names

variable {bare : Bool} {k k' k'' : Nat} {p : Piece file} {ps qs os cs : List (Piece file)} {field : Field}

theorem Unplayed.nil (field : Field) (k : Nat) : Unplayed file field k [] k := ⟨.nil false k, nofun⟩

theorem Unplayed.single (h : Sound file false k [p] k') (hfield : p.node.field = none) :
    Unplayed file field k [p] k' :=
  ⟨h, List.forall_mem_singleton.2 (by rw [hfield]; nofun)⟩

theorem Unplayed.append (h : Unplayed file field k ps k') (h' : Unplayed file field k' qs k'') :
    Unplayed file field k (ps ++ qs) k'' :=
  ⟨h.sound.append h'.sound, List.forall_mem_append.2 ⟨h.unplayed, h'.unplayed⟩⟩

theorem SoundName.append (h : SoundName file bare k ps k') (h' : SoundName file bare k' qs k'') :
    SoundName file bare k (ps ++ qs) k'' :=
  ⟨h.sound.append h'.sound, List.forall_mem_append.2 ⟨h.simple, h'.simple⟩,
    List.append_ne_nil_of_left_ne_nil h.nonempty qs⟩

theorem SoundNamed.nil (k : Nat) : SoundNamed file k [] k := ⟨.nil false k, nofun⟩

theorem SoundNamed.append (h : SoundNamed file k ps k') (h' : SoundNamed file k' qs k'') :
    SoundNamed file k (ps ++ qs) k'' := by
  refine ⟨h.sound.append h'.sound, fun x hx => ?_⟩
  rw [List.map_append, List.find?_append, Option.mem_def, Option.or_eq_some_iff] at hx
  exact hx.elim (h.named x) fun hx => h'.named x hx.2

/-- Pieces without a name. -/
theorem Unplayed.named (h : Unplayed file .name k ps k') : SoundNamed file k ps k' := by
  refine ⟨h.sound, fun x hx => ?_⟩
  obtain ⟨p, hp, rfl⟩ := List.mem_map.1 (List.mem_of_find?_eq_some hx)
  have hfield := List.find?_some hx
  exact absurd (beq_iff_eq.1 hfield) (h.unplayed p hp)

/-- Behind a simple name nothing more is asked. -/
theorem Sound.named_cons (h : Sound file false k [p] k') (hsimple : p.node.Simple)
    (h' : Sound file false k' qs k'') : SoundNamed file k (p.as .name :: qs) k'' := by
  refine ⟨(h.as .name).cons h', fun x hx => ?_⟩
  obtain rfl : (p.as .name).node = x := Option.some.inj hx
  exact hsimple.as .name

section Nodes

variable {kind : Kind} {start : Offset file} {hkind : kind.isPlain = true}

/-- A node over simple pieces is simple. -/
theorem SoundName.spanning (h : SoundName file bare k ps k') (hcomment : kind ≠ .comment)
    (hholds : kind.holdsName = false) : (Piece.spanning kind start ps hkind).node.Simple := by
  have hrow : Node.Row (Piece.spanning kind start ps hkind).node.start (ps.map (·.node))
      (Piece.spanning kind start ps hkind).node.stop :=
    (h.sound.row_spanning fun hnone => absurd hnone h.nonempty).1
  refine ⟨hcomment, ?_, fun m hm => ?_⟩
  · obtain ⟨p, hp⟩ := List.exists_mem_of_ne_nil ps h.nonempty
    have := hrow.range p.node (List.mem_map.2 ⟨p, hp, rfl⟩)
    have := (h.simple p hp).nonempty
    omega
  · rcases Node.mem_preorder.1 hm with rfl | hm
    · exact hholds
    · obtain ⟨c, hc, hm⟩ := Node.mem_preorderList.1 hm
      obtain ⟨p, hp, rfl⟩ := List.mem_map.1 hc
      exact (h.simple p hp).plain m hm

/-- A node with a simple name is formed as the grammar says. -/
theorem SoundNamed.formed (h : SoundNamed file k ps k') (hstart : ps = [] → start.1 = k)
    (hnamed : kind.isNamedSimply = true) : (Piece.spanning kind start ps hkind).node.Formed := by
  have hnot (other : Kind) (hother : other.isNamedSimply = false) : kind ≠ other := by
    rintro rfl
    rw [hnamed] at hother
    cases hother
  refine ⟨(h.sound.row_spanning hstart).1.sublist List.filter_sublist, fun hleaf => ?_,
    fun hleaf => absurd hleaf (hnot _ rfl), fun _ => h.named, fun hattribute =>
    absurd hattribute (hnot _ rfl), fun _ c hc => ?_, fun helement => absurd helement (hnot _ rfl)⟩
  · exact hleaf.elim (absurd · (hnot _ rfl)) (absurd · (hnot _ rfl))
  · obtain ⟨p, hp, rfl⟩ := List.mem_map.1 hc
    exact h.sound.tags p hp

/-- A tag or an import over its pieces, with its name among them. -/
theorem SoundNamed.settled (h : SoundNamed file k ps k') (hstart : ps = [] → start.1 = k)
    (hnamed : kind.isNamedSimply = true) :
    Node.Settled file false (Piece.spanning kind start ps hkind).node := by
  have hkinds : kind.isNameless = true ∧ (kind == .jsxNamespaceName) = false := by
    unfold Kind.isNamedSimply at hnamed
    split at hnamed
    · exact ⟨rfl, rfl⟩
    · exact ⟨rfl, rfl⟩
    · exact ⟨rfl, rfl⟩
    · exact ⟨rfl, rfl⟩
    · cases hnamed
  refine .node (fun _ => Node.standsApart_of_isNameless hkinds.1) (h.formed hstart hnamed) ?_
  rintro c hc
  obtain ⟨p, hp, rfl⟩ := List.mem_map.1 hc
  have hcolon : ((Piece.spanning kind start ps hkind).node.kind == .jsxNamespaceName) = false :=
    hkinds.2
  rw [hcolon]
  exact h.sound.settled p hp

theorem SoundNamed.spanning (h : SoundNamed file k ps k') (hstart : ps = [] → start.1 = k)
    (hnamed : kind.isNamedSimply = true) (htag : kind.isPairedTag = false) :
    Sound file false k [.spanning kind start ps hkind] k' :=
  .single (h.settled hstart hnamed) (h.sound.row_spanning hstart).2 htag
    fun hk => h.sound.start_spanning hk hstart

end Nodes

/-- An attribute over its pieces, of which the first one is its name. -/
theorem SoundProperty.spanning {start : Offset file} (h : SoundProperty file k ps k') :
    Sound file false k [.spanning .jsxAttribute start ps] k' := by
  obtain ⟨x, rest, hps, hnamed, hsimple⟩ := h.first
  have hne : ps = [] → start.1 = k := by
    rw [hps]
    nofun
  have hpieces : Sound file (Kind.jsxAttribute == .jsxNamespaceName) k ps k' := h.sound
  refine hpieces.covering hne rfl (Node.standsApart_of_isNameless rfl) ⟨?_, nofun, nofun, nofun, fun _ => ?_,
    fun _ c hc => ?_, nofun⟩
  · exact (h.sound.row_spanning hne).1.sublist List.filter_sublist
  · subst hps
    exact ⟨x.node, rest.map (·.node), rfl, hnamed, rfl, hsimple⟩
  · obtain ⟨p, hp, rfl⟩ := List.mem_map.1 hc
    exact h.sound.tags p hp

section Elements

variable {j j' : Nat} {start openStart closeStart : Offset file}

/-- The opening tag of an element, as it stands there. -/
abbrev openTag (start : Offset file) (ps : List (Piece file)) : Piece file :=
  (Piece.spanning .jsxOpeningElement start ps).as .openTag

/-- The closing tag of an element, as it stands there. -/
abbrev closeTag (start : Offset file) (ps : List (Piece file)) : Piece file :=
  (Piece.spanning .jsxClosingElement start ps).as .closeTag

/-- An element has one opening and one closing tag, and the latter is the one that plays this part. -/
theorem formed_element (hrow : Node.Row k ((openTag openStart os :: cs ++ [closeTag closeStart qs]).map
      (·.node)) k') (hc : Unplayed file .closeTag j cs j') :
    (Piece.spanning .jsxElement start
      (openTag openStart os :: cs ++ [closeTag closeStart qs])).node.Formed := by
  have htags (kind : Kind) (hkind : kind.isPairedTag = true) :
      (cs.map (·.node)).countP (·.kind == kind) = 0 := by
    refine List.countP_eq_zero.2 fun c hcmem hsame => ?_
    obtain ⟨p, hp, rfl⟩ := List.mem_map.1 hcmem
    have hother : p.node.kind.isPairedTag = false := hc.sound.tags p hp
    rw [beq_iff_eq.1 hsame, hkind] at hother
    cases hother
  have hnodes : (openTag openStart os :: cs ++ [closeTag closeStart qs]).map (·.node) =
      (openTag openStart os).node :: (cs.map (·.node) ++ [(closeTag closeStart qs).node]) := by
    rw [List.cons_append, List.map_cons, List.map_append, List.map_singleton]
  have hinside := (hrow.spanning .jsxElement start.1 nofun).2.1
  refine ⟨hinside.sublist List.filter_sublist, nofun, nofun, nofun, nofun, fun h => absurd rfl h,
    fun _ => ?_⟩
  show List.countP _ ((openTag openStart os :: cs ++ [closeTag closeStart qs]).map (·.node)) = 1 ∧
    List.countP _ ((openTag openStart os :: cs ++ [closeTag closeStart qs]).map (·.node)) = 1 ∧
    ∃ closing ∈ ((openTag openStart os :: cs ++ [closeTag closeStart qs]).map (·.node)).find? _, _
  have hcount (kind : Kind) (hkind : kind.isPairedTag = true) :
      ((openTag openStart os).node :: (cs.map (·.node) ++ [(closeTag closeStart qs).node])).countP
        (·.kind == kind) = [(openTag openStart os).node, (closeTag closeStart qs).node].countP
          (·.kind == kind) := by
    rw [List.countP_cons, List.countP_append, htags kind hkind, Nat.zero_add, ← List.countP_cons]
  rw [hnodes, hcount _ rfl, hcount _ rfl]
  refine ⟨rfl, rfl, (closeTag closeStart qs).node, ?_, rfl⟩
  have hnone : (cs.map (·.node)).find? (·.field == some .closeTag) = none := by
    refine List.find?_eq_none.2 fun c hcmem hplays => ?_
    obtain ⟨p, hp, rfl⟩ := List.mem_map.1 hcmem
    exact hc.unplayed p hp (beq_iff_eq.1 hplays)
  have hother : ¬ ((openTag openStart os).node.field == some .closeTag) = true :=
    show ¬ (some Field.openTag == some Field.closeTag) = true by decide
  rw [List.find?_cons_of_neg (p := fun n : Node => n.field == some .closeTag) hother,
    List.find?_append, hnone]
  rfl

/-- An element over its opening tag, its children and its closing tag. -/
theorem SoundNamed.element (ho : SoundNamed file k os j) (hc : Unplayed file .closeTag j cs j')
    (hq : SoundNamed file j' qs k') (hone : os ≠ []) (hqne : qs ≠ []) :
    Sound file false k [.spanning .jsxElement start
      (openTag openStart os :: cs ++ [closeTag closeStart qs])] k' := by
  have hoSettled : Node.Settled file false (openTag openStart os).node :=
    (ho.settled (fun h => absurd h hone) rfl).as .openTag
  have hqSettled : Node.Settled file false (closeTag closeStart qs).node :=
    (hq.settled (fun h => absurd h hqne) rfl).as .closeTag
  have hrow : Node.Row k ((openTag openStart os :: cs ++ [closeTag closeStart qs]).map (·.node)) k' := by
    have hoRow : Node.Row k [(Piece.spanning .jsxOpeningElement openStart os).node] j :=
      (ho.sound.row_spanning fun h => absurd h hone).2
    have hqRow : Node.Row j' [(Piece.spanning .jsxClosingElement closeStart qs).node] k' :=
      (hq.sound.row_spanning fun h => absurd h hqne).2
    rw [List.cons_append, List.map_cons, List.map_append, List.map_singleton]
    exact hoRow.append (hc.sound.row.append hqRow)
  obtain ⟨hk, hinside, hk'⟩ := hrow.spanning .jsxElement start.1 nofun
  refine .single (.node (fun _ => Node.standsApart_of_isNameless rfl) (formed_element hrow hc) ?_)
    ⟨hk, hinside.le, hk'⟩ rfl fun hfree => ?_
  · rintro c hcmem
    obtain ⟨p, hp, rfl⟩ := List.mem_map.1 hcmem
    rcases List.mem_append.1 hp with hp | hp
    · rcases List.mem_cons.1 hp with rfl | hp
      · exact hoSettled
      · exact hc.sound.settled p hp
    · exact List.mem_singleton.1 hp ▸ hqSettled
  · have hstart : Level.free.At file (Piece.spanning .jsxOpeningElement openStart os).node.start :=
      ho.sound.start_spanning hfree fun h => absurd h hone
    exact hstart

end Elements

end Names

end WebMigration.Syntax
