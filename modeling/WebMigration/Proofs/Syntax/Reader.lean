import WebMigration.Proofs.Syntax.Lexeme
import WebMigration.Proofs.Syntax.Standing
import WebMigration.Syntax.Grammar.Pattern

/-!
# What readers keep

A reader that starts where enough is known of the text before it reads sound pieces and stops where
something is known again.  What is said of a reader follows from what is said of its parts, in the
order in which they read.
-/

namespace WebMigration.Syntax

open Reader Fragment

variable {file : List Char} {α β : Type}

/-- What has to be known where a construct begins. -/
def Goal.before : Goal → Level
  | .block | .markup => .any
  | _ => .free

/-- What is known where a construct ends. -/
def Goal.after : Goal → Level
  | .expression _ _ | .type _ _ => .any
  | _ => .free

/-- The constructs that readers enter are sound, and elements play no part yet. -/
def Surroundings.Sound (s : Surroundings file) : Prop :=
  ∀ goal p a q, goal.before.At file p.pos → s.enter goal p = .ok a q →
    goal.after.At file q.pos ∧ Syntax.Sound file false p.pos [a] q.pos ∧
      (goal = .markup → a.node.field = none)

/-- Where a reader starts at one level, it stops at another, and what it read is as told. -/
def Reads (pre post : Level) (Q : Nat → α → Nat → Prop) (r : Reader file α) : Prop :=
  ∀ s : Surroundings file, s.Sound → ∀ p a q, pre.At file p.pos → r s p = .ok a q →
    post.At file q.pos ∧ Q p.pos a q.pos

/-- A reader that moves nothing forward. -/
def Peeks (r : Reader file α) : Prop := ∀ s p a q, r s p = .ok a q → q.pos = p.pos

/-- A reader of sound pieces. -/
abbrev ReadsAll (file : List Char) (pre post : Level) (f : Fragment file) : Prop :=
  Reads pre post (Sound file false) f

/-- A reader of one sound piece. -/
abbrev ReadsOne (file : List Char) (pre post : Level) (r : Reader file (Piece file)) : Prop :=
  Reads pre post (fun k p k' => Sound file false k [p] k') r

/-- A piece that goes on with others that were read from some place on. -/
abbrev GoesOn (file : List Char) (start : Nat) (before : List (Piece file)) (k : Nat) (p : Piece file)
    (k' : Nat) : Prop :=
  Sound file false start before k → Sound file false start [p] k'

/-- What is said of pieces that are read holds of no pieces, and of pieces behind pieces. -/
structure Adds (Q : Nat → List (Piece file) → Nat → Prop) : Prop where
  nil : ∀ k, Q k [] k
  append : ∀ {k ps k' qs k''}, Q k ps k' → Q k' qs k'' → Q k (ps ++ qs) k''

theorem adds_sound (bare : Bool) : Adds (Sound file bare) := ⟨.nil bare, .append⟩

theorem adds_soundNamed : Adds (SoundNamed file) := ⟨.nil, .append⟩

theorem adds_unplayed (field : Field) : Adds (Unplayed file field) := ⟨.nil field, .append⟩

/-- Whatever a reader reads has a property. -/
def Yields (P : α → Prop) (r : Reader file α) : Prop := ∀ s p a q, r s p = .ok a q → P a

/-- Two readers, one behind the other, read what they read in turn. -/
theorem Reader.exists_of_bind {r : Reader file α} {f : α → Reader file β} {s : Surroundings file}
    {p q : Progress file} {b : β} (h : (r >>= f) s p = .ok b q) :
    ∃ a p', r s p = .ok a p' ∧ f a s p' = .ok b q := by
  simp only [Bind.bind] at h
  cases hread : r s p with
  | ok a p' =>
    rw [hread] at h
    exact ⟨a, p', rfl, h⟩
  | fail n =>
    rw [hread] at h
    cases h

namespace Reads

variable {pre mid post pre' post' : Level} {Q Q' : Nat → α → Nat → Prop} {R : Nat → β → Nat → Prop}
  {r q : Reader file α} {f : α → Reader file β} {a : α}

theorem mono (h : Reads pre post Q r) (hpre : pre ≤ pre') (hpost : post' ≤ post) :
    Reads pre' post' Q r := fun s hs p a q hp hr =>
  (h s hs p a q (hp.mono hpre) hr).imp_left fun hq => hq.mono hpost

/-- Nothing need be said of the place behind. -/
theorem forget (h : Reads pre post Q r) : Reads pre .any Q r :=
  h.mono (Nat.le_refl _) (Level.any_le _)

theorem imp (h : Reads pre post Q r) (hQ : ∀ k a k', pre.At file k → Q k a k' → Q' k a k') :
    Reads pre post Q' r := fun s hs p a q hp hr =>
  (h s hs p a q hp hr).imp_right (hQ _ _ _ hp)

theorem pure (h : ∀ k, pre.At file k → post.At file k ∧ Q k a k) :
    Reads pre post Q (Pure.pure a : Reader file α) := by
  rintro s hs p _ _ hp ⟨⟩
  exact h p.pos hp

theorem refuse : Reads pre post Q (Reader.refuse : Reader file α) := by
  rintro s hs p _ _ hp ⟨⟩

theorem bind (hr : Reads pre mid Q r)
    (hf : ∀ k a k', pre.At file k → Q k a k' →
      Reads mid post (fun j b j' => j = k' → R k b j') (f a)) : Reads pre post R (r >>= f) := by
  intro s hs p b q hp hbind
  obtain ⟨a, p', hread, hrest⟩ := exists_of_bind hbind
  obtain ⟨hmid, hQ⟩ := hr s hs p a p' hp hread
  obtain ⟨hpost, hR⟩ := hf _ _ _ hp hQ s hs p' b q hmid hrest
  exact ⟨hpost, hR rfl⟩

/-- What is read is put together at the end. -/
theorem map {g : α → β} (hr : Reads pre post Q r)
    (hg : ∀ k a k', pre.At file k → Q k a k' → R k (g a) k') :
    Reads pre post R (r >>= fun a => Pure.pure (g a)) :=
  hr.bind fun k a k' hk hQ => .pure fun _ hj => ⟨hj, fun hjk => hjk ▸ hg k a k' hk hQ⟩

theorem peek {g : β → Reader file α} {x : Reader file β} (hx : Peeks x)
    (hg : ∀ b, Reads pre post Q (g b)) : Reads pre post Q (x >>= g) := by
  intro s hs p a q hp hbind
  obtain ⟨b, p', hread, hrest⟩ := exists_of_bind hbind
  have hpos := hx s p b p' hread
  obtain ⟨hpost, hQ⟩ := hg b s hs p' a q (hpos ▸ hp) hrest
  exact ⟨hpost, hpos ▸ hQ⟩

/-- What is read is kept if a look at what follows allows it. -/
theorem checked {x : α → Reader file Unit} (hr : Reads pre post Q r) (hx : ∀ a, Peeks (x a)) :
    Reads pre post Q (r >>= fun a => x a >>= fun _ => Pure.pure a) :=
  hr.bind fun _ a _ _ hQ => .peek (hx a) fun _ => .pure fun _ hj => ⟨hj, fun hjk => hjk ▸ hQ⟩

theorem whenThen {condition : Bool} {g : Unit → Reader file α}
    (h : condition = true → Reads pre post Q (g ())) :
    Reads pre post Q (Reader.when? condition >>= g) := by
  cases condition with
  | false =>
    rintro s hs p a q hp ⟨⟩
  | true => exact h rfl

/-- The place where reading starts is kept. -/
theorem progress {g : Progress file → Reader file α}
    (hg : ∀ b : Progress file, pre.At file b.pos →
      Reads pre post (fun k a k' => b.pos = k → Q k a k') (g b)) :
    Reads pre post Q (Reader.progress >>= g) := by
  intro s hs p a q hp hbind
  obtain ⟨hpost, hQ⟩ := hg p hp s hs p a q hp hbind
  exact ⟨hpost, hQ rfl⟩

theorem orElse (hr : Reads pre post Q r) {q : Unit → Reader file α} (hq : Reads pre post Q (q ())) :
    Reads pre post Q (r.orElse q) := by
  intro s hs p a p' hp hread
  unfold Reader.orElse at hread
  split at hread
  · rename_i b p'' hfirst
    cases hread
    exact hr s hs p a p' hp hfirst
  · rename_i n _
    exact hq s hs { p with reach := n } a p' hp hread

theorem choice_nil : Reads pre post Q (choice [] : Reader file α) := refuse

theorem choice_cons {rs : List (Reader file α)} (hr : Reads pre post' Q r)
    (hrs : Reads pre post Q (choice rs))
    (hpost : post ≤ post' := by first | exact Level.any_le _ | exact Level.le_free _ | decide) :
    Reads pre post Q (choice (r :: rs)) :=
  (hr.mono (Nat.le_refl _) hpost).orElse hrs

theorem choice_of {rs : List (Reader file α)} (h : ∀ r ∈ rs, Reads pre post Q r) :
    Reads pre post Q (choice rs) := by
  induction rs with
  | nil => exact choice_nil
  | cons r rs ih =>
    obtain ⟨hr, hrs⟩ := List.forall_mem_cons.1 h
    exact hr.orElse (ih hrs)

theorem enter (goal : Goal) : ReadsOne file goal.before goal.after (Reader.enter goal) :=
  fun _ hs p a q hp hread => (hs goal p a q hp hread).imp_right And.left

theorem expression {level : Nat} {placement : Placement} :
    ReadsOne file .free .any (Reader.enter (.expression level placement)) :=
  enter (.expression level placement)

theorem type {level : Nat} {ends : Bool} : ReadsOne file .free .any (Reader.enter (.type level ends)) :=
  enter (.type level ends)

theorem pattern : ReadsOne file .free .free (Reader.enter .pattern) := enter .pattern

theorem block : ReadsOne file pre .free (Reader.enter .block) :=
  (enter .block).mono (Level.any_le pre) (Nat.le_refl _)

theorem markup : ReadsOne file pre .free (Reader.enter .markup) :=
  (enter .markup).mono (Level.any_le pre) (Nat.le_refl _)

theorem unplayedMarkup {field : Field} :
    Reads pre .free (Unplayed file field) (Fragment.one (Reader.enter .markup)) := by
  intro s hs p ps q _ hread
  obtain ⟨a, p', hone, hrest⟩ := exists_of_bind hread
  cases hrest
  obtain ⟨hpost, hsound, hfield⟩ := hs .markup p a _ (fun _ _ _ _ => .inr trivial) hone
  exact ⟨hpost, .single hsound (hfield rfl)⟩

theorem statement : ReadsOne file .free .free (Reader.enter .statement) := enter .statement

theorem repeatUpTo {Q : Nat → List (Piece file) → Nat → Prop} (hQ : Adds Q) {f : Fragment file}
    (hf : Reads pre post Q f) (hle : pre ≤ post) (fuel : Nat) :
    Reads pre pre (fun k pss k' => Q k pss.flatten k') (Reader.repeatUpTo f fuel) := by
  induction fuel with
  | zero => exact pure fun k hk => ⟨hk, hQ.nil k⟩
  | succ fuel ih =>
    intro s hs p pss q hp hread
    rw [Reader.repeatUpTo] at hread
    dsimp only at hread
    split at hread
    · cases hread
      exact ⟨hp, hQ.nil _⟩
    · rename_i ps p' hfirst
      obtain ⟨hpost, hps⟩ := hf s hs p ps p' hp hfirst
      split at hread
      · cases hread
        exact ⟨hpost.mono hle, by simpa using hps⟩
      · split at hread
        · rename_i pss' p'' hrest
          cases hread
          obtain ⟨hq, hpss⟩ := ih s hs p' pss' q (hpost.mono hle) hrest
          exact ⟨hq, hQ.append hps hpss⟩
        · cases hread

theorem extend {step : α → Reader file α} {I : Nat → α → Prop}
    (hstep : ∀ a, Reads pre pre (fun k b k' => I k a → I k' b) (step a)) (a : α) :
    Reads pre pre (fun k b k' => I k a → I k' b) (Reader.extend step a) := by
  have hfuel : ∀ (fuel : Nat) (a : α), Reads pre pre (fun k b k' => I k a → I k' b)
      (Reader.extendUpTo step fuel a) := by
    intro fuel
    induction fuel with
    | zero => exact fun a => pure fun k hk => ⟨hk, fun h => h⟩
    | succ fuel ih =>
      intro a s hs p b q hp hread
      rw [Reader.extendUpTo] at hread
      dsimp only at hread
      split at hread
      · cases hread
        exact ⟨hp, fun h => h⟩
      · rename_i a' p' hfirst
        obtain ⟨hp', ha'⟩ := hstep a s hs p a' p' hp hfirst
        obtain ⟨hq, hb⟩ := ih a' s hs p' b q hp' hread
        exact ⟨hq, fun h => hb (ha' h)⟩
  exact fun s hs p b q hp hread => hfuel _ a s hs p b q hp hread

end Reads

/-! ### Peeking -/

namespace Peeks

variable {r : Reader file α} {f : α → Reader file β}

theorem pure (a : α) : Peeks (Pure.pure a : Reader file α) := by
  rintro s p _ _ ⟨⟩
  rfl

theorem refuse : Peeks (Reader.refuse : Reader file α) := by
  rintro s p _ _ ⟨⟩

theorem bind (hr : Peeks r) (hf : ∀ a, Peeks (f a)) : Peeks (r >>= f) := by
  intro s p b q hbind
  obtain ⟨a, p', hread, hrest⟩ := exists_of_bind hbind
  exact (hf a s p' b q hrest).trans (hr s p a p' hread)

theorem dialect : Peeks (Reader.dialect : Reader file Dialect) := by
  rintro s p _ _ ⟨⟩
  rfl

theorem peekLexeme (length? : List Char → Option Nat) :
    Peeks (peekLexeme length? : Reader file (Option String)) := by
  rintro s p _ _ ⟨⟩
  rfl

theorem peekChar : Peeks (Grammar.peekChar : Reader file (Option Char)) := by
  rintro s p _ _ ⟨⟩
  rfl

theorem endInsertable (context : EndContext) : Peeks (endInsertable context : Reader file Bool) := by
  rintro s p _ _ ⟨⟩
  rfl

theorem when? (condition : Bool) : Peeks (Reader.when? condition : Reader file Unit) := by
  unfold Reader.when?
  split
  · exact pure ()
  · exact refuse

theorem wouldRead (r : Reader file α) : Peeks (Reader.wouldRead r) := by
  intro s p b q h
  unfold Reader.wouldRead at h
  split at h <;> cases h <;> rfl

theorem ahead (r : Reader file α) : Peeks (Reader.ahead r) :=
  (wouldRead r).bind fun _ => when? _

theorem notAhead (r : Reader file α) : Peeks (Reader.notAhead r) :=
  (wouldRead r).bind fun _ => when? _

end Peeks

/-! ### Fragments -/

namespace Reads

variable {pre mid post pre' post' : Level} {bare : Bool} {f : Fragment file} {fs : List (Fragment file)}
  {r : Reader file (Piece file)}

theorem nil : Reads pre pre (Sound file bare) (Pure.pure [] : Fragment file) :=
  .pure fun k hk => ⟨hk, .nil bare k⟩

theorem one (h : Reads pre post (fun k p k' => Sound file bare k [p] k') r) :
    Reads pre post (Sound file bare) (Fragment.one r) :=
  h.map fun _ _ _ _ hp => hp

theorem part {field : Field} (h : ReadsOne file pre post r) :
    ReadsAll file pre post (Fragment.part field r) :=
  h.map fun _ _ _ _ hp => hp.as field

theorem seq_nil : Reads pre pre (Sound file bare) (seq [] : Fragment file) := nil

section Pieces

variable {Q Q' R : Nat → List (Piece file) → Nat → Prop}

theorem nilOf (hQ : Adds Q) : Reads pre pre Q (Pure.pure [] : Fragment file) :=
  .pure fun k hk => ⟨hk, hQ.nil k⟩

/-- Fragments of which something else is said each. -/
theorem seq_consOf (hf : Reads pre mid Q f) (hfs : Reads mid post Q' (seq fs))
    (hR : ∀ {k ps k' qs k''}, Q k ps k' → Q' k' qs k'' → R k (ps ++ qs) k'') :
    Reads pre post R (seq (f :: fs)) :=
  hf.bind fun _ _ _ _ hps => hfs.map fun _ _ _ _ hqs hj => hR hps (hj ▸ hqs)

theorem seq_last (hf : Reads pre post Q f) : Reads pre post Q (seq [f]) :=
  hf.map fun _ ps _ _ hps => (List.append_nil ps).symm ▸ hps

theorem optOf (hQ : Adds Q) (h : Reads pre post Q f) : Reads pre (pre.meet post) Q (Fragment.opt f) := by
  show Reads _ _ _ (Reader.orElse f fun _ => Pure.pure [])
  exact (h.mono (Nat.le_refl _) (Level.meet_le_right pre post)).orElse
    ((nilOf hQ).mono (Nat.le_refl _) (Level.meet_le_left pre post))

theorem starOf (hQ : Adds Q) (h : Reads pre post Q f)
    (hle : pre ≤ post := by first | exact Level.any_le _ | exact Level.le_free _ | decide) :
    Reads pre pre Q (Fragment.star f) := by
  refine Reads.map (r := many f) ?_ fun _ _ _ _ hps => hps
  exact fun s hs p pss q hp hread => h.repeatUpTo hQ hle _ s hs p pss q hp hread

end Pieces

theorem seq_cons (hf : Reads pre mid (Sound file bare) f)
    (hfs : Reads mid post (Sound file bare) (seq fs)) : Reads pre post (Sound file bare) (seq (f :: fs)) :=
  seq_consOf hf hfs .append

theorem opt (h : ReadsAll file pre post f) : ReadsAll file pre (pre.meet post) (Fragment.opt f) :=
  optOf (adds_sound false) h

/-- A fragment that only a dialect with types may have. -/
theorem optTyped (h : ReadsAll file pre post f) : ReadsAll file pre (pre.meet post)
    (Reader.dialect >>= fun d => if d.hasTypes then Fragment.opt f else Pure.pure []) := by
  refine .peek .dialect fun d => ?_
  split
  · exact h.opt
  · exact nil.mono (Nat.le_refl _) (Level.meet_le_left pre post)

theorem optSeq (h : ReadsAll file pre post (seq fs)) :
    ReadsAll file pre (pre.meet post) (Fragment.optSeq fs) :=
  h.opt

theorem star (h : ReadsAll file pre post f)
    (hle : pre ≤ post := by first | exact Level.any_le _ | exact Level.le_free _ | decide) :
    ReadsAll file pre pre (Fragment.star f) :=
  starOf (adds_sound false) h hle

/-- Pieces behind each of which nothing is known. -/
theorem starAny (h : ReadsAll file .any post f) : ReadsAll file pre .any (Fragment.star f) :=
  (star h).mono (Level.any_le pre) (Nat.le_refl _)

theorem sepBy1 {separator : Fragment file} (hs : ReadsAll file post mid separator)
    (hf : ReadsAll file pre post f) (hle : pre ≤ mid := by first | exact Level.le_free _ | decide) :
    ReadsAll file pre post (Fragment.sepBy1 separator f) := by
  have hnext : ReadsAll file mid post f := hf.mono hle (Nat.le_refl _)
  exact seq_cons hf (seq_cons (star (seq_cons hs (seq_cons hnext seq_nil)) (Nat.le_refl _)) seq_nil)

/-- A node over fragments, of which something is said. -/
theorem nodeWith {kind : Kind} {hkind : kind.isPlain = true} {Q : Nat → List (Piece file) → Nat → Prop}
    {R : Nat → Piece file → Nat → Prop} (h : Reads pre post Q (seq fs))
    (hR : ∀ k ps k' (offset : Offset file), offset.1 = k → Q k ps k' →
      R k (Piece.spanning kind offset ps hkind) k') : Reads pre post R (Syntax.node kind fs hkind) :=
  .progress fun b _ => h.map fun k ps k' _ hps hb => hR k ps k' b.offset hb hps

/-- A node of an ordinary kind over fragments. -/
theorem nodeOf {kind : Kind} {hkind : kind.isPlain = true}
    (h : Reads pre post (Sound file (kind == .jsxNamespaceName)) (seq fs))
    (hordinary : kind.isOrdinary = true := by decide) :
    Reads pre post (fun k p k' => Sound file false k [p] k' ∧ p.kind = kind ∧
      Node.Row p.node.start p.node.children p.node.stop) (Syntax.node kind fs hkind) :=
  nodeWith h fun _ _ _ _ hoffset hps =>
    ⟨hps.spanning hordinary fun _ => hoffset, rfl, (hps.row_spanning fun _ => hoffset).1⟩

theorem node {kind : Kind} {hkind : kind.isPlain = true}
    (h : Reads pre post (Sound file (kind == .jsxNamespaceName)) (seq fs))
    (hordinary : kind.isOrdinary = true := by decide) :
    ReadsOne file pre post (Syntax.node kind fs hkind) :=
  (nodeOf h hordinary).imp fun _ _ _ _ hp => hp.1

end Reads

/-! ### Lexemes -/

/-- Behind a lexeme of such a length the level holds. -/
def Leaves (post : Level) (length? : List Char → Option Nat) : Prop :=
  ∀ cs n, length? cs = some n → Shut (cs.drop n) ∨ ∀ front, post.Holds (front ++ cs.take n)

/-- No identifier goes on behind a lexeme of such a length. -/
def Shuts (length? : List Char → Option Nat) : Prop := ∀ cs n, length? cs = some n → Shut (cs.drop n)

theorem Shuts.leaves {length? : List Char → Option Nat} (h : Shuts length?) (post : Level) :
    Leaves post length? :=
  fun cs n hn => .inl (h cs n hn)

theorem leaves_any (length? : List Char → Option Nat) : Leaves .any length? :=
  fun _ _ _ => .inr fun _ => trivial

theorem shuts_wordThat (test : String → Bool) : Shuts (wordThat test) :=
  fun _ _ h => shut_word (word_of_wordThat h)

/-- What a mark says of the text behind it. -/
theorem leaves_mark {text : String} (barred : String) (h : freesBehind text.toList.reverse = true) :
    Leaves .free (markLength? text barred) := by
  intro cs n hn
  rw [take_of_markLength? hn]
  refine .inr fun front => ?_
  have hfree := free_of_freesBehind h front
  rwa [List.reverse_reverse] at hfree

theorem leaves_dot (barred : String) : Leaves .loose (markLength? "." barred) := by
  intro cs n hn
  rw [take_of_markLength? hn]
  exact .inr (loose_concat not_isIdentifierPart_dot)

theorem leaves_quote {length? : List Char → Option Nat} (h : ∀ cs n, length? cs = some n →
    ∃ inside quote, cs.take n = inside ++ [quote] ∧ (quote = '"' ∨ quote = '\'')) :
    Leaves .free length? := by
  intro cs n hn
  obtain ⟨inside, quote, htake, hquote⟩ := h cs n hn
  refine .inr fun front => ?_
  rw [htake, ← List.append_assoc]
  rcases hquote with rfl | rfl
  · exact free_concat (not_isIdentifierPart_of_punctuation rfl) (by decide) _
  · exact free_concat (not_isIdentifierPart_of_punctuation rfl) (by decide) _

/-- A leaf that is sound, with no identifier going on behind it if none does behind its lexeme. -/
structure SoundLeaf (file : List Char) (bare : Bool) (length? : List Char → Option Nat) (k : Nat)
    (p : Piece file) (k' : Nat) : Prop where
  sound : Sound file bare k [p] k'
  leaf : p.node.children = []
  shut : Shuts length? → ShutAt file p.node.stop

/-- Pieces of which the last one is the name of a member, behind which no identifier goes on. -/
structure Named (file : List Char) (k : Nat) (ps : List (Piece file)) (k' : Nat) : Prop where
  sound : Sound file false k ps k'
  nonempty : ps ≠ []
  shut : ∀ p ∈ ps.getLast?, ShutAt file p.node.stop

/-- An access to a member of what begins where a name may begin. -/
theorem Sound.access {k k' k'' : Nat} {ps qs : List (Piece file)} {start : Offset file}
    (h : Sound file false k ps k') (hk : Level.free.At file k) (h' : Named file k' qs k'') :
    Sound file false k [.spanning .memberExpression start (ps ++ qs)] k'' := by
  have hshut := h'.shut
  have hne : ps ++ qs ≠ [] := List.append_ne_nil_of_right_ne_nil _ h'.nonempty
  rw [List.getLast?_eq_some_getLast h'.nonempty] at hshut
  refine Sound.member hk (h.append h'.sound) hne ?_
  rwa [List.getLast?_append, List.getLast?_eq_some_getLast h'.nonempty]

/-- Blanks and comments before a piece are passed. -/
theorem Sound.of_gap {bare : Bool} {p : Progress file} {a : Piece file} {k' : Nat}
    (h : Sound file bare p.afterGap.pos [a] k') : Sound file bare p.pos [a] k' :=
  .single h.one (Node.Row.append (show Node.Row p.pos [] _ from le_afterGap p) h.row) h.tag
    fun hk => h.start (at_afterGap hk)

namespace Reads

variable {pre post : Level} {bare : Bool} {kind : Kind} {hkind : kind.isPlain = true}
  {length? : List Char → Option Nat} {test : String → Bool} {text barred : String}

theorem afterGap {r : Reader file (Piece file)} (h : Reads pre post (SoundLeaf file bare length?) r) :
    Reads pre post (SoundLeaf file bare length?) fun s p => r s p.afterGap := fun s hs _ a q hp hread =>
  (h s hs _ a q (at_afterGap hp) hread).imp_right fun h => ⟨h.sound.of_gap, h.leaf, h.shut⟩

/-- What a lexeme has to be for a leaf of a kind: the grammar says nothing more of the kind, or it is a
name and the lexeme is not empty. -/
def Fills (kind : Kind) (length? : List Char → Option Nat) : Prop :=
  kind.isCommon = true ∨ kind = .identifier ∧ Nonempty length?

theorem quotedHere {quoted : kind = .string → Quoted length?} {himport : kind ≠ .importStatement}
    (hleaves : Leaves post length?) (hfills : Fills kind length?)
    (hown : bare = false → ∀ (p : Progress file) (n : Nat), pre.At file p.pos →
      length? p.rest = some n → (Node.leaf kind p.pos (p.advance n).pos).StandsApart file) :
    Reads pre post (SoundLeaf file bare length?) (Syntax.quotedHere kind length? quoted himport) := by
  intro s hs p a q hp hread
  unfold Syntax.quotedHere at hread
  split at hread
  · rename_i n hn
    cases hread
    have hle : p.pos ≤ (p.advance n).pos := le_advance p n
    have hform : (Node.leaf kind p.pos (p.advance n).pos).Formed := by
      refine Node.formed_leaf rfl hle (hfills.imp_right fun ⟨hkind, hnonempty⟩ => .inr ⟨hkind, ?_⟩)
      exact p.pos_lt_advance (hnonempty _ _ hn)
    have htag : kind.isPairedTag = false := by
      rcases hfills with hcommon | ⟨rfl, -⟩
      · exact Kind.isPairedTag_of_isCommon hcommon
      · rfl
    refine ⟨at_advance p n (hleaves _ _ hn), ⟨.single ?_ ⟨Nat.le_refl _, hle, Nat.le_refl _⟩ htag
      (fun hk => hk), rfl, fun hshuts => shutAt_advance p n (hshuts _ _ hn)⟩⟩
    exact Node.settled_leaf rfl (fun hbare => hown hbare p n hp hn) hform
  · cases hread

theorem lexemeHere (hleaves : Leaves post length?) (hfills : Fills kind length?)
    (hown : bare = false → ∀ (p : Progress file) (n : Nat), pre.At file p.pos →
      length? p.rest = some n → (Node.leaf kind p.pos (p.advance n).pos).StandsApart file) :
    Reads pre post (SoundLeaf file bare length?) (Syntax.lexemeHere kind length? hkind) :=
  quotedHere hleaves hfills hown

/-- A leaf that starts here and is no name. -/
theorem leafHere (hleaves : Leaves post length?) (hordinary : kind.isOrdinary = true := by decide) :
    Reads pre post (SoundLeaf file bare length?) (Syntax.lexemeHere kind length? hkind) :=
  lexemeHere hleaves (.inl (Kind.isCommon_of_isOrdinary hordinary)) fun _ _ _ _ _ =>
    Node.standsApart_of_isOrdinary hordinary

/-- A leaf that is no name. -/
theorem leaf (hleaves : Leaves post length?) (hordinary : kind.isOrdinary = true := by decide) :
    Reads pre post (SoundLeaf file bare length?) (Syntax.lexeme kind length? hkind) :=
  (leafHere hleaves hordinary).afterGap

/-- A leaf in a name with a colon. -/
theorem bareLeaf (hleaves : Leaves post length?) (hfills : Fills kind length?) :
    Reads pre post (SoundLeaf file true length?) (Syntax.lexeme kind length? hkind) :=
  (lexemeHere hleaves hfills fun h => Bool.noConfusion h).afterGap

/-- A word that is a name. -/
theorem nameLeaf (hword : ∀ cs n, length? cs = some n → wordLength? cs = some n)
    (hname : kind.isName = true := by decide) :
    Reads .loose .free (SoundLeaf file bare length?) (Syntax.lexeme kind length? hkind) := by
  have hshuts : Shuts length? := fun cs n hn => shut_word (hword cs n hn)
  have hfills : Fills kind length? := by
    have hkinds : kind = .identifier ∨ kind = .typeIdentifier := by simpa [Kind.isName] using hname
    rcases hkinds with rfl | rfl
    · exact .inr ⟨rfl, fun cs n hn => nonempty_word cs n (hword cs n hn)⟩
    · exact .inl rfl
  refine (lexemeHere (hshuts.leaves .free) hfills fun _ p n hp hn => ?_).afterGap
  have hlength := hword _ _ hn
  refine ⟨fun _ => ⟨hp, shutAt_advance p n (hshuts _ _ hn), ?_⟩, fun hmember => ?_⟩
  · rintro front word back hfile hstart hstop
    obtain ⟨front', hfile', hpos⟩ := p.split
    obtain ⟨rfl, hrest⟩ := eq_of_byteSize (hfile.trans hfile'.symm) (hstart.trans hpos.symm)
    have hsize : byteSize word = byteSize (p.rest.take n) := by
      have hstop' : byteSize front + byteSize word = p.pos + byteSize (p.rest.take n) := by
        rw [← byteSize_append]
        exact hstop
      omega
    rw [← List.take_append_drop n p.rest] at hrest
    rw [(eq_of_byteSize hrest hsize).1]
    exact dot_not_mem_word hlength
  · have hkind' : kind = .memberExpression := hmember
    subst hkind'
    cases hname

theorem leafHere_one (hleaves : Leaves post length?) (hordinary : kind.isOrdinary = true := by decide) :
    ReadsOne file pre post (Syntax.lexemeHere kind length? hkind) :=
  (leafHere hleaves hordinary).imp fun _ _ _ _ h => h.sound

theorem lexeme (hleaves : Leaves post length?) (hordinary : kind.isOrdinary = true := by decide) :
    ReadsOne file pre post (Syntax.lexeme kind length? hkind) :=
  (leaf hleaves hordinary).imp fun _ _ _ _ h => h.sound

/-! ### What is read as such -/

end Reads

namespace Yields

variable {P P' : α → Prop} {r : Reader file α} {f : α → Reader file β} {R : β → Prop} {kind : Kind}
  {hkind : kind.isPlain = true} {length? : List Char → Option Nat}

theorem pure {a : α} (h : P a) : Yields P (Pure.pure a : Reader file α) := by
  rintro s p _ _ ⟨⟩
  exact h

theorem bind (h : ∀ a, Yields R (f a)) : Yields R (r >>= f) := by
  intro s p b q hbind
  obtain ⟨a, p', -, hrest⟩ := exists_of_bind hbind
  exact h a s p' b q hrest

theorem map {g : α → β} (hr : Yields P r) (hg : ∀ a, P a → R (g a)) :
    Yields R (r >>= fun a => Pure.pure (g a)) := by
  intro s p b q hbind
  obtain ⟨a, p', hread, hrest⟩ := exists_of_bind hbind
  cases hrest
  exact hg a (hr s p a _ hread)

theorem choice_nil : Yields P (choice [] : Reader file α) := by
  rintro s p _ _ ⟨⟩

theorem choice_cons {rs : List (Reader file α)} (hr : Yields P r) (hrs : Yields P (choice rs)) :
    Yields P (choice (r :: rs)) := by
  intro s p a q hread
  unfold choice Reader.orElse at hread
  split at hread
  · rename_i b p' hfirst
    cases hread
    exact hr s p a q hfirst
  · exact hrs s _ a q hread

theorem quotedHere {quoted : kind = .string → Quoted length?} {himport : kind ≠ .importStatement} :
    Yields (fun p => ∃ start stop, p.node = .leaf kind start stop ∧
      (Nonempty length? → start < stop)) (Syntax.quotedHere kind length? quoted himport :
        Reader file (Piece file)) := by
  intro s p a q hread
  unfold Syntax.quotedHere at hread
  split at hread
  · rename_i n hn
    cases hread
    exact ⟨_, _, rfl, fun hnonempty => p.pos_lt_advance (hnonempty _ _ hn)⟩
  · cases hread

theorem lexemeHere : Yields (fun p => ∃ start stop, p.node = .leaf kind start stop ∧
    (Nonempty length? → start < stop))
      (Syntax.lexemeHere kind length? hkind : Reader file (Piece file)) :=
  quotedHere

/-- A leaf plays no part. -/
theorem field_lexemeHere : Yields (·.node.field = none)
    (Syntax.lexemeHere kind length? hkind : Reader file (Piece file)) := by
  intro s p a q hread
  obtain ⟨start, stop, hleaf, -⟩ := lexemeHere s p a q hread
  rw [hleaf]
  rfl

theorem field_lexeme : Yields (·.node.field = none)
    (Syntax.lexeme kind length? hkind : Reader file (Piece file)) :=
  fun s p a q hread => field_lexemeHere s p.afterGap a q hread

theorem field_keyword {text : String} :
    Yields (·.node.field = none) (Syntax.keyword text : Reader file (Piece file)) := by
  intro s p a q hread
  obtain ⟨word, p', hword, hrest⟩ := exists_of_bind hread
  cases hrest
  unfold Syntax.spelled at hword
  dsimp only at hword
  split at hword
  · cases hword
    rfl
  · cases hword

/-- A leaf that is not empty is simple. -/
theorem simple_lexeme (hnonempty : Nonempty length?) (hcomment : kind ≠ .comment := by decide)
    (hholds : kind.holdsName = false := by rfl) : Yields (·.node.Simple)
      (Syntax.lexeme kind length? hkind : Reader file (Piece file)) := by
  intro s p a q hread
  obtain ⟨start, stop, hleaf, hlt⟩ := lexemeHere s p.afterGap a q hread
  rw [hleaf]
  exact Node.simple_leaf hcomment hholds (hlt hnonempty)

theorem simple_quotation {quoted : Quoted length?} :
    Yields (·.node.Simple) (Syntax.quotation length? quoted : Reader file (Piece file)) := by
  intro s p a q hread
  obtain ⟨start, stop, hleaf, hlt⟩ := quotedHere s p.afterGap a q hread
  rw [hleaf]
  exact Node.simple_leaf Kind.noConfusion rfl (hlt (nonempty_of_quoted quoted))

theorem simple_markUnless {text barred : String} (h : text.toList ≠ [] := by decide) :
    Yields (·.node.Simple) (Syntax.markUnless text barred : Reader file (Piece file)) :=
  simple_lexeme (fun _ _ hn => (take_of_markLength? hn).symm ▸ h) Kind.noConfusion

theorem field_node {fs : List (Fragment file)} :
    Yields (·.node.field = none) (Syntax.node kind fs hkind) :=
  .bind fun _ => .bind fun _ => .pure rfl

section All

variable {P : Piece file → Prop} {f : Fragment file} {fs : List (Fragment file)}

theorem all_one {r : Reader file (Piece file)} (hr : Yields P r) :
    Yields (fun ps => ∀ p ∈ ps, P p) (Fragment.one r) :=
  hr.map fun _ hp => List.forall_mem_singleton.2 hp

theorem all_nil : Yields (fun ps => ∀ p ∈ ps, P p) (seq [] : Fragment file) := .pure nofun

theorem all_cons (hf : Yields (fun ps => ∀ p ∈ ps, P p) f) (hfs : Yields (fun ps => ∀ p ∈ ps, P p) (seq fs)) :
    Yields (fun ps => ∀ p ∈ ps, P p) (seq (f :: fs)) := by
  intro s p ps q hread
  obtain ⟨front, p', hfirst, hrest⟩ := exists_of_bind hread
  obtain ⟨back, p'', hback, hpure⟩ := exists_of_bind hrest
  cases hpure
  exact List.forall_mem_append.2 ⟨hf s p front p' hfirst, hfs s p' back _ hback⟩

end All

end Yields

namespace Reads

variable {pre post : Level} {bare : Bool} {kind : Kind} {hkind : kind.isPlain = true}
  {length? : List Char → Option Nat} {test : String → Bool} {text barred : String} {field : Field}
  {r : Reader file (Piece file)}

theorem yields {P : α → Prop} {Q : Nat → α → Nat → Prop} {r : Reader file α} (h : Reads pre post Q r)
    (hP : Yields P r) : Reads pre post (fun k a k' => Q k a k' ∧ P a) r := fun s hs p a q hp hread =>
  (h s hs p a q hp hread).imp_right fun hQ => ⟨hQ, hP s p a q hread⟩

/-- A piece that plays no part, as a fragment. -/
theorem oneUnplayed (h : ReadsOne file pre post r) (hfield : Yields (·.node.field = none) r) :
    Reads pre post (Unplayed file field) (Fragment.one r) :=
  (h.yields hfield).map fun _ _ _ _ hp => .single hp.1 hp.2

/-- A simple piece, as a fragment. -/
theorem oneSimple (h : Reads pre post (fun k p k' => Sound file bare k [p] k' ∧ p.node.Simple) r) :
    Reads pre post (SoundName file bare) (Fragment.one r) :=
  h.map fun _ _ _ _ hp => ⟨hp.1, List.forall_mem_singleton.2 hp.2, List.cons_ne_nil _ _⟩

/-- A simple name, and whatever is behind it. -/
theorem seq_name {mid : Level} {fs : List (Fragment file)}
    (h : Reads pre mid (fun k p k' => Sound file false k [p] k' ∧ p.node.Simple) r)
    (hfs : ReadsAll file mid post (seq fs)) :
    Reads pre post (SoundNamed file) (seq (Fragment.part .name r :: fs)) := by
  have hname : Reads pre mid (fun k ps k' => ∃ p, ps = [p.as .name] ∧ Sound file false k [p] k' ∧
      p.node.Simple) (Fragment.part .name r) := h.map fun _ p _ _ hp => ⟨p, rfl, hp⟩
  refine hname.seq_consOf hfs ?_
  rintro k _ k' qs k'' ⟨p, rfl, hp, hsimple⟩ hqs
  exact hp.named_cons hsimple hqs

/-- A simple node with a name of its kind, and whatever is behind it. -/
theorem seq_property {mid : Level} {fs : List (Fragment file)}
    (h : Reads pre mid
      (fun k p k' => Sound file false k [p] k' ∧ p.node.isNamed = true ∧ p.node.Simple) r)
    (hfs : ReadsAll file mid post (seq fs)) :
    Reads pre post (SoundProperty file) (seq (Fragment.one r :: fs)) := by
  have hone : Reads pre mid (fun k ps k' => ∃ p, ps = [p] ∧ Sound file false k [p] k' ∧
      p.node.isNamed = true ∧ p.node.Simple) (Fragment.one r) := h.map fun _ p _ _ hp => ⟨p, rfl, hp⟩
  refine hone.seq_consOf hfs ?_
  rintro k _ k' qs k'' ⟨p, rfl, hp, hsimple⟩ hqs
  exact ⟨hp.cons hqs, p, qs, rfl, hsimple⟩

/-- A simple name by itself. -/
theorem partName (h : Reads pre post (fun k p k' => Sound file false k [p] k' ∧ p.node.Simple) r) :
    Reads pre post (SoundNamed file) (Fragment.part .name r) :=
  h.map fun _ _ k' _ hp => hp.1.named_cons hp.2 (.nil false k')

/-- A tag or an import over its pieces. -/
theorem nodeNamed {fs : List (Fragment file)} (h : Reads pre post (SoundNamed file) (seq fs))
    (hnamed : kind.isNamedSimply = true := by rfl) (htag : kind.isPairedTag = false := by rfl) :
    ReadsOne file pre post (Syntax.node kind fs hkind) :=
  nodeWith h fun _ _ _ _ hoffset hps => hps.spanning (fun _ => hoffset) hnamed htag

/-! ### Marks -/

theorem markUnless (h : freesBehind text.toList.reverse = true := by exact freesBehind_text rfl rfl) :
    ReadsOne file pre .free (Syntax.markUnless text barred) :=
  lexeme (leaves_mark barred h) (Eq.refl true)

theorem mark (h : freesBehind text.toList.reverse = true := by exact freesBehind_text rfl rfl) :
    ReadsOne file pre .free (Syntax.mark text) :=
  markUnless h

theorem markHere (h : freesBehind text.toList.reverse = true := by exact freesBehind_text rfl rfl) :
    ReadsOne file pre .free (Syntax.markHere text) :=
  leafHere_one (leaves_mark "" h) (Eq.refl true)

theorem sign (h : freesBehind text.toList.reverse = true := by exact freesBehind_text rfl rfl) :
    ReadsAll file pre .free (Syntax.sign text) :=
  (mark h).one

theorem equals : ReadsAll file pre .free Syntax.equals :=
  (markUnless (freesBehind_text rfl rfl)).one

/-- A single dot, behind which only a name without dots begins. -/
theorem dot : ReadsOne file pre .loose (Syntax.markUnless "." barred) :=
  lexeme (leaves_dot barred) (Eq.refl true)

/-! ### Words -/

theorem word (hordinary : kind.isOrdinary = true := by decide) :
    ReadsOne file pre .free (Syntax.lexeme kind (wordThat test) hkind) :=
  lexeme ((shuts_wordThat test).leaves _) hordinary

theorem name (hname : kind.isName = true := by decide) (hle : .loose ≤ pre := by decide) :
    ReadsOne file pre .free (Syntax.lexeme kind (wordThat test) hkind) :=
  ((nameLeaf (fun _ _ => word_of_wordThat) hname).mono hle (Nat.le_refl _)).imp fun _ _ _ _ h => h.sound

theorem spelled :
    Reads pre .free (fun k p k' => Sound file false k [p.1] k') (Syntax.spelled text : Reader file _) := by
  intro s hs p a q hp hread
  have hsame : Syntax.lexeme (.token text) (wordThat (· == text)) (Eq.refl true) s p = .ok a.1 q := by
    unfold Syntax.spelled at hread
    dsimp only at hread
    split at hread
    · rename_i n hn
      cases hread
      unfold Syntax.lexeme Syntax.lexemeHere Syntax.quotedHere
      split
      · rename_i m hm
        obtain rfl : n = m := Option.some.inj (hn.symm.trans hm)
        rfl
      · rename_i hnone
        cases hn.symm.trans hnone
    · cases hread
  have hword : ReadsOne file pre .free
      (Syntax.lexeme (.token text) (wordThat (· == text)) (Eq.refl true)) := word (Eq.refl true)
  exact hword s hs p a.1 q hp hsame

theorem keyword : ReadsOne file pre .free (Syntax.keyword text) := spelled.map fun _ _ _ _ h => h

theorem kw : ReadsAll file pre .free (Syntax.kw text) := keyword.one

theorem anyWord (hordinary : kind.isOrdinary = true := by decide) :
    ReadsOne file pre .free (Syntax.anyWord kind hkind) :=
  lexeme (Shuts.leaves (fun _ _ => shut_word) _) hordinary

theorem anyName (hname : kind.isName = true := by decide) (hle : .loose ≤ pre := by decide) :
    ReadsOne file pre .free (Syntax.anyWord kind hkind) :=
  ((nameLeaf (fun _ _ h => h) hname).mono hle (Nat.le_refl _)).imp fun _ _ _ _ h => h.sound

theorem freeWord (hordinary : kind.isOrdinary = true := by decide) :
    ReadsOne file pre .free (Syntax.freeWord kind hkind) :=
  word hordinary

theorem freeName (hname : kind.isName = true := by decide) (hle : .loose ≤ pre := by decide) :
    ReadsOne file pre .free (Syntax.freeWord kind hkind) :=
  name hname hle

theorem identifier (hle : .loose ≤ pre := by decide) : ReadsOne file pre .free Syntax.identifier :=
  freeName (Eq.refl true) hle

theorem identifierValue (hle : .loose ≤ pre := by decide) :
    ReadsOne file pre .free Syntax.identifierValue := by
  show Reads _ _ _ (Reader.orElse _ fun _ => Syntax.identifier)
  exact Reads.orElse (word rfl) (identifier hle)

/-! ### Values -/

theorem number : ReadsOne file pre .any Syntax.number := lexeme (leaves_any _) (Eq.refl true)

theorem regex : ReadsOne file pre .any Syntax.regex := lexeme (leaves_any _) (Eq.refl true)

theorem quotation {quoted : Quoted length?} (hleaves : Leaves .free length?) :
    ReadsOne file pre .free (Syntax.quotation length? quoted) := by
  have hhere : Reads pre .free (SoundLeaf file false length?)
      (Syntax.quotedHere .string length? (fun _ => quoted) Kind.noConfusion) :=
    quotedHere hleaves (.inl rfl) fun _ _ _ _ _ => Node.standsApart_of_isOrdinary (Eq.refl true)
  exact hhere.afterGap.imp fun _ _ _ _ h => h.sound

theorem string : ReadsOne file pre .free Syntax.string :=
  quotation (leaves_quote fun _ _ => take_of_stringLength?)

/-! ### Members -/

theorem memberPart {field : Field} {r : Reader file (Piece file)}
    (hr : Reads pre post (fun k p k' => Sound file false k [p] k' ∧ ShutAt file p.node.stop) r) :
    Reads pre post (Named file) (Fragment.part field r) := by
  refine hr.map fun _ p _ _ hp => ⟨hp.1.as field, nofun, fun q hq => ?_⟩
  cases hq
  exact hp.2

theorem memberTail {l : Level} {field : Field} {f : Fragment file} {r : Reader file (Piece file)}
    (hf : ReadsAll file pre l f)
    (hr : Reads l post (fun k p k' => Sound file false k [p] k' ∧ ShutAt file p.node.stop) r) :
    Reads pre post (Named file) (seq [f, Fragment.part field r]) := by
  have hlast : Reads l post (Named file) (seq [Fragment.part field r]) :=
    (memberPart hr).map fun _ ps _ _ h => (List.append_nil ps).symm ▸ h
  refine hf.bind fun k ps k' _ hps => hlast.map fun j qs j' _ hqs hj => ?_
  subst hj
  refine ⟨hps.append hqs.sound, List.append_ne_nil_of_right_ne_nil ps hqs.nonempty, ?_⟩
  have hshut := hqs.shut
  rw [List.getLast?_eq_some_getLast hqs.nonempty] at hshut
  rwa [List.getLast?_append, List.getLast?_eq_some_getLast hqs.nonempty]

theorem shutLeaf (h : Shuts length?) (hordinary : kind.isOrdinary = true := by decide) :
    Reads pre .free (fun k p k' => Sound file false k [p] k' ∧ ShutAt file p.node.stop)
      (Syntax.lexeme kind length? hkind) :=
  (leaf (h.leaves _) hordinary).imp fun _ _ _ _ hp => ⟨hp.sound, hp.shut h⟩

/-! ### Nodes put together -/

section Gathering

variable {γ : Type} {P : γ → Nat → Prop} {start : Nat} {before : List (Piece file)} {base : Piece file}
  {mid : Level}

/-- More pieces for a node, of which something is said. -/
theorem gatherOf {Q : Nat → List (Piece file) → Nat → Prop} (hQ : Adds Q) {f : Fragment file}
    {rest : List (Piece file) → Reader file γ} (hf : Reads pre mid Q f)
    (hrest : ∀ ps, Reads mid post (fun k x k' => Q start (before ++ ps) k → P x k') (rest ps)) :
    Reads pre post (fun k x k' => Q start before k → P x k') (f >>= rest) :=
  hf.bind fun _ ps _ _ hps => (hrest ps).imp fun _ _ _ _ hx hj hbefore =>
    hx (hQ.append hbefore (hj ▸ hps))

/-- More pieces for a node. -/
theorem gather {f : Fragment file} {rest : List (Piece file) → Reader file γ}
    (hf : ReadsAll file pre mid f)
    (hrest : ∀ ps, Reads mid post (fun k x k' => Sound file false start (before ++ ps) k → P x k')
      (rest ps)) :
    Reads pre post (fun k x k' => Sound file false start before k → P x k') (f >>= rest) :=
  gatherOf (adds_sound false) hf hrest

/-- One more piece for a node. -/
theorem gatherOne {r : Reader file (Piece file)} {rest : Piece file → Reader file γ}
    (hr : ReadsOne file pre mid r)
    (hrest : ∀ p, Reads mid post (fun k x k' => Sound file false start (before ++ [p]) k → P x k')
      (rest p)) :
    Reads pre post (fun k x k' => Sound file false start before k → P x k') (r >>= rest) :=
  hr.bind fun _ p _ _ hp => (hrest p).imp fun _ _ _ _ hx hj hbefore => hx (hbefore.append (hj ▸ hp))

/-- One more piece for a node, which plays a part there. -/
theorem gatherAs (field : Field) {r : Reader file (Piece file)} {rest : Piece file → Reader file γ}
    (hr : ReadsOne file pre mid r)
    (hrest : ∀ p, Reads mid post (fun k x k' => Sound file false start (before ++ [p.as field]) k →
      P x k') (rest p)) :
    Reads pre post (fun k x k' => Sound file false start before k → P x k') (r >>= rest) :=
  hr.bind fun _ p _ _ hp => (hrest p).imp fun _ _ _ _ hx hj hbefore =>
    hx (hbefore.append (hj ▸ hp.as field))

/-- One more piece for a node, which plays a part there, as a fragment of its own. -/
theorem gatherPart (field : Field) {r : Reader file (Piece file)} {rest : List (Piece file) → Reader file γ}
    (hr : ReadsOne file pre mid r)
    (hrest : ∀ p : Piece file, Reads mid post (fun k x k' =>
      Sound file false start (before ++ [p.as field]) k → P x k') (rest [p.as field])) :
    Reads pre post (fun k x k' => Sound file false start before k → P x k')
      (Fragment.part field r >>= rest) := by
  have hpart : Reads pre mid (fun k ps k' => ∃ p, ps = [p.as field] ∧ Sound file false k [p] k')
      (Fragment.part field r) := hr.map fun _ p _ _ hp => ⟨p, rfl, hp⟩
  refine hpart.bind ?_
  rintro k _ k' - ⟨p, rfl, hp⟩
  exact (hrest p).imp fun _ _ _ _ hx hj hbefore => hx (hbefore.append (hj ▸ hp.as field))

/-- The node over all pieces, which starts where they do. -/
theorem close {offset : Offset file} (hordinary : kind.isOrdinary = true)
    (hcolon : (kind == .jsxNamespaceName) = false)
    (hoffset : before = [] → offset.1 = start) :
    Reads pre pre (GoesOn file start before)
      (Pure.pure (Piece.spanning kind offset before hkind) : Reader file _) :=
  .pure fun _ hk => ⟨hk, fun hbefore => hbefore.whole hordinary hcolon hoffset⟩

/-- The node over all pieces, of which there is a first one. -/
theorem finish {p : Piece file} {ps : List (Piece file)} {offset : Offset file}
    (hordinary : kind.isOrdinary = true := by decide)
    (hcolon : (kind == .jsxNamespaceName) = false := by decide) :
    Reads pre pre (GoesOn file start (p :: ps))
      (Pure.pure (Piece.spanning kind offset (p :: ps) hkind) : Reader file _) :=
  close hordinary hcolon nofun

/-- A node that is put together from the place on where reading starts. -/
theorem gathered {g : Progress file → Reader file (Piece file)}
    (hg : ∀ b : Progress file, Reads pre post (GoesOn file b.pos []) (g b)) :
    ReadsOne file pre post (Reader.progress >>= g) :=
  .progress fun b _ => (hg b).imp fun _ _ _ _ hp hb => hb ▸ hp (hb ▸ .nil false _)

/-- The first pieces of a node are read here. -/
theorem gathering {Q : Nat → γ → Nat → Prop} {r : Reader file γ}
    (h : ∀ start, pre.At file start →
      Reads pre post (fun k x k' => Sound file false start [] k → Q start x k') r) :
    Reads pre post Q r := fun s hs p a q hp hread =>
  (h p.pos hp s hs p a q hp hread).imp_right fun hq => hq (.nil false _)

/-- A piece that does not go on. -/
theorem stay : Reads pre pre (GoesOn file start [base]) (Pure.pure base : Reader file _) :=
  .pure fun _ hk => ⟨hk, fun hbase => hbase⟩

/-- Pieces behind which nothing follows. -/
theorem keep : Reads pre pre (fun k ps k' => Sound file false start before k → Sound file false start ps k')
    (Pure.pure before : Fragment file) :=
  .pure fun _ hk => ⟨hk, fun hbefore => hbefore⟩

/-- The first pieces of a node are read behind others. -/
theorem behind {Q : Nat → γ → Nat → Prop} {f : Fragment file} {rest : List (Piece file) → Reader file γ}
    (hf : ReadsAll file pre mid f)
    (hrest : ∀ j ps k, Sound file false j ps k →
      Reads mid post (fun i x i' => Sound file false k [] i → Q j x i') (rest ps)) :
    Reads pre post Q (f >>= rest) :=
  hf.bind fun _ ps _ _ hps => (hrest _ ps _ hps).imp fun _ _ _ _ hx hi => hx (hi ▸ .nil false _)

/-- What goes on with some pieces goes on with pieces that they make up. -/
theorem goesFrom {l : Level} {j : Nat} {after : List (Piece file)} {r : Reader file γ}
    (h : Reads pre l (fun k x k' => Sound file false j after k → P x k') r)
    (hafter : ∀ k, Sound file false start before k → Sound file false j after k) :
    Reads pre l (fun k x k' => Sound file false start before k → P x k') r :=
  h.imp fun _ _ _ _ hx hbefore => hx (hafter _ hbefore)

/-- An access to a member of what begins where a name may begin. -/
theorem closeMember {f : Fragment file} {offset : Offset file} (hstart : Level.free.At file start)
    (hf : Reads pre post (Named file) f) :
    Reads pre post (GoesOn file start before)
      (f >>= fun tail => Pure.pure (Piece.spanning .memberExpression offset (before ++ tail))) :=
  hf.map fun _ _ _ _ htail hbefore => hbefore.access hstart htail

theorem goesOnMember {f : Fragment file} (hstart : Level.free.At file start)
    (hf : Reads pre post (Named file) f) :
    Reads pre post (GoesOn file start [base])
      (f >>= fun tail => Pure.pure (Piece.spanning .memberExpression base.start (base.as .object :: tail))) :=
  goesFrom (closeMember hstart hf) fun _ hbase => hbase.as .object

/-- A step that goes on with a piece. -/
theorem goesOn {g : Piece file → Piece file} {f : Fragment file} {offset : Offset file} (hf : ReadsAll file pre post f)
    (hg : ∀ k p k', Sound file false k [p] k' → Sound file false k [g p] k' := by
      first | exact fun _ _ _ h => h.as _ | exact fun _ _ _ h => h)
    (hordinary : kind.isOrdinary = true := by decide)
    (hcolon : (kind == .jsxNamespaceName) = false := by decide) :
    Reads pre post (GoesOn file start [base])
      (f >>= fun tail => Pure.pure (Piece.spanning kind offset (g base :: tail) hkind)) :=
  hf.map fun _ _ _ _ htail hbase => (hg _ _ _ hbase).spanning_cons htail hordinary hcolon _

/-- A piece that may go on in a node of its own. -/
theorem mayGoOn {f : Fragment file} {g : Piece file → Piece file} {offset : Offset file}
    (hf : ReadsAll file pre post f)
    (hg : ∀ k p k', Sound file false k [p] k' → Sound file false k [g p] k' := by
      first | exact fun _ _ _ h => h.as _ | exact fun _ _ _ h => h)
    (hordinary : kind.isOrdinary = true := by decide)
    (hcolon : (kind == .jsxNamespaceName) = false := by decide) :
    Reads pre post (GoesOn file start [base]) (f >>= fun more =>
      if more.isEmpty then Pure.pure base
      else Pure.pure (Piece.spanning kind offset (g base :: more) hkind)) := by
  refine hf.bind fun k more k' _ hmore => ?_
  split
  · rename_i hnone
    have hsame := hmore.empty (List.isEmpty_iff.1 hnone)
    exact .pure fun j hj => ⟨hj, fun hjk hbase => (hjk.trans hsame).symm ▸ hbase⟩
  · exact .pure fun j hj => ⟨hj, fun hjk hbase =>
      hjk ▸ (hg _ _ _ hbase).spanning_cons hmore hordinary hcolon _⟩

/-- A piece that goes on as often as it can, and what follows. -/
theorem extendThen {step : Piece file → Reader file (Piece file)} {rest : Piece file → Reader file γ}
    (hstep : ∀ base, Reads pre pre (GoesOn file start [base]) (step base))
    (hrest : ∀ whole, Reads pre post (fun k x k' => Sound file false start [whole] k → P x k')
      (rest whole)) (base : Piece file) :
    Reads pre post (fun k x k' => Sound file false start [base] k → P x k')
      (Reader.extend step base >>= rest) :=
  (Reads.extend (I := fun k p => Sound file false start [p] k) hstep base).bind fun _ whole _ _ hwhole =>
    (hrest whole).imp fun _ _ _ _ hx hj hbase => hx (hj ▸ hwhole hbase)

/-- A piece that goes on as often as it can. -/
theorem extendOn {step : Piece file → Reader file (Piece file)}
    (hstep : ∀ base, Reads pre pre (GoesOn file start [base]) (step base)) (base : Piece file) :
    Reads pre pre (GoesOn file start [base]) (Reader.extend step base) :=
  Reads.extend (I := fun k p => Sound file false start [p] k) hstep base

end Gathering

/-- A piece and what goes on with it. -/
theorem extended {l : Level} {r : Reader file (Piece file)} {step : Piece file → Reader file (Piece file)}
    (hr : ReadsOne file .free l r)
    (hstep : ∀ start, Level.free.At file start → ∀ base,
      Reads l l (GoesOn file start [base]) (step base)) :
    ReadsOne file .free l (r >>= fun base => Reader.extend step base) :=
  .gathering fun start hstart => .gatherOne hr fun base => .extendOn (hstep start hstart) base

/-- A piece and what may follow it in a node of its own. -/
theorem followed {l : Level} {r : Reader file (Piece file)} {f : Fragment file}
    {g : Piece file → Piece file} (hr : ReadsOne file pre l r) (hf : ReadsAll file l post f)
    (hg : ∀ k p k', Sound file false k [p] k' → Sound file false k [g p] k' := by
      first | exact fun _ _ _ h => h.as _ | exact fun _ _ _ h => h)
    (hordinary : kind.isOrdinary = true := by decide)
    (hcolon : (kind == .jsxNamespaceName) = false := by decide) :
    ReadsOne file pre post (r >>= fun p => f >>= fun more =>
      if more.isEmpty then Pure.pure p else Pure.pure (Piece.spanning kind p.start (g p :: more) hkind)) :=
  .gathering fun _ _ => .gatherOne hr fun _ => .mayGoOn hf hg hordinary hcolon

/-! ### Ends of statements -/

theorem statementEnd {context : EndContext} :
    ReadsAll file pre .free (Syntax.statementEnd context) := by
  intro s hs p ps q hp hread
  have heq : (if s.dialect.insertsEndPast context (p.rest.length + 1) p then
      (Pure.pure [] : Fragment file) else Syntax.sign ";") s p = .ok ps q := hread
  split at heq
  · rename_i hend
    cases heq
    exact ⟨(shutAt_of_insertsEndPast hend).level, .nil false _⟩
  · exact sign (freesBehind_text rfl rfl) s hs p ps q hp heq

theorem optionalStatementEnd : ReadsAll file .free .free Syntax.optionalStatementEnd :=
  statementEnd.opt

end Reads

end WebMigration.Syntax
