import WebMigration.Proofs.Style.Merging

/-!
# How a style sheet is read

A style sheet is a list of lexemes: comments, and characters outside of comments.  Its parts follow a
grammar over the lexemes.  Every sheet has exactly one reading in the grammar, and `parts` finds it.
-/

namespace WebMigration.Style

/-! ### Lexemes -/

/-- A comment with its marks, or a character outside of comments. -/
inductive Lexeme
  | comment (text : List Char)
  | char (c : Char)
  deriving DecidableEq, Repr

namespace Lexeme

/-- The characters of a lexeme. -/
def text : Lexeme → List Char
  | .comment text => text
  | .char c => [c]

@[simp] theorem text_comment (t : List Char) : (comment t).text = t := rfl

@[simp] theorem text_char (c : Char) : (char c).text = [c] := rfl

/-- The lexeme is a comment. -/
def IsComment (l : Lexeme) : Prop := ∃ t, l = .comment t

instance : DecidablePred IsComment
  | .comment t => isTrue ⟨t, rfl⟩
  | .char _ => isFalse nofun

/-- The text is a comment that ends with the first end in it. -/
def Closed (t : List Char) : Prop := ∃ body, t = '/' :: '*' :: body ∧ afterComment? body = some []

/-- The text is a comment without an end. -/
def Unclosed (t : List Char) : Prop := ∃ body, t = '/' :: '*' :: body ∧ afterComment? body = none

/-- The lexeme is read as it stands in front of the others. -/
def Fits : Lexeme → List Lexeme → Prop
  | .comment t, ls => Closed t ∨ Unclosed t ∧ ls = []
  | .char c, ls => c = '/' → ls.head? ≠ some (.char '*')

/-- Whatever follows the lexeme, it is read as it stands. -/
def Ends : Lexeme → Prop
  | .comment t => Closed t
  | .char c => c ≠ '/'

theorem Ends.fits {l : Lexeme} (h : l.Ends) (ls : List Lexeme) : l.Fits ls := by
  cases l with
  | comment t => exact .inl h
  | char c => exact fun hc => absurd hc h

end Lexeme

open Lexeme (text)

/-- The lexemes of characters; `held` is the comment that has begun, in reverse. -/
def lexemesFrom : Option (List Char) → List Char → List Lexeme
  | none, [] => []
  | none, '/' :: '*' :: cs => lexemesFrom (some ['*', '/']) cs
  | none, c :: cs => .char c :: lexemesFrom none cs
  | some held, [] => [.comment held.reverse]
  | some held, '*' :: '/' :: cs => .comment ('/' :: '*' :: held).reverse :: lexemesFrom none cs
  | some held, c :: cs => lexemesFrom (some (c :: held)) cs

/-- The lexemes of a style sheet. -/
def lexemes (css : List Char) : List Lexeme := lexemesFrom none css

/-- Every lexeme is read as it stands in front of those after it. -/
inductive Lexed : List Lexeme → Prop
  | nil : Lexed []
  | cons {l ls} : l.Fits ls → Lexed ls → Lexed (l :: ls)

section Lexing

variable {body rest held cs : List Char} {c : Char} {l : Lexeme} {ls ms : List Lexeme}

/-! ### Ends of comments -/

/-- The first end of a comment, in front of what follows it. -/
theorem exists_of_afterComment? (h : afterComment? cs = some rest) :
    ∃ body, cs = body ++ rest ∧ afterComment? body = some [] := by
  fun_induction afterComment? cs with
  | case1 cs =>
    obtain rfl := Option.some.inj h
    exact ⟨['*', '/'], rfl, rfl⟩
  | case2 c cs hend ih =>
    obtain ⟨body, rfl, hbody⟩ := ih h
    refine ⟨c :: body, rfl, ?_⟩
    rw [afterComment?.eq_2 _ _ ?_]
    · exact hbody
    · rintro more rfl rfl
      exact hend _ rfl rfl
  | case3 => cases h

theorem afterComment?_append (h : afterComment? body = some []) (rest : List Char) :
    afterComment? (body ++ rest) = some rest := by
  fun_induction afterComment? body with
  | case1 cs =>
    obtain rfl := Option.some.inj h
    rfl
  | case2 c cs hend ih =>
    rw [List.cons_append, afterComment?.eq_2 _ _ ?_, ih h]
    rintro more rfl hcs
    cases cs with
    | nil => cases h
    | cons d cs => exact hend cs rfl (by rw [(List.cons.inj hcs).1])
  | case3 => cases h

/-- A comment that is closed ends with the mark of the end. -/
theorem ends_of_afterComment? (h : afterComment? body = some []) :
    ∃ front, body = front ++ ['*', '/'] := by
  fun_induction afterComment? body with
  | case1 cs =>
    obtain rfl := Option.some.inj h
    exact ⟨[], rfl⟩
  | case2 c cs hend ih =>
    obtain ⟨front, rfl⟩ := ih h
    exact ⟨c :: front, rfl⟩
  | case3 => cases h

/-! ### Reading lexemes -/

theorem lexemesFrom_char (h : c = '/' → cs.head? ≠ some '*') :
    lexemesFrom none (c :: cs) = .char c :: lexemesFrom none cs := by
  rw [lexemesFrom]
  rintro more rfl rfl
  exact h rfl rfl

theorem lexemesFrom_closed (h : afterComment? body = some []) (held rest : List Char) :
    lexemesFrom (some held) (body ++ rest) =
      .comment (held.reverse ++ body) :: lexemesFrom none rest := by
  fun_induction afterComment? body generalizing held with
  | case1 cs =>
    obtain rfl := Option.some.inj h
    simp [lexemesFrom]
  | case2 c cs hend ih =>
    rw [List.cons_append, lexemesFrom, ih h]
    · simp
    · rintro more rfl hcs
      cases cs with
      | nil => cases h
      | cons d cs => exact hend cs rfl (by rw [(List.cons.inj hcs).1])
  | case3 => cases h

theorem lexemesFrom_unclosed (h : afterComment? body = none) (held : List Char) :
    lexemesFrom (some held) body = [.comment (held.reverse ++ body)] := by
  fun_induction afterComment? body generalizing held with
  | case1 => cases h
  | case2 c cs hend ih =>
    rw [lexemesFrom, ih h]
    · simp
    · exact fun more hc hcs => hend more hc hcs
  | case3 => simp [lexemesFrom]

/-- Characters begin with one outside of comments, with a comment that is closed, or with one that is
not. -/
theorem lexing_cases (cs : List Char) :
    cs = [] ∨ (∃ c rest, cs = c :: rest ∧ (c = '/' → rest.head? ≠ some '*')) ∨
      (∃ t rest, cs = t ++ rest ∧ Lexeme.Closed t) ∨ Lexeme.Unclosed cs := by
  cases cs with
  | nil => exact .inl rfl
  | cons c cs =>
    by_cases hopen : c = '/' ∧ cs.head? = some '*'
    · obtain ⟨rfl, hcs⟩ := hopen
      obtain ⟨cs, rfl⟩ := List.head?_eq_some_iff.1 hcs
      cases hend : afterComment? cs with
      | none => exact .inr (.inr (.inr ⟨cs, rfl, hend⟩))
      | some rest =>
        obtain ⟨body, rfl, hbody⟩ := exists_of_afterComment? hend
        exact .inr (.inr (.inl ⟨'/' :: '*' :: body, rest, rfl, body, rfl, hbody⟩))
    · exact .inr (.inl ⟨c, cs, rfl, fun hc hcs => hopen ⟨hc, hcs⟩⟩)

theorem Lexed.head? (h : Lexed ls) (hc : (ls.flatMap text).head? = some c) (hslash : c ≠ '/') :
    ls.head? = some (.char c) := by
  cases h with
  | nil => cases hc
  | @cons l ls hfits hls =>
    cases l with
    | char d => exact congrArg (some ∘ Lexeme.char) (Option.some.inj hc)
    | comment t =>
      rcases hfits with ⟨body, rfl, -⟩ | ⟨⟨body, rfl, -⟩, -⟩ <;>
        exact absurd (Option.some.inj hc).symm hslash

/-- Lexemes that fit are read back. -/
theorem Lexed.lexemes_eq (h : Lexed ls) : lexemes (ls.flatMap text) = ls := by
  unfold lexemes
  induction h with
  | nil => rfl
  | @cons l ls hfits hls ih =>
    rw [List.flatMap_cons]
    cases l with
    | char c =>
      have hopen : c = '/' → (ls.flatMap text).head? ≠ some '*' :=
        fun hc hstar => hfits hc (hls.head? hstar (by decide))
      exact (lexemesFrom_char hopen).trans (congrArg _ ih)
    | comment t =>
      rcases hfits with ⟨body, rfl, hbody⟩ | ⟨⟨body, rfl, hbody⟩, rfl⟩
      · exact (lexemesFrom_closed hbody ['*', '/'] _).trans (congrArg _ ih)
      · rw [List.flatMap_nil, List.append_nil]
        exact lexemesFrom_unclosed hbody ['*', '/']

/-- All characters are those of lexemes that fit. -/
theorem exists_lexed (cs : List Char) : ∃ ls, Lexed ls ∧ ls.flatMap text = cs := by
  induction hn : cs.length using Nat.strongRecOn generalizing cs with
  | ind n ih =>
  subst hn
  rcases lexing_cases cs with rfl | ⟨c, rest, rfl, hopen⟩ | ⟨t, rest, rfl, hclosed⟩ | hunclosed
  · exact ⟨[], .nil, rfl⟩
  · obtain ⟨ls, hls, rfl⟩ := ih _ (Nat.lt_succ_self _) rest rfl
    refine ⟨.char c :: ls, .cons (fun hc hstar => hopen hc ?_) hls, rfl⟩
    obtain ⟨ls, rfl⟩ := List.head?_eq_some_iff.1 hstar
    rfl
  · have hshorter : rest.length < (t ++ rest).length := by
      obtain ⟨body, rfl, -⟩ := hclosed
      simp only [List.length_append, List.length_cons]
      omega
    obtain ⟨ls, hls, rfl⟩ := ih _ hshorter rest rfl
    exact ⟨.comment t :: ls, .cons (.inl hclosed) hls, rfl⟩
  · exact ⟨[.comment cs], .cons (.inr ⟨hunclosed, rfl⟩) .nil, List.append_nil cs⟩

theorem lexed_lexemes (cs : List Char) : Lexed (lexemes cs) := by
  obtain ⟨ls, hls, rfl⟩ := exists_lexed cs
  exact hls.lexemes_eq.symm ▸ hls

theorem flatMap_text_lexemes (cs : List Char) : (lexemes cs).flatMap text = cs := by
  obtain ⟨ls, hls, rfl⟩ := exists_lexed cs
  rw [hls.lexemes_eq]

/-! ### Lexemes in front of others -/

theorem forall_getLast?_append {P : Lexeme → Prop} (h : ∀ l ∈ ls.getLast?, P l)
    (h' : ∀ l ∈ ms.getLast?, P l) : ∀ l ∈ (ls ++ ms).getLast?, P l := by
  intro l hl
  rw [List.getLast?_append, Option.mem_def, Option.or_eq_some_iff] at hl
  exact hl.elim (h' l) fun hl => h l hl.2

namespace Lexed

theorem right (h : Lexed (ls ++ ms)) : Lexed ms := by
  induction ls with
  | nil => exact h
  | cons l ls ih =>
    cases h with
    | cons _ h => exact ih h

theorem left (h : Lexed (ls ++ ms)) : Lexed ls := by
  induction ls with
  | nil => exact .nil
  | cons l ls ih =>
    cases h with
    | cons hfits h =>
      refine .cons ?_ (ih h)
      cases l with
      | comment t => exact hfits.imp_right fun h => ⟨h.1, (List.append_eq_nil_iff.1 h.2).1⟩
      | char c =>
        intro hc hstar
        obtain ⟨ls, rfl⟩ := List.head?_eq_some_iff.1 hstar
        exact hfits hc rfl

/-- Only the last comment may have no end. -/
theorem closed (h : Lexed (ls ++ ms)) (hms : ms ≠ []) {t : List Char} (ht : .comment t ∈ ls) :
    Lexeme.Closed t := by
  induction ls with
  | nil => cases ht
  | cons l ls ih =>
    cases h with
    | cons hfits h =>
      rcases List.mem_cons.1 ht with rfl | ht
      · exact hfits.resolve_right fun h => hms (List.append_eq_nil_iff.1 h.2).2
      · exact ih h ht

/-- Lexemes may follow others after a lexeme that anything may follow. -/
theorem append (hls : Lexed ls) (hms : Lexed ms) (h : ∀ l ∈ ls.getLast?, l.Ends) :
    Lexed (ls ++ ms) := by
  induction hls with
  | nil => exact hms
  | @cons l ls hfits _ ih =>
    cases ls with
    | nil => exact .cons ((h l rfl).fits ms) hms
    | cons m ls =>
      refine .cons ?_ (ih h)
      cases l with
      | comment t => exact hfits.imp_right fun h => nomatch h.2
      | char c => exact hfits

end Lexed

end Lexing

/-! ### The grammar -/

section Grammar

/-- Lexemes outside of blocks: no brace opens, and no statement ends. -/
def Plain (ls : List Lexeme) : Prop := ∀ l ∈ ls, l ≠ .char '\x7b' ∧ l ≠ .char ';'

/-- How many more braces open than close. -/
def height (ls : List Lexeme) : Int :=
  (ls.count (.char '\x7b') : Int) - (ls.count (.char '\x7d') : Int)

/-- Lexemes that begin with a brace, after which a brace is always open. -/
structure IsOpen (b : List Lexeme) : Prop where
  head : b.head? = some (.char '\x7b')
  pos : ∀ inner, inner <+: b → inner ≠ [] → 0 < height inner

/-- Lexemes from a brace to the one that closes it. -/
structure IsBlock (b : List Lexeme) : Prop where
  head : b.head? = some (.char '\x7b')
  closed : height b = 0
  pos : ∀ inner, inner <+: b → inner ≠ [] → inner ≠ b → 0 < height inner

/-- The lexemes of a style sheet and its parts.  A statement ends with the first semicolon outside of
blocks, a rule with the brace that closes its block, and what is left has neither. -/
inductive Sheet : List Lexeme → List Part → Prop
  | rest {p b} : Plain p → b = [] ∨ IsOpen b → Sheet (p ++ b) [.rest ((p ++ b).flatMap text)]
  | statement {p ls parts} : Plain p → Sheet ls parts →
      Sheet (p ++ Lexeme.char ';' :: ls) (.statement ((p ++ [Lexeme.char ';']).flatMap text) :: parts)
  | rule {p b ls parts} : Plain p → IsBlock b → Sheet ls parts →
      Sheet (p ++ (b ++ ls)) (.rule (p.flatMap text) (b.flatMap text) :: parts)

variable {p p' t t' b b' ls ms : List Lexeme} {l : Lexeme} {c : Char} {ps ps' : List Part}

theorem height_append (ls ms : List Lexeme) : height (ls ++ ms) = height ls + height ms := by
  unfold height
  rw [List.count_append, List.count_append]
  omega

theorem height_other (h : l ≠ .char '\x7b') (h' : l ≠ .char '\x7d') : height [l] = 0 := by
  unfold height
  rw [List.count_eq_zero.2 (by simpa using h.symm), List.count_eq_zero.2 (by simpa using h'.symm)]
  rfl

theorem Plain.append (hp : Plain p) (hl : l ≠ .char '\x7b') (hl' : l ≠ .char ';') :
    Plain (p ++ [l]) := by
  intro m hm
  rcases List.mem_append.1 hm with hm | hm
  · exact hp m hm
  · exact List.mem_singleton.1 hm ▸ ⟨hl, hl'⟩

theorem IsOpen.ne_nil (h : IsOpen b) : b ≠ [] := by
  rintro rfl
  cases h.head

theorem IsOpen.height_pos (h : IsOpen b) : 0 < height b := h.pos b List.prefix_rfl h.ne_nil

theorem IsBlock.ne_nil (h : IsBlock b) : b ≠ [] := by
  rintro rfl
  cases h.head

theorem isOpen_brace : IsOpen [.char '\x7b'] := by
  refine ⟨rfl, fun inner hinner hne => ?_⟩
  have hinner : inner <+: [] ++ [.char '\x7b'] := hinner
  rcases List.prefix_concat_iff.1 hinner with rfl | hinner
  · decide
  · exact absurd (List.prefix_nil.1 hinner) hne

theorem IsOpen.append (h : IsOpen b) (hl : 0 < height (b ++ [l])) : IsOpen (b ++ [l]) := by
  refine ⟨?_, fun inner hinner hne => ?_⟩
  · rw [List.head?_append, h.head]
    rfl
  · rcases List.prefix_concat_iff.1 hinner with rfl | hinner
    · exact hl
    · exact h.pos inner hinner hne

theorem IsOpen.block (h : IsOpen b) (hl : height (b ++ [l]) = 0) : IsBlock (b ++ [l]) := by
  refine ⟨?_, hl, fun inner hinner hne hall => ?_⟩
  · rw [List.head?_append, h.head]
    rfl
  · exact h.pos inner ((List.prefix_concat_iff.1 hinner).resolve_left hall) hne

/-- A block ends with a brace. -/
theorem IsBlock.exists_concat (h : IsBlock b) : ∃ front, b = front ++ [.char '\x7d'] := by
  obtain ⟨front, l, rfl⟩ := (List.eq_nil_or_concat b).resolve_left h.ne_nil
  rw [List.concat_eq_append] at h ⊢
  have hclosed : height front + height [l] = 0 := height_append front [l] ▸ h.closed
  by_cases hbrace : l = .char '\x7d'
  · exact ⟨front, hbrace ▸ rfl⟩
  exfalso
  have hl : 0 ≤ height [l] := by
    by_cases hopen : l = .char '\x7b'
    · rw [hopen]
      decide
    · exact Int.le_of_eq (height_other hopen hbrace).symm
  cases front with
  | nil =>
    obtain rfl := Option.some.inj h.head
    cases hclosed
  | cons m front =>
    have hpos := h.pos (m :: front) (List.prefix_append _ _) nofun fun heq => by
      simpa using congrArg List.length heq
    omega

theorem ends_of_concat (hc : c ≠ '/') (p : List Lexeme) :
    ∀ l ∈ (p ++ [Lexeme.char c]).getLast?, l.Ends := by
  intro l hl
  rw [List.getLast?_concat] at hl
  obtain rfl := Option.some.inj hl
  exact hc

theorem IsBlock.ends (h : IsBlock b) (p : List Lexeme) : ∀ l ∈ (p ++ b).getLast?, l.Ends := by
  obtain ⟨front, rfl⟩ := h.exists_concat
  rw [← List.append_assoc]
  exact ends_of_concat (show '\x7d' ≠ '/' by decide) _

/-- No block goes on where a brace is always open. -/
theorem IsOpen.not_block (h : IsOpen (b ++ ls)) : ¬ IsBlock b := fun hb =>
  absurd hb.closed (Int.ne_of_gt (h.pos b (List.prefix_append b ls) hb.ne_nil))

/-- A block ends with the first brace that closes it. -/
theorem IsBlock.eq_of_prefix (h : IsBlock b) (h' : IsBlock b') (hpre : b <+: b') : b = b' := by
  by_contra hne
  exact absurd h.closed (Int.ne_of_gt (h'.pos b hpre h.ne_nil hne))

/-- A brace opens, or a statement ends. -/
def Stops (t : List Lexeme) : Prop := ∀ l ∈ t.head?, l = .char '\x7b' ∨ l = .char ';'

theorem stops_of_head? (h : t.head? = some (.char '\x7b')) : Stops t :=
  fun _ hl => .inl (Option.some.inj (hl.symm.trans h))

theorem Plain.append_inj (hp : Plain p) (hp' : Plain p') (ht : Stops t) (ht' : Stops t')
    (h : p ++ t = p' ++ t') : p = p' ∧ t = t' := by
  induction p generalizing p' with
  | nil =>
    cases p' with
    | nil => exact ⟨rfl, h⟩
    | cons m p' =>
      obtain rfl : t = m :: (p' ++ t') := h
      exact absurd (ht m rfl) (not_or.2 (hp' m List.mem_cons_self))
  | cons l p ih =>
    cases p' with
    | nil =>
      obtain rfl : l :: (p ++ t) = t' := h
      exact absurd (ht' l rfl) (not_or.2 (hp l List.mem_cons_self))
    | cons m p' =>
      obtain ⟨rfl, hrest⟩ := List.cons.inj h
      obtain ⟨rfl, rfl⟩ := ih (fun l hl => hp l (.tail _ hl)) (fun l hl => hp' l (.tail _ hl)) hrest
      exact ⟨rfl, rfl⟩

theorem stops_rest (h : b = [] ∨ IsOpen b) : Stops b := by
  rcases h with rfl | h
  · exact nofun
  · exact stops_of_head? h.head

theorem stops_statement (ls : List Lexeme) : Stops (.char ';' :: ls) :=
  fun _ hl => .inr (Option.some.inj hl).symm

theorem IsBlock.stops (h : IsBlock b) (ls : List Lexeme) : Stops (b ++ ls) :=
  stops_of_head? (by rw [List.head?_append, h.head]; rfl)

theorem IsBlock.ne_statement (h : IsBlock b) {ls ms : List Lexeme} :
    b ++ ls ≠ .char ';' :: ms := by
  intro heq
  have hhead : (b ++ ls).head? = some (.char '\x7b') := by rw [List.head?_append, h.head]; rfl
  rw [heq] at hhead
  cases hhead

/-- The rest of a style sheet does not go on with the end of a statement. -/
theorem rest_ne_statement (h : b = [] ∨ IsOpen b) : b ≠ .char ';' :: ms := by
  rintro rfl
  rcases h with h | h
  · cases h
  · cases h.head

/-- Nor with a block. -/
theorem rest_ne_block (h : b = [] ∨ IsOpen b) (hblock : IsBlock b') : b ≠ b' ++ ms := by
  rintro rfl
  rcases h with h | h
  · exact hblock.ne_nil (List.append_eq_nil_iff.1 h).1
  · exact h.not_block hblock

/-- Two blocks that the same lexemes begin with are the same. -/
theorem IsBlock.append_inj (h : IsBlock b) (h' : IsBlock b') (heq : b ++ ls = b' ++ ms) :
    b = b' ∧ ls = ms := by
  obtain rfl : b = b' := by
    rcases List.prefix_or_prefix_of_prefix (List.prefix_append b ls)
        (heq ▸ List.prefix_append b' ms) with hpre | hpre
    · exact h.eq_of_prefix h' hpre
    · exact (h'.eq_of_prefix h hpre).symm
  exact ⟨rfl, List.append_cancel_left heq⟩

/-- **The grammar reads a style sheet in one way only.** -/
theorem Sheet.unique (h : Sheet ls ps) (h' : Sheet ls ps') : ps = ps' := by
  -- What is plain in front ends at the same place in both readings, and what stands there decides.
  induction h generalizing ps' with
  | @rest p b hp hb =>
    generalize hls : p ++ b = ls at h' ⊢
    cases h' with
    | rest => rfl
    | statement hp' =>
      obtain ⟨-, htail⟩ := hp.append_inj hp' (stops_rest hb) (stops_statement _) hls
      exact absurd htail (rest_ne_statement hb)
    | rule hp' hb' =>
      obtain ⟨-, htail⟩ := hp.append_inj hp' (stops_rest hb) (hb'.stops _) hls
      exact absurd htail (rest_ne_block hb hb')
  | @statement p ms parts hp _ ih =>
    generalize hls : p ++ .char ';' :: ms = ls at h'
    cases h' with
    | rest hp' hb =>
      obtain ⟨-, htail⟩ := hp.append_inj hp' (stops_statement _) (stops_rest hb) hls
      exact absurd htail.symm (rest_ne_statement hb)
    | statement hp' hms =>
      obtain ⟨rfl, htail⟩ := hp.append_inj hp' (stops_statement _) (stops_statement _) hls
      obtain ⟨-, rfl⟩ := List.cons.inj htail
      rw [ih hms]
    | rule hp' hb' =>
      obtain ⟨-, htail⟩ := hp.append_inj hp' (stops_statement _) (hb'.stops _) hls
      exact absurd htail.symm hb'.ne_statement
  | @rule p b ms parts hp hblock _ ih =>
    generalize hls : p ++ (b ++ ms) = ls at h'
    cases h' with
    | rest hp' hb =>
      obtain ⟨-, htail⟩ := hp.append_inj hp' (hblock.stops _) (stops_rest hb) hls
      exact absurd htail.symm (rest_ne_block hb hblock)
    | statement hp' =>
      obtain ⟨-, htail⟩ := hp.append_inj hp' (hblock.stops _) (stops_statement _) hls
      exact absurd htail hblock.ne_statement
    | rule hp' hblock' hms' =>
      obtain ⟨rfl, htail⟩ := hp.append_inj hp' (hblock.stops _) (hblock'.stops _) hls
      obtain ⟨rfl, rfl⟩ := hblock.append_inj hblock' htail
      rw [ih hms']

end Grammar

/-! ### The reading of the scan -/

section Scan

variable {r : Reading} {p b ls : List Lexeme} {l : Lexeme} {body rest cs : List Char} {c : Char}

/-- A character outside of comments, which does not open one. -/
theorem partsFrom_char (r : Reading) (h : c = '/' → cs.head? ≠ some '*') :
    partsFrom false r (c :: cs) =
      if c == '\x7b' then partsFrom false r.opened cs
      else if c == '\x7d' && r.depth == 1 then
        .rule r.prelude.reverse ('\x7d' :: r.block).reverse :: partsFrom false {} cs
      else if c == '\x7d' && 1 < r.depth then
        partsFrom false { r with block := '\x7d' :: r.block, depth := r.depth - 1 } cs
      else if c == ';' && r.depth == 0 then
        .statement (';' :: r.prelude).reverse :: partsFrom false {} cs
      else partsFrom false (r.take c) cs := by
  rw [partsFrom.eq_def]
  split
  · contradiction
  · rename_i heq
    obtain ⟨rfl, rfl⟩ := List.cons.inj heq
    rfl
  · rename_i heq
    obtain ⟨rfl, rfl⟩ := List.cons.inj heq
    exact absurd rfl (h rfl)
  · rename_i heq
    obtain ⟨rfl, rfl⟩ := List.cons.inj heq
    rfl

namespace Reading

/-- Takes characters into the part. -/
def takeAll (r : Reading) (cs : List Char) : Reading := cs.foldl take r

theorem takeAll_outside (h : r.depth = 0) (cs : List Char) :
    r.takeAll cs = { r with prelude := cs.reverse ++ r.prelude } := by
  induction cs generalizing r with
  | nil => rfl
  | cons c cs ih =>
    have htake : r.take c = { r with prelude := c :: r.prelude } := by
      rw [Reading.take, h]
      rfl
    have hrest := ih (r := { r with prelude := c :: r.prelude }) h
    rw [takeAll] at hrest
    rw [takeAll, List.foldl_cons, htake, hrest, List.reverse_cons, List.append_assoc]
    rfl

theorem takeAll_inside (h : r.depth ≠ 0) (cs : List Char) :
    r.takeAll cs = { r with block := cs.reverse ++ r.block } := by
  induction cs generalizing r with
  | nil => rfl
  | cons c cs ih =>
    have htake : r.take c = { r with block := c :: r.block } := by
      rw [Reading.take, if_neg (by simpa using h)]
    have hrest := ih (r := { r with block := c :: r.block }) h
    rw [takeAll] at hrest
    rw [takeAll, List.foldl_cons, htake, hrest, List.reverse_cons, List.append_assoc]
    rfl

/-- What has been read are the lexemes before a block and those of the block so far. -/
structure Spells (r : Reading) (p b : List Lexeme) : Prop where
  prelude : r.prelude.reverse = p.flatMap Lexeme.text
  block : r.block.reverse = b.flatMap Lexeme.text
  plain : Plain p
  depth : (r.depth : Int) = height b
  begun : b = [] ∨ IsOpen b

namespace Spells

theorem initial : Spells {} [] [] := ⟨rfl, rfl, nofun, rfl, .inl rfl⟩

variable (h : r.Spells p b)

include h

theorem block_eq_nil (hdepth : r.depth = 0) : b = [] := by
  refine h.begun.resolve_right fun hopen => ?_
  have hpos := hopen.height_pos
  rw [← h.depth, hdepth] at hpos
  cases hpos

theorem isOpen (hdepth : r.depth ≠ 0) : IsOpen b := by
  refine h.begun.resolve_left ?_
  rintro rfl
  exact hdepth (Int.ofNat_inj.1 h.depth)

theorem takeAll_outside (hdepth : r.depth = 0) (hl : l ≠ .char '\x7b') (hl' : l ≠ .char ';') :
    (r.takeAll l.text).Spells (p ++ [l]) b := by
  rw [Reading.takeAll_outside hdepth]
  refine ⟨?_, h.block, h.plain.append hl hl', h.depth, h.begun⟩
  simp [h.prelude]

theorem takeAll_inside (hdepth : r.depth ≠ 0) (hl : l ≠ .char '\x7b') (hl' : l ≠ .char '\x7d') :
    (r.takeAll l.text).Spells p (b ++ [l]) := by
  have hheight : height (b ++ [l]) = height b := by
    rw [height_append, height_other hl hl', Int.add_zero]
  rw [Reading.takeAll_inside hdepth]
  refine ⟨h.prelude, ?_, h.plain, h.depth.trans hheight.symm, .inr ((h.isOpen hdepth).append ?_)⟩
  · simp [h.block]
  · exact hheight ▸ (h.isOpen hdepth).height_pos

/-- A lexeme that neither opens nor closes anything goes to the prelude or to the block. -/
theorem exists_takeAll (hbrace : l ≠ .char '\x7b') (hsemicolon : r.depth = 0 → l ≠ .char ';')
    (hclosing : r.depth ≠ 0 → l ≠ .char '\x7d') :
    ∃ p' b', (r.takeAll l.text).Spells p' b' ∧ p' ++ (b' ++ ls) = p ++ (b ++ l :: ls) := by
  by_cases hdepth : r.depth = 0
  · obtain rfl := h.block_eq_nil hdepth
    exact ⟨_, _, h.takeAll_outside hdepth hbrace (hsemicolon hdepth), List.append_assoc ..⟩
  · exact ⟨_, _, h.takeAll_inside hdepth hbrace (hclosing hdepth), by rw [List.append_cons b l ls]⟩

theorem opened : r.opened.Spells p (b ++ [.char '\x7b']) := by
  have hheight : height (b ++ [.char '\x7b']) = height b + 1 := height_append _ _
  refine ⟨h.prelude, ?_, h.plain, ?_, .inr ?_⟩
  · simp [Reading.opened, h.block]
  · rw [hheight, ← h.depth]
    rfl
  · rcases h.begun with rfl | hopen
    · exact isOpen_brace
    · exact hopen.append (hheight ▸ Int.lt_add_one_of_le (Int.le_of_lt hopen.height_pos))

theorem closedInner (hdepth : 1 < r.depth) :
    Spells { r with block := '\x7d' :: r.block, depth := r.depth - 1 } p (b ++ [.char '\x7d']) := by
  have hheight : height (b ++ [.char '\x7d']) = height b - 1 := height_append _ _
  have hdepth' : ((r.depth - 1 : Nat) : Int) = height (b ++ [.char '\x7d']) := by
    rw [hheight, ← h.depth]
    omega
  refine ⟨h.prelude, ?_, h.plain, hdepth', .inr ((h.isOpen (by omega)).append ?_)⟩
  · simp [h.block]
  · omega

theorem closed (hdepth : r.depth = 1) : IsBlock (b ++ [.char '\x7d']) := by
  have hheight : height (b ++ [.char '\x7d']) = height b - 1 := height_append _ _
  refine (h.isOpen (by omega)).block ?_
  rw [hheight, ← h.depth, hdepth]
  rfl

theorem rest_text : r.text = (p ++ b).flatMap Lexeme.text := by
  rw [List.flatMap_append, ← h.prelude, ← h.block, Reading.text]

theorem statement_text :
    (';' :: r.prelude).reverse = (p ++ [Lexeme.char ';']).flatMap Lexeme.text := by
  rw [List.reverse_cons, h.prelude, List.flatMap_append]
  rfl

theorem block_text :
    ('\x7d' :: r.block).reverse = (b ++ [Lexeme.char '\x7d']).flatMap Lexeme.text := by
  rw [List.reverse_cons, h.block, List.flatMap_append]
  rfl

end Spells

end Reading

/-- A character of a comment that does not end there. -/
theorem partsFrom_inComment (r : Reading) (h : c = '*' → cs.head? ≠ some '/') :
    partsFrom true r (c :: cs) = partsFrom true (r.take c) cs := by
  rw [partsFrom.eq_def]
  split
  · contradiction
  · rename_i heq
    obtain ⟨rfl, rfl⟩ := List.cons.inj heq
    exact absurd rfl (h rfl)
  · rename_i heq
    obtain ⟨rfl, rfl⟩ := List.cons.inj heq
    rfl
  · rename_i heq
    obtain ⟨rfl, rfl⟩ := List.cons.inj heq
    rfl

theorem partsFrom_comment (h : afterComment? body = some []) (r : Reading) (rest : List Char) :
    partsFrom true r (body ++ rest) = partsFrom false (r.takeAll body) rest := by
  fun_induction afterComment? body generalizing r with
  | case1 cs =>
    obtain rfl := Option.some.inj h
    rw [List.cons_append, List.cons_append, partsFrom]
    rfl
  | case2 c cs hend ih =>
    have hopen : c = '*' → (cs ++ rest).head? ≠ some '/' := by
      intro hc hslash
      cases cs with
      | nil => cases h
      | cons d cs => exact hend cs hc (congrArg (· :: cs) (Option.some.inj hslash))
    exact (partsFrom_inComment r hopen).trans (ih h _)
  | case3 => cases h

theorem partsFrom_unclosed (h : afterComment? body = none) (r : Reading) :
    partsFrom true r body = [.rest (r.takeAll body).text] := by
  fun_induction afterComment? body generalizing r with
  | case1 => cases h
  | case2 c cs hend ih =>
    have hopen : c = '*' → cs.head? ≠ some '/' := by
      intro hc hslash
      obtain ⟨cs, rfl⟩ := List.head?_eq_some_iff.1 hslash
      exact hend cs hc rfl
    exact (partsFrom_inComment r hopen).trans (ih h _)
  | case3 => rw [partsFrom]; rfl

/-- A comment is read to its end, or to that of the file. -/
theorem partsFrom_of_comment {t : List Char} (hfits : (Lexeme.comment t).Fits ls) (r : Reading) :
    partsFrom false r ((Lexeme.comment t :: ls).flatMap text) =
      partsFrom false (r.takeAll t) (ls.flatMap text) := by
  rcases hfits with ⟨body, rfl, hbody⟩ | ⟨⟨body, rfl, hbody⟩, rfl⟩
  · rw [List.flatMap_cons, Lexeme.text_comment, List.cons_append, List.cons_append, partsFrom]
    exact partsFrom_comment hbody ((r.take '/').take '*') (ls.flatMap text)
  · rw [List.flatMap_cons, Lexeme.text_comment, List.flatMap_nil, List.append_nil, partsFrom, partsFrom]
    exact partsFrom_unclosed hbody ((r.take '/').take '*')

/-- From lexemes that have been read on, the scan finds the parts of the grammar. -/
theorem sheet_partsFrom (hls : Lexed ls) (h : r.Spells p b) :
    Sheet (p ++ (b ++ ls)) (partsFrom false r (ls.flatMap text)) := by
  induction hls generalizing r p b with
  | nil =>
    rw [List.append_nil, List.flatMap_nil, partsFrom, h.rest_text]
    exact .rest h.plain h.begun
  | @cons l ls hfits hls ih =>
    have htaken : l ≠ .char '\x7b' → (r.depth = 0 → l ≠ .char ';') →
        (r.depth ≠ 0 → l ≠ .char '\x7d') →
        Sheet (p ++ (b ++ l :: ls)) (partsFrom false (r.takeAll l.text) (ls.flatMap text)) := by
      intro hbrace hsemicolon hclosing
      obtain ⟨p', b', hspells, heq⟩ := h.exists_takeAll hbrace hsemicolon hclosing
      exact heq ▸ ih hspells
    cases l with
    | comment t =>
      rw [partsFrom_of_comment hfits]
      exact htaken (by simp) (by simp) (by simp)
    | char c =>
      have hopen : c = '/' → (ls.flatMap text).head? ≠ some '*' :=
        fun hc hstar => hfits hc (hls.head? hstar (by decide))
      rw [List.flatMap_cons, Lexeme.text_char, List.singleton_append, partsFrom_char r hopen]
      -- The branches of the scan: a block opens, the rule ends, an inner block ends, a statement ends.
      split
      · rename_i hc
        obtain rfl := eq_of_beq hc
        rw [List.append_cons b]
        exact ih h.opened
      split
      · rename_i hc
        rw [Bool.and_eq_true, beq_iff_eq, beq_iff_eq] at hc
        obtain ⟨rfl, hdepth⟩ := hc
        rw [List.append_cons b, h.prelude, h.block_text]
        exact .rule h.plain (h.closed hdepth) (ih .initial)
      split
      · rename_i hc
        rw [Bool.and_eq_true, beq_iff_eq, decide_eq_true_eq] at hc
        obtain ⟨rfl, hdepth⟩ := hc
        rw [List.append_cons b]
        exact ih (h.closedInner hdepth)
      split
      · rename_i hc
        rw [Bool.and_eq_true, beq_iff_eq, beq_iff_eq] at hc
        obtain ⟨rfl, hdepth⟩ := hc
        obtain rfl := h.block_eq_nil hdepth
        rw [h.statement_text]
        exact .statement h.plain (ih .initial)
      · rename_i hbrace hclosed hinner hsemicolon
        refine htaken ?_ ?_ ?_
        · rintro ⟨⟩
          exact hbrace rfl
        · rintro hdepth ⟨⟩
          exact hsemicolon (by rw [hdepth]; rfl)
        · rintro hdepth ⟨⟩
          rw [beq_self_eq_true, Bool.true_and, beq_iff_eq] at hclosed
          rw [beq_self_eq_true, Bool.true_and, decide_eq_true_eq] at hinner
          omega

/-- **The parts of a style sheet are those of the grammar.** -/
theorem sheet_parts (css : List Char) : Sheet (lexemes css) (parts css) := by
  have hsheet := sheet_partsFrom (lexed_lexemes css) .initial
  rwa [flatMap_text_lexemes] at hsheet

theorem parts_eq_of_sheet {ps : List Part} (h : Sheet (lexemes cs) ps) : parts cs = ps :=
  (sheet_parts cs).unique h

end Scan

end WebMigration.Style
