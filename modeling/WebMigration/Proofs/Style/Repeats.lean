import Mathlib.Data.List.Induction
import WebMigration.Proofs.Style.Reading

/-!
# What dropping repeated rules deletes

Of a rule that repeats a selector, everything after the last comment in front of its block is deleted.
Nothing else is.
-/

namespace WebMigration.Style

open Lexeme (text)

/-! ### Stretches -/

/-- A stretch of characters, from one offset up to another. -/
structure Stretch where
  start : Nat
  stop : Nat
  deriving DecidableEq, Repr

/-- The characters from an offset on that are in none of the stretches. -/
def outsideFrom (offset : Nat) (cuts : List Stretch) (cs : List Char) : List Char :=
  ((cs.zipIdx offset).filter fun x =>
    cuts.all fun cut => x.2 < cut.start || cut.stop ≤ x.2).map Prod.fst

/-- The characters of a text that are in none of the stretches. -/
def outside (cuts : List Stretch) (cs : List Char) : List Char := outsideFrom 0 cuts cs

section Outside

variable {offset : Nat} {cuts : List Stretch} {cut : Stretch} {cs front gone rest : List Char}

theorem outsideFrom_append (offset : Nat) (cuts : List Stretch) (cs ds : List Char) :
    outsideFrom offset cuts (cs ++ ds) =
      outsideFrom offset cuts cs ++ outsideFrom (offset + cs.length) cuts ds := by
  unfold outsideFrom
  rw [List.zipIdx_append, List.filter_append, List.map_append]

/-- Characters in front of all stretches stay. -/
theorem outsideFrom_eq_self (h : ∀ cut ∈ cuts, offset + cs.length ≤ cut.start) :
    outsideFrom offset cuts cs = cs := by
  have hall : ∀ x ∈ cs.zipIdx offset,
      (cuts.all fun cut => x.2 < cut.start || cut.stop ≤ x.2) = true := by
    intro x hx
    have hlt := List.snd_lt_add_of_mem_zipIdx hx
    rw [List.all_eq_true]
    intro cut hcut
    have hstart := h cut hcut
    simp only [Bool.or_eq_true, decide_eq_true_eq]
    omega
  unfold outsideFrom
  rw [List.filter_eq_self.2 hall, List.zipIdx_map_fst]

/-- Characters of a stretch go. -/
theorem outsideFrom_eq_nil (h : cut ∈ cuts) (hstart : cut.start ≤ offset)
    (hstop : offset + cs.length ≤ cut.stop) : outsideFrom offset cuts cs = [] := by
  unfold outsideFrom
  rw [List.map_eq_nil_iff, List.filter_eq_nil_iff]
  intro x hx hall
  have hlt := List.snd_lt_add_of_mem_zipIdx hx
  have hle := List.le_snd_of_mem_zipIdx hx
  have hcut := List.all_eq_true.1 hall cut h
  simp only [Bool.or_eq_true, decide_eq_true_eq] at hcut
  omega

/-- Characters after a stretch do not depend on it. -/
theorem outsideFrom_cons (h : cut.stop ≤ offset) (cuts : List Stretch) (cs : List Char) :
    outsideFrom offset (cut :: cuts) cs = outsideFrom offset cuts cs := by
  unfold outsideFrom
  congr 1
  refine List.filter_congr fun x hx => ?_
  have hle := List.le_snd_of_mem_zipIdx hx
  rw [List.all_cons, decide_eq_true (p := cut.stop ≤ x.2) (by omega), Bool.or_true, Bool.true_and]

/-- A stretch in front of the others is taken out. -/
theorem outsideFrom_cut (hstart : cut.start = offset + front.length)
    (hstop : cut.stop = offset + (front ++ gone).length) (h : ∀ c ∈ cuts, cut.stop ≤ c.start) :
    outsideFrom offset (cut :: cuts) (front ++ gone ++ rest) =
      front ++ outsideFrom cut.stop cuts rest := by
  have hlength : (front ++ gone).length = front.length + gone.length := List.length_append
  have hfront : ∀ c ∈ cut :: cuts, offset + front.length ≤ c.start := by
    refine List.forall_mem_cons.2 ⟨Nat.le_of_eq hstart.symm, fun c hc => ?_⟩
    have hc := h c hc
    omega
  rw [outsideFrom_append, ← hstop, outsideFrom_cons (Nat.le_refl _), outsideFrom_append,
    outsideFrom_eq_self hfront, outsideFrom_eq_nil List.mem_cons_self (Nat.le_of_eq hstart) (by omega),
    List.append_nil]

end Outside

/-! ### Blocks, comments and cuts -/

/-- A block outside of others: the selector of its rule, where the rule starts, where its brace opens,
and where the block stops. -/
structure Block where
  selector : List Char
  start : Nat
  brace : Nat
  stop : Nat
  deriving DecidableEq, Repr

/-- The blocks of the parts from an offset on. -/
def blocksFrom (offset : Nat) : List Part → List Block
  | [] => []
  | .rule prelude block :: rest =>
      ⟨selector prelude, offset, offset + prelude.length, offset + (prelude ++ block).length⟩ ::
        blocksFrom (offset + (prelude ++ block).length) rest
  | .statement text :: rest => blocksFrom (offset + text.length) rest
  | .rest text :: rest => blocksFrom (offset + text.length) rest

/-- The blocks of a style sheet. -/
def blocks (css : List Char) : List Block := blocksFrom 0 (parts css)

/-- The comments of the lexemes from an offset on. -/
def commentsFrom (offset : Nat) : List Lexeme → List Stretch
  | [] => []
  | .comment t :: ls => ⟨offset, offset + t.length⟩ :: commentsFrom (offset + t.length) ls
  | .char _ :: ls => commentsFrom (offset + 1) ls

/-- The comments of a style sheet. -/
def comments (css : List Char) : List Stretch := commentsFrom 0 (lexemes css)

/-- A rule is kept: it is an at rule, or no rule before has its selector. -/
def IsKept (seen : List (List Char)) (s : List Char) : Prop := isAtRule s = true ∨ s ∉ seen

instance (seen : List (List Char)) (s : List Char) : Decidable (IsKept seen s) :=
  inferInstanceAs (Decidable (_ ∨ _))

/-- What is deleted of the parts from an offset on, given the selectors of the rules before. -/
def cutsFrom (offset : Nat) (seen : List (List Char)) : List Part → List Stretch
  | [] => []
  | .rule prelude block :: rest =>
      if IsKept seen (selector prelude) then
        cutsFrom (offset + (prelude ++ block).length) (selector prelude :: seen) rest
      else
        ⟨offset + (throughLastComment prelude).length, offset + (prelude ++ block).length⟩ ::
          cutsFrom (offset + (prelude ++ block).length) seen rest
  | .statement text :: rest => cutsFrom (offset + text.length) seen rest
  | .rest text :: rest => cutsFrom (offset + text.length) seen rest

section Cuts

variable {offset : Nat} {seen : List (List Char)} {prelude block css : List Char} {ps : List Part}
  {ls ms p b : List Lexeme} {cut k : Stretch}

theorem keptFrom_rule (seen : List (List Char)) (prelude block : List Char) (ps : List Part) :
    keptFrom seen (.rule prelude block :: ps) =
      if IsKept seen (selector prelude) then
        (prelude ++ block) :: keptFrom (selector prelude :: seen) ps
      else throughLastComment prelude :: keptFrom seen ps := by
  have hkept : (isAtRule (selector prelude) || !seen.contains (selector prelude)) = true ↔
      IsKept seen (selector prelude) := by
    rw [Bool.or_eq_true, Bool.not_eq_true', ← Bool.not_eq_true, List.contains_iff_mem]
    rfl
  rw [keptFrom]
  exact if_congr hkept rfl rfl

theorem eq_of_ends {cs front : List Char} (h : throughLastComment.ends cs = some front) :
    ∃ back, cs = back ++ '/' :: '*' :: front := by
  fun_induction throughLastComment.ends cs with
  | case1 cs =>
    obtain rfl := Option.some.inj h
    exact ⟨[], rfl⟩
  | case2 c cs _ ih =>
    obtain ⟨back, rfl⟩ := ih h
    exact ⟨c :: back, rfl⟩
  | case3 => cases h

theorem prefix_throughLastComment (prelude : List Char) : throughLastComment prelude <+: prelude := by
  unfold throughLastComment
  split
  · rename_i front hfront
    obtain ⟨back, hback⟩ := eq_of_ends hfront
    refine ⟨back.reverse, ?_⟩
    rw [← List.reverse_reverse prelude, hback]
    simp
  · exact List.nil_prefix

theorem le_start_of_mem_cutsFrom (h : cut ∈ cutsFrom offset seen ps) : offset ≤ cut.start := by
  fun_induction cutsFrom offset seen ps with
  | case1 => cases h
  | case2 offset seen prelude block rest _ ih => exact Nat.le_of_add_right_le (ih h)
  | case3 offset seen prelude block rest _ ih =>
    rcases List.mem_cons.1 h with rfl | h
    · exact Nat.le_add_right _ _
    · exact Nat.le_of_add_right_le (ih h)
  | case4 offset seen text rest ih => exact Nat.le_of_add_right_le (ih h)
  | case5 offset seen text rest ih => exact Nat.le_of_add_right_le (ih h)

/-- The cuts follow each other. -/
theorem pairwise_cutsFrom (offset : Nat) (seen : List (List Char)) (ps : List Part) :
    (cutsFrom offset seen ps).Pairwise fun a b => a.stop ≤ b.start := by
  fun_induction cutsFrom offset seen ps with
  | case1 => exact .nil
  | case2 => assumption
  | case3 offset seen prelude block rest _ ih =>
    exact List.pairwise_cons.2 ⟨fun _ h => le_start_of_mem_cutsFrom h, ih⟩
  | case4 => assumption
  | case5 => assumption

/-- What is kept is what the cuts leave. -/
theorem outsideFrom_cutsFrom (offset : Nat) (seen : List (List Char)) (ps : List Part) :
    outsideFrom offset (cutsFrom offset seen ps) (ps.flatMap Part.text) = (keptFrom seen ps).flatten := by
  -- A part that is kept lies in front of all cuts.
  have hwhole : ∀ (part : Part) {seen : List (List Char)} {offset : Nat} {ps : List Part},
      outsideFrom (offset + part.text.length) (cutsFrom (offset + part.text.length) seen ps)
          (ps.flatMap Part.text) = (keptFrom seen ps).flatten →
        outsideFrom offset (cutsFrom (offset + part.text.length) seen ps)
          ((part :: ps).flatMap Part.text) = (part.text :: keptFrom seen ps).flatten := by
    intro part seen offset ps ih
    rw [List.flatMap_cons, outsideFrom_append, ih, List.flatten_cons,
      outsideFrom_eq_self fun _ h => le_start_of_mem_cutsFrom h]
  fun_induction cutsFrom offset seen ps with
  | case1 => rfl
  | case2 offset seen prelude block rest hkept ih =>
    rw [keptFrom_rule, if_pos hkept]
    exact hwhole (.rule prelude block) ih
  | case3 offset seen prelude block rest hkept ih =>
    obtain ⟨tail, htail⟩ := prefix_throughLastComment prelude
    have hrule : prelude ++ block = throughLastComment prelude ++ (tail ++ block) := by
      rw [← List.append_assoc, htail]
    rw [keptFrom_rule, if_neg hkept, List.flatMap_cons, Part.text, List.flatten_cons, ← ih, hrule]
    exact outsideFrom_cut rfl rfl fun _ h => le_start_of_mem_cutsFrom h
  | case4 offset seen text rest ih => exact hwhole (.statement text) ih
  | case5 offset seen text rest ih => exact hwhole (.rest text) ih

/-! ### Where comments are -/

theorem commentsFrom_append (offset : Nat) (ls ms : List Lexeme) :
    commentsFrom offset (ls ++ ms) =
      commentsFrom offset ls ++ commentsFrom (offset + (ls.flatMap text).length) ms := by
  fun_induction commentsFrom offset ls with
  | case1 => rfl
  | case2 offset t ls ih => simp [commentsFrom, ih, Nat.add_assoc]
  | case3 offset c ls ih => simp [commentsFrom, ih, Nat.add_assoc, Nat.add_comm 1]

theorem le_of_mem_commentsFrom (h : k ∈ commentsFrom offset ls) :
    offset ≤ k.start ∧ k.stop ≤ offset + (ls.flatMap text).length := by
  fun_induction commentsFrom offset ls with
  | case1 => cases h
  | case2 offset t ls ih =>
    rw [List.flatMap_cons, List.length_append, Lexeme.text_comment]
    rcases List.mem_cons.1 h with rfl | h
    · exact ⟨Nat.le_refl _, Nat.add_le_add_left (Nat.le_add_right _ _) _⟩
    · have hle := ih h
      omega
  | case3 offset c ls ih =>
    rw [List.flatMap_cons, List.length_append, Lexeme.text_char, List.length_singleton]
    have hle := ih h
    omega

theorem commentsFrom_eq_nil (h : ∀ t, .comment t ∉ ls) (offset : Nat) : commentsFrom offset ls = [] := by
  fun_induction commentsFrom offset ls with
  | case1 => rfl
  | case2 offset t ls => exact absurd List.mem_cons_self (h t)
  | case3 offset c ls ih => exact ih fun t ht => h t (List.mem_cons_of_mem _ ht)

theorem throughLastComment_end (front : List Char) :
    throughLastComment (front ++ ['*', '/']) = front ++ ['*', '/'] := by
  unfold throughLastComment
  rw [List.reverse_append]
  simp [throughLastComment.ends]

theorem throughLastComment_concat (front : List Char) {c : Char}
    (h : c = '/' → front.getLast? ≠ some '*') :
    throughLastComment (front ++ [c]) = throughLastComment front := by
  have hends : throughLastComment.ends (c :: front.reverse) =
      throughLastComment.ends front.reverse := by
    rw [throughLastComment.ends]
    intro more hc hfront
    refine h hc ?_
    rw [← List.head?_reverse, hfront]
    rfl
  unfold throughLastComment
  rw [List.reverse_append, List.reverse_singleton, List.singleton_append, hends]
  cases throughLastComment.ends front.reverse <;> rfl

/-- Of the lexemes before a block, those up to the last end of a comment are kept. -/
theorem throughLastComment_text (h : ∀ t, .comment t ∈ p → Lexeme.Closed t) :
    ∃ kept gone, p = kept ++ gone ∧ throughLastComment (p.flatMap text) = kept.flatMap text ∧
      (∀ t, .comment t ∉ gone) ∧
      ∀ l ∈ kept.getLast?, l = .char '/' ∨ l.IsComment := by
  -- From the end, where the last comment is looked for.
  induction p using List.reverseRecOn with
  | nil => exact ⟨[], [], rfl, rfl, nofun, nofun⟩
  | append_singleton p l ih =>
    cases l with
    | comment t =>
      obtain ⟨body, rfl, hbody⟩ := h t (List.mem_append_right _ List.mem_cons_self)
      obtain ⟨front, rfl⟩ := ends_of_afterComment? hbody
      refine ⟨_, [], (List.append_nil _).symm, ?_, nofun, ?_⟩
      · have hend := throughLastComment_end (p.flatMap text ++ '/' :: '*' :: front)
        simpa using hend
      · intro l hl
        rw [List.getLast?_concat] at hl
        exact .inr ⟨_, (Option.some.inj hl).symm⟩
    | char c =>
      have htext : (p ++ [Lexeme.char c]).flatMap text = p.flatMap text ++ [c] :=
        List.flatMap_append
      by_cases hend : c = '/' ∧ (p.flatMap text).getLast? = some '*'
      · obtain ⟨rfl, hstar⟩ := hend
        obtain ⟨front, hfront⟩ := List.getLast?_eq_some_iff.1 hstar
        refine ⟨_, [], (List.append_nil _).symm, ?_, nofun, ?_⟩
        · rw [htext, hfront, List.append_assoc]
          exact throughLastComment_end front
        · intro l hl
          rw [List.getLast?_concat] at hl
          exact .inl (Option.some.inj hl).symm
      · obtain ⟨kept, gone, rfl, hkept, hgone, hlast⟩ := ih fun t ht => h t (List.mem_append_left _ ht)
        refine ⟨kept, gone ++ [.char c], List.append_assoc _ _ _, ?_, fun t ht => ?_, hlast⟩
        · rw [htext, throughLastComment_concat _ fun hc hstar => hend ⟨hc, hstar⟩, hkept]
        · rcases List.mem_append.1 ht with ht | ht
          · exact hgone t ht
          · cases List.mem_singleton.1 ht

/-! ### What is deleted -/

/-- A stretch that goes with a repeated rule: it stops with the rule's block, a block before has its
selector, which is not that of an at rule, and no comment in front of the brace lies in it. -/
def GoesWith (earlier blocks : List Block) (comments : List Stretch) (cut : Stretch) : Prop :=
  ∃ before b after, blocks = before ++ b :: after ∧
    isAtRule b.selector = false ∧ (∃ e ∈ earlier ++ before, e.selector = b.selector) ∧
    b.start ≤ cut.start ∧ cut.start ≤ b.brace ∧ cut.stop = b.stop ∧
    ∀ k ∈ comments, k.stop ≤ cut.start ∨ b.brace ≤ k.start

theorem GoesWith.cons {earlier blocks : List Block} {comments : List Stretch} {e : Block}
    (h : GoesWith (earlier ++ [e]) blocks comments cut) :
    GoesWith earlier (e :: blocks) comments cut := by
  obtain ⟨before, b, after, rfl, hat, hearlier, hcut⟩ := h
  rw [List.append_assoc] at hearlier
  exact ⟨e :: before, b, after, rfl, hat, hearlier, hcut⟩

/-- Comments in front of everything that is deleted do not matter. -/
theorem GoesWith.after {earlier blocks : List Block}
    (h : GoesWith earlier blocks (commentsFrom (offset + (ls.flatMap text).length) ms) cut)
    (hle : offset + (ls.flatMap text).length ≤ cut.start) :
    GoesWith earlier blocks (commentsFrom offset (ls ++ ms)) cut := by
  obtain ⟨before, b, after, hblocks, hat, hearlier, hstart, hbrace, hstop, hback⟩ := h
  refine ⟨before, b, after, hblocks, hat, hearlier, hstart, hbrace, hstop, fun k hk => ?_⟩
  rw [commentsFrom_append] at hk
  rcases List.mem_append.1 hk with hk | hk
  · exact .inl (Nat.le_trans (le_of_mem_commentsFrom hk).2 hle)
  · exact hback k hk

/-- What is deleted of a rule goes with it. -/
theorem goesWith_rule {earlier rest : List Block} (hlexed : Lexed (p ++ (b ++ ls))) (hb : IsBlock b)
    (hkept : ¬ IsKept seen (selector (p.flatMap text)))
    (hseen : ∀ s ∈ seen, ∃ e ∈ earlier, e.selector = s) {stop : Nat} :
    GoesWith earlier
      (⟨selector (p.flatMap text), offset, offset + (p.flatMap text).length, stop⟩ :: rest)
      (commentsFrom offset (p ++ (b ++ ls)))
      ⟨offset + (throughLastComment (p.flatMap text)).length, stop⟩ := by
  have hne : b ++ ls ≠ [] := fun h => hb.ne_nil (List.append_eq_nil_iff.1 h).1
  rw [IsKept, not_or, not_not, Bool.not_eq_true] at hkept
  obtain ⟨kept, gone, rfl, hthrough, hgone, -⟩ :=
    throughLastComment_text fun t ht => hlexed.closed hne ht
  obtain ⟨e, he, hselector⟩ := hseen _ hkept.2
  refine ⟨[], _, rest, rfl, hkept.1, ⟨e, List.mem_append_left _ he, hselector⟩, Nat.le_add_right _ _,
    ?_, rfl, fun k hk => ?_⟩
  · exact Nat.add_le_add_left (prefix_throughLastComment _).length_le _
  · rw [commentsFrom_append, commentsFrom_append, commentsFrom_eq_nil hgone, List.append_nil] at hk
    rcases List.mem_append.1 hk with hk | hk
    · exact .inl (hthrough ▸ (le_of_mem_commentsFrom hk).2)
    · exact .inr (le_of_mem_commentsFrom hk).1

theorem goesWith_cutsFrom {earlier : List Block} (hsheet : Sheet ls ps) (hlexed : Lexed ls)
    (hseen : ∀ s ∈ seen, ∃ e ∈ earlier, e.selector = s)
    (hcut : cut ∈ cutsFrom offset seen ps) :
    GoesWith earlier (blocksFrom offset ps) (commentsFrom offset ls) cut := by
  induction hsheet generalizing offset seen earlier with
  | rest => cases hcut
  | @statement p ls parts hp hls ih =>
    rw [List.append_cons p _ ls] at hlexed ⊢
    exact (ih hlexed.right hseen hcut).after (le_start_of_mem_cutsFrom hcut)
  | @rule p b ls parts hp hb hls ih =>
    rw [cutsFrom] at hcut
    -- A cut of a later rule may repeat this one's selector.
    have hlater : ∀ {seen' : List (List Char)},
        (∀ s ∈ seen', s = selector (p.flatMap text) ∨ s ∈ seen) →
        cut ∈ cutsFrom (offset + (p.flatMap text ++ b.flatMap text).length) seen' parts →
        GoesWith earlier (blocksFrom offset (.rule (p.flatMap text) (b.flatMap text) :: parts))
          (commentsFrom offset (p ++ (b ++ ls))) cut := by
      intro seen' hseen' hcut
      rw [← List.append_assoc] at hlexed ⊢
      rw [← List.flatMap_append] at hcut
      refine GoesWith.after (.cons ?_) (le_start_of_mem_cutsFrom hcut)
      rw [List.flatMap_append] at hcut ⊢
      refine ih hlexed.right (fun s hs => ?_) hcut
      rcases hseen' s hs with rfl | hs
      · exact ⟨_, List.mem_append_right _ List.mem_cons_self, rfl⟩
      · obtain ⟨e, he, hselector⟩ := hseen s hs
        exact ⟨e, List.mem_append_left _ he, hselector⟩
    split at hcut
    · exact hlater (fun _ => List.mem_cons.1) hcut
    · rename_i hkept
      rcases List.mem_cons.1 hcut with rfl | hcut
      · exact goesWith_rule hlexed hb hkept hseen
      · exact hlater (fun _ => .inr) hcut

end Cuts

theorem getElem?_length (front : List Char) (c : Char) (back : List Char) :
    (front ++ c :: back)[front.length]? = some c := by
  simp

/-- Every block begins and ends with its braces. -/
theorem braces_of_mem_blocksFrom {ls : List Lexeme} {ps : List Part} {b : Block} (h : Sheet ls ps)
    (front : List Char) (hb : b ∈ blocksFrom front.length ps) :
    b.brace < b.stop ∧ (front ++ ls.flatMap text)[b.brace]? = some '\x7b' ∧
      (front ++ ls.flatMap text)[b.stop - 1]? = some '\x7d' := by
  -- Blocks are told by their places in the whole text, so what was read stays in front.
  induction h generalizing front with
  | rest => cases hb
  | @statement p ls parts hp hls ih =>
    have hrest := ih (front ++ (p ++ [Lexeme.char ';']).flatMap text)
    rw [List.length_append, List.append_assoc, ← List.flatMap_append, List.append_assoc] at hrest
    exact hrest hb
  | @rule p b ls parts hp hblock hls ih =>
    have hrest := ih (front ++ (p ++ b).flatMap text)
    rw [List.length_append, List.append_assoc, ← List.flatMap_append, List.append_assoc] at hrest
    rcases List.mem_cons.1 hb with rfl | hb
    · obtain ⟨tail, rfl⟩ := List.head?_eq_some_iff.1 hblock.head
      obtain ⟨inner, hinner⟩ := hblock.exists_concat
      have hfirst : front ++ (p ++ (.char '\x7b' :: tail ++ ls)).flatMap text =
          (front ++ p.flatMap text) ++ '\x7b' :: (tail ++ ls).flatMap text := by
        simp
      have hlast : front ++ (p ++ (.char '\x7b' :: tail ++ ls)).flatMap text =
          (front ++ (p ++ inner).flatMap text) ++ '\x7d' :: ls.flatMap text := by
        rw [hinner]
        simp
      refine ⟨?_, ?_, ?_⟩
      · simp
      · rw [hfirst, ← List.length_append]
        exact getElem?_length _ _ _
      · have hstop : front.length + (p.flatMap text ++ (inner ++ [Lexeme.char '\x7d']).flatMap text).length
            - 1 = (front ++ (p ++ inner).flatMap text).length := by
          simp
          omega
        rw [hlast, hinner, hstop]
        exact getElem?_length _ _ _
    · rw [← List.flatMap_append] at hb
      exact hrest hb

theorem goesWith_cuts {css : List Char} {cut : Stretch} (h : cut ∈ cutsFrom 0 [] (parts css)) :
    GoesWith [] (blocks css) (comments css) cut :=
  goesWith_cutsFrom (sheet_parts css) (lexed_lexemes css) (fun _ h => absurd h List.not_mem_nil) h

theorem toList_withoutRepeats (css : String) :
    (withoutRepeats css).toList = outside (cutsFrom 0 [] (parts css.toList)) css.toList := by
  have hcuts := outsideFrom_cutsFrom 0 [] (parts css.toList)
  rw [flatMap_text_parts] at hcuts
  rw [withoutRepeats, String.toList_ofList]
  exact hcuts.symm

/-- Without two rules, other than at rules, of one selector nothing is deleted. -/
theorem withoutRepeats_of_nodup {css : String}
    (h : (((blocks css.toList).map Block.selector).filter (!isAtRule ·)).Nodup) :
    withoutRepeats css = css := by
  have hnone : cutsFrom 0 [] (parts css.toList) = [] := by
    refine List.eq_nil_iff_forall_not_mem.2 fun cut hcut => ?_
    obtain ⟨before, b, after, hblocks, hat, ⟨e, he, hselector⟩, -⟩ := goesWith_cuts hcut
    rw [hblocks, List.map_append, List.filter_append, List.nodup_append] at h
    refine h.2.2 b.selector ?_ b.selector ?_ rfl
    · exact List.mem_filter.2 ⟨hselector ▸ List.mem_map_of_mem he, by rw [hat]; rfl⟩
    · exact List.mem_filter.2 ⟨List.mem_map_of_mem List.mem_cons_self, by rw [hat]; rfl⟩
  have houtside := toList_withoutRepeats css
  rw [hnone, outside, outsideFrom_eq_self fun _ h => absurd h List.not_mem_nil] at houtside
  exact String.toList_inj.1 houtside

/-- **Only what follows the last comment of repeated rules is deleted.** -/
theorem withoutRepeats_deletes (css : String) :
    Sheet (lexemes css.toList) (parts css.toList) ∧
    (∃ cuts : List Stretch,
      (withoutRepeats css).toList = outside cuts css.toList ∧
      cuts.Pairwise (fun a b => a.stop ≤ b.start) ∧
      ∀ cut ∈ cuts, cut.start < cut.stop ∧ css.toList[cut.stop - 1]? = some '\x7d' ∧
        GoesWith [] (blocks css.toList) (comments css.toList) cut) ∧
    ((((blocks css.toList).map Block.selector).filter (!isAtRule ·)).Nodup →
      withoutRepeats css = css) := by
  refine ⟨sheet_parts _, ⟨_, toList_withoutRepeats css, pairwise_cutsFrom _ _ _, fun cut hcut => ?_⟩,
    withoutRepeats_of_nodup⟩
  obtain ⟨before, b, after, hblocks, -, -, -, hbrace, hstop, -⟩ := goesWith_cuts hcut
  have hmem : b ∈ blocks css.toList := hblocks ▸ List.mem_append_right _ List.mem_cons_self
  obtain ⟨hlt, -, hclosing⟩ := braces_of_mem_blocksFrom (sheet_parts css.toList) [] hmem
  rw [flatMap_text_lexemes] at hclosing
  exact ⟨hstop ▸ Nat.lt_of_le_of_lt hbrace hlt, hstop ▸ hclosing, goesWith_cuts hcut⟩

end WebMigration.Style
