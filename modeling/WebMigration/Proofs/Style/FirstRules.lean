import WebMigration.Proofs.Style.Repeats

/-!
# Which rules a style sheet is left with

Without repeated rules a style sheet should read as its first rules: each rule but for those, other than
at rules, whose selector an earlier rule has.  It does when no text but comments and blanks is left of a
repeated rule in front of a rule that is kept.  The text up to the last comment is left, and the rule
behind it takes the rest of the old selector into its own.
-/

namespace WebMigration.Style

open Text
open Lexeme (text)

/-! ### Rules -/

/-- A rule as it is read: its selector, and its block with the braces. -/
structure Rule where
  selector : List Char
  block : List Char
  deriving DecidableEq, Repr

/-- The rule of a part. -/
def Part.rule? : Part → Option Rule
  | .rule prelude block => some ⟨Style.selector prelude, block⟩
  | .statement _ => none
  | .rest _ => none

/-- The rules of a style sheet. -/
def rules (css : String) : List Rule := (parts css.toList).filterMap Part.rule?

/-- The rules but for those, other than at rules, whose selector an earlier one has. -/
def firstRulesFrom (before : List Rule) : List Rule → List Rule
  | [] => []
  | r :: rest =>
      if isAtRule r.selector || before.all (·.selector != r.selector) then
        r :: firstRulesFrom (before ++ [r]) rest
      else firstRulesFrom (before ++ [r]) rest

/-- The rules but for those, other than at rules, whose selector an earlier one has. -/
def firstRules (rs : List Rule) : List Rule := firstRulesFrom [] rs

/-! ### What is left -/

/-- The part after more text. -/
def Part.after (lead : List Char) : Part → Part
  | .rule prelude block => .rule (lead ++ prelude) block
  | .statement text => .statement (lead ++ text)
  | .rest text => .rest (lead ++ text)

/-- The parts that are kept, each with what is left of the repeated rules in front of it. -/
def keptPartsFrom (lead : List Char) (seen : List (List Char)) : List Part → List (List Char × Part)
  | [] => []
  | .rule prelude block :: rest =>
      if IsKept seen (selector prelude) then
        (lead, .rule prelude block) :: keptPartsFrom [] (selector prelude :: seen) rest
      else keptPartsFrom (lead ++ throughLastComment prelude) seen rest
  | .statement text :: rest => (lead, .statement text) :: keptPartsFrom [] seen rest
  | .rest text :: rest => (lead, .rest text) :: keptPartsFrom [] seen rest

/-- The parts of a style sheet that are kept, each with what is left of the repeated rules in front of
it. -/
def keptParts (css : String) : List (List Char × Part) := keptPartsFrom [] [] (parts css.toList)

/-- What is left of each repeated rule. -/
def leftoversFrom (seen : List (List Char)) : List Part → List (List Char)
  | [] => []
  | .rule prelude _ :: rest =>
      if IsKept seen (selector prelude) then leftoversFrom (selector prelude :: seen) rest
      else throughLastComment prelude :: leftoversFrom seen rest
  | .statement _ :: rest => leftoversFrom seen rest
  | .rest _ :: rest => leftoversFrom seen rest

/-- What is left of each repeated rule of a style sheet. -/
def leftovers (css : String) : List (List Char) := leftoversFrom [] (parts css.toList)

/-- The characters end with a comment, or there are none. -/
def EndsInComment (cs : List Char) : Prop := ∀ l ∈ (lexemes cs).getLast?, l.IsComment

instance (cs : List Char) : Decidable (EndsInComment cs) :=
  inferInstanceAs (Decidable (∀ l ∈ (lexemes cs).getLast?, l.IsComment))

/-! ### Selectors -/

section Selectors

variable {p g ls : List Lexeme} {xs ys cs : List Char} {started gap : Bool} {fuel : Nat}

/-- The characters outside of comments. -/
def bare (ls : List Lexeme) : List Char :=
  ls.filterMap fun
    | .comment _ => none
    | .char c => some c

theorem withoutCommentsUpTo_char {c : Char} (h : c = '/' → cs.head? ≠ some '*') (fuel : Nat) :
    withoutCommentsUpTo (fuel + 1) (c :: cs) = c :: withoutCommentsUpTo fuel cs := by
  rw [withoutCommentsUpTo]
  rintro r rfl rfl
  exact h rfl rfl

theorem withoutCommentsUpTo_text (h : Lexed ls) (hclosed : ∀ t, .comment t ∈ ls → Lexeme.Closed t)
    (hfuel : (ls.flatMap text).length ≤ fuel) :
    withoutCommentsUpTo fuel (ls.flatMap text) = bare ls := by
  -- Every lexeme takes at least one character, so the fuel for the text is enough.
  induction h generalizing fuel with
  | nil => cases fuel <;> rfl
  | @cons l ls hfits hls ih =>
    have hrest := fun t ht => hclosed t (List.mem_cons_of_mem _ ht)
    cases l with
    | char c =>
      have hopen : c = '/' → (ls.flatMap text).head? ≠ some '*' :=
        fun hc hstar => hfits hc (hls.head? hstar (by decide))
      rw [List.flatMap_cons, Lexeme.text_char, List.singleton_append] at hfuel ⊢
      cases fuel with
      | zero => cases hfuel
      | succ fuel =>
        rw [withoutCommentsUpTo_char hopen, ih hrest (Nat.le_of_succ_le_succ hfuel)]
        rfl
    | comment t =>
      obtain ⟨body, rfl, hbody⟩ := hclosed t List.mem_cons_self
      rw [List.flatMap_cons, Lexeme.text_comment, List.cons_append, List.cons_append] at hfuel ⊢
      cases fuel with
      | zero => cases hfuel
      | succ fuel =>
        have hshorter : (ls.flatMap text).length ≤ fuel := by
          simp only [List.length_cons, List.length_append] at hfuel
          omega
        rw [withoutCommentsUpTo]
        simp only [afterComment?_append hbody]
        exact ih hrest hshorter

theorem selector_text (h : Lexed ls) (hclosed : ∀ t, .comment t ∈ ls → Lexeme.Closed t) :
    selector (ls.flatMap text) = squeezedFrom false false (bare ls) := by
  rw [selector, withoutComments, withoutCommentsUpTo_text h hclosed (Nat.le_succ _)]

theorem filter_squeezedFrom (started gap : Bool) (cs : List Char) :
    (squeezedFrom started gap cs).filter (!isSpace ·) = cs.filter (!isSpace ·) := by
  fun_induction squeezedFrom started gap cs with
  | case1 => rfl
  | case2 started gap c cs hc ih => simp [hc, ih]
  | case3 started c cs hc ih =>
    have hblank : isSpace ' ' = true := by decide
    simp [hc, ih, hblank]
  | case4 started gap c cs hc _ ih => simp [hc, ih]

theorem squeezedFrom_blank_append (h : ∀ c ∈ xs, isSpace c = true) (ys : List Char) :
    squeezedFrom false false (xs ++ ys) = squeezedFrom false false ys := by
  induction xs with
  | nil => rfl
  | cons c xs ih =>
    obtain ⟨hc, hxs⟩ := List.forall_mem_cons.1 h
    rw [List.cons_append, squeezedFrom, if_pos hc, ih hxs]

theorem squeezedFrom_eq_nil_iff : squeezedFrom false false xs = [] ↔ ∀ c ∈ xs, isSpace c = true := by
  constructor
  · intro h
    have hfilter := filter_squeezedFrom false false xs
    rw [h] at hfilter
    simpa using hfilter.symm
  · intro h
    have hxs := squeezedFrom_blank_append h []
    rwa [List.append_nil] at hxs

/-- More text in front changes a selector unless it is blank. -/
theorem squeezedFrom_append (xs ys : List Char) :
    squeezedFrom false false (xs ++ ys) = squeezedFrom false false ys ↔
      squeezedFrom false false xs = [] := by
  rw [squeezedFrom_eq_nil_iff]
  refine ⟨fun h => ?_, fun h => squeezedFrom_blank_append h ys⟩
  have hfilter := congrArg (List.filter (!isSpace ·)) h
  rw [filter_squeezedFrom, filter_squeezedFrom, List.filter_append] at hfilter
  simpa using hfilter

theorem selector_append (h : Lexed (g ++ p)) (hclosed : ∀ t, .comment t ∈ g ++ p → Lexeme.Closed t) :
    selector (g.flatMap text ++ p.flatMap text) = selector (p.flatMap text) ↔
      selector (g.flatMap text) = [] := by
  rw [← List.flatMap_append, selector_text h hclosed,
    selector_text h.right fun t ht => hclosed t (List.mem_append_right _ ht),
    selector_text h.left fun t ht => hclosed t (List.mem_append_left _ ht), bare, List.filterMap_append]
  exact squeezedFrom_append _ _

end Selectors

/-! ### Reading what is left -/

section Left

variable {ls g : List Lexeme} {ps : List Part} {seen : List (List Char)} {before : List Rule}

theorem Plain.append_plain {p p' : List Lexeme} (hp : Plain p) (hp' : Plain p') : Plain (p ++ p') :=
  fun l hl => (List.mem_append.1 hl).elim (hp l) (hp' l)

/-- Lexemes that end with a comment, or none, and may stand in front of a part. -/
structure Leads (g : List Lexeme) : Prop where
  lexed : Lexed g
  plain : Plain g
  closed : ∀ t, .comment t ∈ g → Lexeme.Closed t
  ends : ∀ l ∈ g.getLast?, l.IsComment

namespace Leads

theorem nil : Leads [] := ⟨.nil, nofun, nofun, nofun⟩

variable (h : Leads g)

include h

theorem lexed_append {ms : List Lexeme} (hms : Lexed ms) : Lexed (g ++ ms) := by
  refine h.lexed.append hms fun l hl => ?_
  obtain ⟨t, rfl⟩ := h.ends l hl
  exact h.closed t (List.mem_of_getLast? hl)

theorem append {g' : List Lexeme} (h' : Leads g') : Leads (g ++ g') := by
  exact ⟨h.lexed_append h'.lexed, h.plain.append_plain h'.plain,
    fun t ht => (List.mem_append.1 ht).elim (h.closed t) (h'.closed t),
    forall_getLast?_append h.ends h'.ends⟩

end Leads

/-- What is left of the lexemes in front of a block may stand in front of a part. -/
theorem exists_leads {p : List Lexeme} (hlexed : Lexed p)
    (hclosed : ∀ t, .comment t ∈ p → Lexeme.Closed t) (hplain : Plain p)
    (hends : EndsInComment (throughLastComment (p.flatMap text))) :
    ∃ kept, Leads kept ∧ throughLastComment (p.flatMap text) = kept.flatMap text := by
  obtain ⟨kept, gone, rfl, hkept, -, -⟩ := throughLastComment_text hclosed
  rw [hkept, EndsInComment, hlexed.left.lexemes_eq] at hends
  exact ⟨kept, ⟨hlexed.left, fun l hl => hplain l (List.mem_append_left _ hl),
    fun t ht => hclosed t (List.mem_append_left _ ht), hends⟩, hkept⟩

/-- What is left reads as the parts that are kept, each after what is left in front of it. -/
theorem exists_sheet_keptPartsFrom (hsheet : Sheet ls ps) (hlexed : Lexed ls)
    (hleft : ∀ cs ∈ leftoversFrom seen ps, EndsInComment cs) (hg : Leads g) :
    ∃ ms, Lexed ms ∧ ms.flatMap text = g.flatMap text ++ (keptFrom seen ps).flatten ∧
      Sheet ms ((keptPartsFrom (g.flatMap text) seen ps).map fun x => x.2.after x.1) := by
  -- The lexemes `g` are what is left of the rules dropped since the last part that was kept.
  induction hsheet generalizing seen g with
  | @rest p b hp hb =>
    refine ⟨g ++ (p ++ b), hg.lexed_append hlexed, ?_, ?_⟩
    · simp [keptFrom, Part.text]
    · have hrest := Sheet.rest (hg.plain.append_plain hp) hb
      rw [List.append_assoc, List.flatMap_append] at hrest
      exact hrest
  | @statement p ls parts hp hls ih =>
    rw [List.append_cons] at hlexed
    obtain ⟨ms, hms, htext, hsheet⟩ := ih hlexed.right hleft .nil
    have hfront : Lexed (p ++ [.char ';'] ++ ms) :=
      hlexed.left.append hms (ends_of_concat (by decide) p)
    refine ⟨g ++ (p ++ [.char ';'] ++ ms), hg.lexed_append hfront, ?_, ?_⟩
    · simp [htext, keptFrom, Part.text]
    · have hstatement := Sheet.statement (hg.plain.append_plain hp) hsheet
      simpa [Part.after, keptPartsFrom] using hstatement
  | @rule p b ls parts hp hb hls ih =>
    have hne : b ++ ls ≠ [] := fun h => hb.ne_nil (List.append_eq_nil_iff.1 h).1
    rw [leftoversFrom] at hleft
    rw [keptPartsFrom, keptFrom_rule]
    split
    · rename_i hkept
      rw [if_pos hkept] at hleft
      obtain ⟨ms, hms, htext, hsheet⟩ := ih hlexed.right.right hleft .nil
      rw [← List.append_assoc] at hlexed
      have hfront : Lexed (p ++ b ++ ms) := hlexed.left.append hms (hb.ends p)
      refine ⟨g ++ (p ++ b ++ ms), hg.lexed_append hfront, ?_, ?_⟩
      · simp [htext]
      · have hrule := Sheet.rule (hg.plain.append_plain hp) hb hsheet
        simpa [Part.after] using hrule
    · rename_i hkept
      rw [if_neg hkept, List.forall_mem_cons] at hleft
      obtain ⟨kept, hleads, hthrough⟩ :=
        exists_leads hlexed.left (fun t ht => hlexed.closed hne ht) hp hleft.1
      obtain ⟨ms, hms, htext, hsheet⟩ := ih hlexed.right.right hleft.2 (hg.append hleads)
      rw [List.flatMap_append, ← hthrough] at htext hsheet
      exact ⟨ms, hms, by rw [htext, List.flatten_cons, List.append_assoc], hsheet⟩

/-- What is left in front of a rule changes its selector unless it is blank or comments. -/
theorem selector_keptPartsFrom (hsheet : Sheet ls ps) (hlexed : Lexed ls)
    (hleft : ∀ cs ∈ leftoversFrom seen ps, EndsInComment cs) (hg : Leads g)
    {lead prelude block : List Char}
    (hmem : (lead, Part.rule prelude block) ∈ keptPartsFrom (g.flatMap text) seen ps) :
    selector (lead ++ prelude) = selector prelude ↔ selector lead = [] := by
  induction hsheet generalizing seen g with
  | rest => cases List.mem_singleton.1 hmem
  | @statement p ls parts hp hls ih =>
    rw [List.append_cons] at hlexed
    rw [keptPartsFrom, List.mem_cons] at hmem
    exact ih hlexed.right hleft .nil (hmem.resolve_left nofun)
  | @rule p b ls parts hp hb hls ih =>
    have hne : b ++ ls ≠ [] := fun h => hb.ne_nil (List.append_eq_nil_iff.1 h).1
    have hclosed : ∀ t, .comment t ∈ p → Lexeme.Closed t := fun t ht => hlexed.closed hne ht
    rw [leftoversFrom] at hleft
    rw [keptPartsFrom] at hmem
    split at hmem
    · rename_i hkept
      rw [if_pos hkept] at hleft
      rcases List.mem_cons.1 hmem with heq | hmem
      · obtain ⟨rfl, hpart⟩ := Prod.mk.inj heq
        obtain ⟨rfl, -⟩ := Part.rule.inj hpart
        exact selector_append (hg.lexed_append hlexed.left)
          fun t ht => (List.mem_append.1 ht).elim (hg.closed t) (hclosed t)
      · exact ih hlexed.right.right hleft .nil hmem
    · rename_i hkept
      rw [if_neg hkept, List.forall_mem_cons] at hleft
      obtain ⟨kept, hleads, hthrough⟩ := exists_leads hlexed.left hclosed hp hleft.1
      rw [hthrough, ← List.flatMap_append] at hmem
      exact ih hlexed.right.right hleft.2 (hg.append hleads) hmem

theorem firstRulesFrom_cons (h : ∀ s, s ∈ seen ↔ ∃ r ∈ before, r.selector = s) (r : Rule)
    (rest : List Rule) :
    firstRulesFrom before (r :: rest) =
      if IsKept seen r.selector then r :: firstRulesFrom (before ++ [r]) rest
      else firstRulesFrom (before ++ [r]) rest := by
  have hkept : (isAtRule r.selector || before.all (·.selector != r.selector)) = true ↔
      IsKept seen r.selector := by
    simp [IsKept, h]
  rw [firstRulesFrom]
  exact if_congr hkept rfl rfl

/-- The rules of the parts that are kept are the first rules. -/
theorem firstRulesFrom_eq (h : ∀ s, s ∈ seen ↔ ∃ r ∈ before, r.selector = s) (lead : List Char)
    (ps : List Part) :
    firstRulesFrom before (ps.filterMap Part.rule?) =
      (keptPartsFrom lead seen ps).filterMap fun x => x.2.rule? := by
  have happend : ∀ {before : List Rule} {r : Rule} {s : List Char},
      (∃ e ∈ before ++ [r], e.selector = s) ↔ s = r.selector ∨ ∃ e ∈ before, e.selector = s := by
    intro before r s
    simp [or_and_right, exists_or, or_comm, eq_comm]
  fun_induction keptPartsFrom lead seen ps generalizing before with
  | case1 => rfl
  | case2 lead seen prelude block rest hkept ih =>
    have hrest := @ih (before ++ [⟨selector prelude, block⟩]) ?_
    · exact (firstRulesFrom_cons h _ _).trans ((if_pos hkept).trans (congrArg _ hrest))
    intro s
    rw [happend, List.mem_cons, h]
  | case3 lead seen prelude block rest hkept ih =>
    have hrest := @ih (before ++ [⟨selector prelude, block⟩]) ?_
    · exact (firstRulesFrom_cons h _ _).trans ((if_neg hkept).trans hrest)
    intro s
    rw [happend, ← h, eq_comm, or_iff_right_of_imp]
    rintro rfl
    exact not_not.1 (not_or.1 hkept).2
  | case4 lead seen text rest ih => exact ih h
  | case5 lead seen text rest ih => exact ih h

theorem ne_of_mem_firstRulesFrom {rs : List Rule} {r e : Rule} (h : r ∈ firstRulesFrom before rs)
    (hat : isAtRule r.selector = false) (he : e ∈ before) : e.selector ≠ r.selector := by
  fun_induction firstRulesFrom before rs with
  | case1 => cases h
  | case2 before r' rest hkept ih =>
    rcases List.mem_cons.1 h with rfl | h
    · rw [hat, Bool.false_or, List.all_eq_true] at hkept
      simpa using hkept e he
    · exact ih h (List.mem_append_left _ he)
  | case3 before r' rest hkept ih => exact ih h (List.mem_append_left _ he)

/-- No two first rules, other than at rules, have one selector. -/
theorem nodup_firstRulesFrom (before rs : List Rule) :
    (((firstRulesFrom before rs).map Rule.selector).filter (!isAtRule ·)).Nodup := by
  fun_induction firstRulesFrom before rs with
  | case1 => exact List.nodup_nil
  | case2 before r rest hkept ih =>
    rw [List.map_cons, List.filter_cons]
    split
    · refine List.nodup_cons.2 ⟨fun hmem => ?_, ih⟩
      obtain ⟨hmem, hat⟩ := List.mem_filter.1 hmem
      obtain ⟨r', hr', hselector⟩ := List.mem_map.1 hmem
      refine ne_of_mem_firstRulesFrom hr' ?_ (List.mem_append_right _ List.mem_cons_self) hselector.symm
      rw [hselector]
      rwa [Bool.not_eq_true'] at hat
    · exact ih
  | case3 before r rest hkept ih => exact ih

theorem map_selector_blocksFrom (offset : Nat) (ps : List Part) :
    (blocksFrom offset ps).map Block.selector = (ps.filterMap Part.rule?).map Rule.selector := by
  fun_induction blocksFrom offset ps with
  | case1 => rfl
  | case2 offset prelude block rest ih => exact congrArg _ ih
  | case3 offset text rest ih => exact ih
  | case4 offset text rest ih => exact ih

theorem filterMap_eq_iff {α β : Type} {f f' : α → Option β} {l : List α}
    (h : ∀ a ∈ l, (f a).isSome = (f' a).isSome) :
    l.filterMap f = l.filterMap f' ↔ ∀ a ∈ l, f a = f' a := by
  induction l with
  | nil => simp
  | cons a l ih =>
    obtain ⟨ha, hl⟩ := List.forall_mem_cons.1 h
    rw [List.forall_mem_cons, ← ih hl, List.filterMap_cons, List.filterMap_cons]
    cases hf : f a <;> cases hf' : f' a <;> simp_all

end Left

/-- **The rules that are left are the first ones exactly when only comments and blanks are left of the
others in front of them.** -/
theorem rules_withoutRepeats (css : String) (h : ∀ cs ∈ leftovers css, EndsInComment cs) :
    (rules (withoutRepeats css) = firstRules (rules css) ↔
      ∀ x ∈ keptParts css, x.2.rule?.isSome → selector x.1 = []) ∧
    (rules (withoutRepeats css) = firstRules (rules css) →
      withoutRepeats (withoutRepeats css) = withoutRepeats css) := by
  have hfirst : firstRules (rules css) = (keptParts css).filterMap fun x => x.2.rule? :=
    firstRulesFrom_eq (by simp) [] _
  refine ⟨?_, fun hrules => withoutRepeats_of_nodup ?_⟩
  · obtain ⟨ms, hms, htext, hsheet⟩ :=
      exists_sheet_keptPartsFrom (sheet_parts css.toList) (lexed_lexemes _) h .nil
    have htext' : ms.flatMap text = (withoutRepeats css).toList := by
      rw [htext, withoutRepeats, String.toList_ofList]
      rfl
    rw [← hms.lexemes_eq, htext'] at hsheet
    have hread : rules (withoutRepeats css) =
        (keptParts css).filterMap fun x => (x.2.after x.1).rule? := by
      rw [rules, parts_eq_of_sheet hsheet, List.filterMap_map]
      rfl
    rw [hread, hfirst, filterMap_eq_iff]
    · refine forall₂_congr fun x hx => ?_
      obtain ⟨lead, part⟩ := x
      cases part with
      | rule prelude block =>
        have hselector :=
          selector_keptPartsFrom (sheet_parts css.toList) (lexed_lexemes _) h .nil hx
        simp [Part.after, Part.rule?, hselector]
      | statement text => simp [Part.after, Part.rule?]
      | rest text => simp [Part.after, Part.rule?]
    · rintro ⟨lead, part⟩ -
      cases part <;> rfl
  · rw [blocks, map_selector_blocksFrom, ← rules, hrules]
    exact nodup_firstRulesFrom [] _

/-- The comment in front of a repeated rule stays. -/
def commented : String := "a \x7b x: 1; \x7d\n/* note */\na \x7b x: 2; \x7d\nb \x7b x: 3; \x7d\n"

theorem rules_withoutRepeats_commented :
    (∀ cs ∈ leftovers commented, EndsInComment cs) ∧
      rules (withoutRepeats commented) = firstRules (rules commented) ∧
      withoutRepeats (withoutRepeats commented) = withoutRepeats commented := by
  have h : ∀ cs ∈ leftovers commented, EndsInComment cs := by decide +kernel
  have hrules := (rules_withoutRepeats commented h).1.2 (by decide +kernel)
  exact ⟨h, hrules, (rules_withoutRepeats commented h).2 hrules⟩

/-- A comment stands inside the selector of a repeated rule. -/
def commentInSelector : String :=
  "a c \x7b x: 1; \x7d\na b \x7b x: 2; \x7d\na /* n */ b \x7b x: 3; \x7d\nc \x7b x: 4; \x7d\n"

/-- The first part of the selector goes to the next rule, whose selector then repeats another. -/
theorem rules_withoutRepeats_commentInSelector :
    withoutRepeats commentInSelector =
        "a c \x7b x: 1; \x7d\na b \x7b x: 2; \x7d\na /* n */\nc \x7b x: 4; \x7d\n" ∧
      rules (withoutRepeats commentInSelector) ≠ firstRules (rules commentInSelector) ∧
      withoutRepeats (withoutRepeats commentInSelector) ≠ withoutRepeats commentInSelector := by
  decide +kernel

end WebMigration.Style
