import WebMigration.Proofs.Style.Directive
import WebMigration.Proofs.Style.FirstRules
import WebMigration.Proofs.Text.Pieces

/-!
# The directives of a style sheet

Outside of comments and blocks, a directive is a statement with nothing but comments and blanks in front
of it.  The directives of two style sheets in a row are those of the first and those of the second,
provided that nothing is left open at the end of the first.  Dropping repeated rules loses a directive
only when a part of an old selector gets in front of it.
-/

namespace WebMigration.Style

open Text
open Lexeme (text)

/-! ### Statements -/

/-- A character in the name of a directive. -/
def isNameChar (c : Char) : Bool := isWord c || c == '-'

/-- The name in a directive with its semicolon. -/
def directiveName? (cs : List Char) : Option (List Char) :=
  let behind := cs.drop "@tailwind".toList.length
  let named := behind.dropWhile isSpace
  let name := named.takeWhile isNameChar
  if "@tailwind".toList <+: cs ∧ behind.takeWhile isSpace ≠ [] ∧ name ≠ [] ∧
      (named.dropWhile isNameChar).dropWhile isSpace = [';'] then some name
  else none

/-- A comment or a blank. -/
def Lexeme.isGap : Lexeme → Bool
  | .comment _ => true
  | .char c => isSpace c

/-- The name of the directive that a part is. -/
def Part.directive? : Part → Option (List Char)
  | .statement t => directiveName? (((lexemes t).dropWhile Lexeme.isGap).flatMap Lexeme.text)
  | .rule _ _ => none
  | .rest _ => none

/-- The names of the directives of a style sheet outside of comments and blocks. -/
def directives (css : List Char) : List (List Char) := (parts css).filterMap Part.directive?

section Names

variable {cs name : List Char} {c : Char}

/-- The blanks by their numbers. -/
theorem mem_of_isSpace (h : isSpace c = true) :
    c.toNat ∈ [9, 10, 11, 12, 13, 28, 29, 30, 31, 32, 0x85, 0xa0, 0x1680] ++ List.range' 0x2000 11 ++
      [0x2028, 0x2029, 0x202f, 0x205f, 0x3000] := by
  have hnumber : ∀ d : Char, c = d ↔ c.toNat = d.toNat := fun d => Char.toNat_inj.symm
  have hle : ∀ d e : Char, d ≤ e ↔ d.toNat ≤ e.toNat := fun _ _ => UInt32.le_iff_toNat_le
  simp only [isSpace, Bool.or_eq_true, Bool.and_eq_true, decide_eq_true_eq, beq_iff_eq, hle, hnumber] at h
  simp only [List.mem_append, List.mem_range'_1, List.mem_cons, List.not_mem_nil, or_false]
  simp only [Char.reduceToNat] at h
  omega

theorem isNameChar_of_isSpace (h : isSpace c = true) : isNameChar c = false := by
  have hnumber : ∀ n ∈ [9, 10, 11, 12, 13, 28, 29, 30, 31, 32, 0x85, 0xa0, 0x1680] ++
      List.range' 0x2000 11 ++ [0x2028, 0x2029, 0x202f, 0x205f, 0x3000],
      isNameChar (Char.ofNat n) = false := by
    decide +kernel
  have hfalse := hnumber _ (mem_of_isSpace h)
  rwa [Char.ofNat_toNat] at hfalse

theorem isSpace_of_isNameChar (h : isNameChar c = true) : isSpace c = false := by
  by_contra hspace
  rw [isNameChar_of_isSpace (Bool.of_not_eq_false hspace)] at h
  cases h

/-- A name is found exactly in a directive. -/
theorem directiveName?_eq_some_iff :
    directiveName? cs = some name ↔ ∃ gap after, (gap ≠ [] ∧ Blank gap) ∧
      (name ≠ [] ∧ ∀ c ∈ name, isNameChar c = true) ∧ Blank after ∧
      cs = "@tailwind".toList ++ (gap ++ (name ++ (after ++ [';']))) := by
  unfold directiveName?
  dsimp only
  rw [Option.ite_none_right_eq_some]
  constructor
  · rintro ⟨⟨⟨behind, rfl⟩, hgap, hname, hend⟩, heq⟩
    rw [List.drop_left] at hgap hname hend heq
    obtain rfl := Option.some.inj heq
    refine ⟨behind.takeWhile isSpace, ((behind.dropWhile isSpace).dropWhile isNameChar).takeWhile isSpace,
      ⟨hgap, List.all_eq_true.1 List.all_takeWhile⟩, ⟨hname, List.all_eq_true.1 List.all_takeWhile⟩,
      List.all_eq_true.1 List.all_takeWhile, ?_⟩
    rw [← hend, List.takeWhile_append_dropWhile, List.takeWhile_append_dropWhile,
      List.takeWhile_append_dropWhile]
  · rintro ⟨gap, after, ⟨hgap, hblank⟩, ⟨hname, hword⟩, hafter, rfl⟩
    have hbehindName : ∀ c ∈ (after ++ [';']).head?, isNameChar c = false := by
      intro c hc
      rcases List.mem_append.1 (List.mem_of_mem_head? hc) with hc | hc
      · exact isNameChar_of_isSpace (hafter c hc)
      · obtain rfl := List.mem_singleton.1 hc
        decide
    have hbehindGap : ∀ c ∈ (name ++ (after ++ [';'])).head?, isSpace c = false := by
      intro c hc
      rw [List.head?_append_of_ne_nil _ hname] at hc
      exact isSpace_of_isNameChar (hword c (List.mem_of_mem_head? hc))
    have hsplitGap := takeWhile_dropWhile_append hblank hbehindGap
    have hsplitName := takeWhile_dropWhile_append hword hbehindName
    have hbehindAfter : ∀ c ∈ [';'].head?, isSpace c = false := by
      intro c hc
      obtain rfl := Option.mem_some.1 hc
      decide
    have hsplitAfter := takeWhile_dropWhile_append hafter hbehindAfter
    rw [List.drop_left, hsplitGap.1, hsplitGap.2, hsplitName.1, hsplitName.2, hsplitAfter.2]
    exact ⟨⟨List.prefix_append _ _, hgap, hname, rfl⟩, rfl⟩

/-- A directive is a core with a semicolon. -/
theorem isSome_directiveName?_iff : (directiveName? cs).isSome ↔ ∃ core, IsCore core ∧ cs = core ++ [';'] := by
  rw [Option.isSome_iff_exists]
  constructor
  · rintro ⟨name, h⟩
    obtain ⟨gap, after, ⟨hne, hgap⟩, ⟨hname, hword⟩, hafter, rfl⟩ := directiveName?_eq_some_iff.1 h
    exact ⟨_, ⟨gap, name, after, hne, hgap, hname, hword, hafter, rfl⟩, by simp⟩
  · rintro ⟨core, ⟨gap, name, after, hne, hgap, hname, hword, hafter, rfl⟩, rfl⟩
    exact ⟨name, directiveName?_eq_some_iff.2 ⟨gap, after, ⟨hne, hgap⟩, ⟨hname, hword⟩, hafter, by simp⟩⟩

end Names

/-! ### Parts after more text -/

/-- A closed comment, or a blank. -/
def Lexeme.Between : Lexeme → Prop
  | .comment t => Lexeme.Closed t
  | .char c => isSpace c = true

instance : DecidablePred Lexeme.Closed := fun t =>
  decidable_of_iff (t.take 2 = ['/', '*'] ∧ afterComment? (t.drop 2) = some []) <| by
    constructor
    · rintro ⟨hstart, hend⟩
      exact ⟨t.drop 2, by rw [← List.take_append_drop 2 t, hstart]; rfl, hend⟩
    · rintro ⟨body, rfl, hbody⟩
      exact ⟨rfl, hbody⟩

instance : DecidablePred Lexeme.Between
  | .comment t => inferInstanceAs (Decidable (Lexeme.Closed t))
  | .char c => inferInstanceAs (Decidable (isSpace c = true))

/-- The part ends, or it is nothing but comments and blanks. -/
def Part.Finished : Part → Prop
  | .rest t => ∀ l ∈ lexemes t, l.Between
  | .rule _ _ => True
  | .statement _ => True

instance : DecidablePred Part.Finished
  | .rest t => inferInstanceAs (Decidable (∀ l ∈ lexemes t, l.Between))
  | .rule _ _ => isTrue trivial
  | .statement _ => isTrue trivial

/-- Nothing but comments and blanks stands behind the last rule or statement. -/
def Complete (css : List Char) : Prop := ∀ part ∈ parts css, part.Finished

instance (css : List Char) : Decidable (Complete css) :=
  inferInstanceAs (Decidable (∀ part ∈ parts css, part.Finished))

section Parts

variable {cs ds t : List Char} {p g ls ms : List Lexeme} {l : Lexeme} {ps qs : List Part} {part : Part}

theorem Lexeme.Between.isGap (h : l.Between) : l.isGap = true := by
  cases l with
  | comment t => rfl
  | char c => exact h

theorem Lexeme.Between.ne {c : Char} (h : l.Between) (hc : isSpace c = false) : l ≠ .char c := by
  rintro rfl
  rw [Lexeme.Between, hc] at h
  cases h

theorem Lexeme.Between.ends (h : l.Between) : l.Ends := by
  cases l with
  | comment t => exact h
  | char c => exact fun hslash => h.ne (c := '/') (by decide) (congrArg _ hslash)

theorem plain_of_between (h : ∀ l ∈ ls, l.Between) : Plain ls :=
  fun l hl => ⟨(h l hl).ne (by decide), (h l hl).ne (by decide)⟩

/-- Comments and blanks in front of a part do not matter. -/
theorem directive?_after_between (hp : Lexed p) (h : ∀ l ∈ p, l.Between) (part : Part) :
    (part.after (p.flatMap text)).directive? = part.directive? := by
  cases part with
  | rule prelude block => rfl
  | rest t => rfl
  | statement t =>
    have hlexed : Lexed (p ++ lexemes t) :=
      hp.append (lexed_lexemes t) fun l hl => (h l (List.mem_of_getLast? hl)).ends
    have hlexemes : lexemes (p.flatMap text ++ t) = p ++ lexemes t := by
      rw [← hlexed.lexemes_eq, List.flatMap_append, flatMap_text_lexemes]
    rw [Part.after, Part.directive?, Part.directive?, hlexemes,
      List.dropWhile_append_of_pos fun l hl => (h l hl).isGap]

/-! ### Style sheets in a row -/

/-- The first part behind plain lexemes takes them in. -/
theorem Sheet.after (hp : Plain p) (h : Sheet ms (part :: qs)) :
    Sheet (p ++ ms) (part.after (p.flatMap text) :: qs) := by
  cases h with
  | @rest p' b hp' hb =>
    have hrest := Sheet.rest (hp.append_plain hp') hb
    rwa [List.append_assoc, List.flatMap_append] at hrest
  | @statement p' ls _ hp' hls =>
    have hstatement := Sheet.statement (hp.append_plain hp') hls
    rwa [List.append_assoc, List.append_assoc, List.flatMap_append] at hstatement
  | @rule p' b ls _ hp' hb hls =>
    have hrule := Sheet.rule (hp.append_plain hp') hb hls
    rwa [List.append_assoc, List.flatMap_append] at hrule

/-- A sheet of which nothing is left open is read by itself in front of another one. -/
theorem exists_sheet_append (h : Sheet ls ps) (hlexed : Lexed ls)
    (hfinished : ∀ part ∈ ps, part.Finished) (hms : Sheet ms qs) :
    (∀ l ∈ ls.getLast?, l.Ends) ∧ ∃ rs, Sheet (ls ++ ms) rs ∧
      rs.filterMap Part.directive? = ps.filterMap Part.directive? ++ qs.filterMap Part.directive? := by
  -- Only the last part of the first sheet can meet the second one, and nothing but blanks and comments is
  -- in it.
  induction h with
  | @rest p b hp hb =>
    have hbetween := List.forall_mem_singleton.1 hfinished
    rw [Part.Finished, hlexed.lexemes_eq] at hbetween
    obtain rfl : b = [] := by
      refine hb.resolve_right fun hopen => ?_
      have hbrace := hbetween _ (List.mem_append_right _ (List.mem_of_mem_head? hopen.head))
      exact hbrace.ne (by decide) rfl
    rw [List.append_nil] at hlexed hbetween ⊢
    refine ⟨fun l hl => (hbetween l (List.mem_of_getLast? hl)).ends, ?_⟩
    obtain ⟨part, qs, rfl⟩ : ∃ part qs', qs = part :: qs' := by
      cases hms with
      | rest | statement | rule => exact ⟨_, _, rfl⟩
    refine ⟨_, hms.after hp, ?_⟩
    rw [List.filterMap_cons, directive?_after_between hlexed hbetween, ← List.filterMap_cons]
    rfl
  | @statement p ls parts hp hls ih =>
    rw [List.append_cons] at hlexed ⊢
    obtain ⟨hends, rs, hrs, hdirectives⟩ := ih hlexed.right (List.forall_mem_cons.1 hfinished).2
    have hstatement := Sheet.statement hp hrs
    rw [List.append_cons, ← List.append_assoc] at hstatement
    refine ⟨forall_getLast?_append (ends_of_concat (by decide) p) hends, _, hstatement, ?_⟩
    rw [List.filterMap_cons, List.filterMap_cons, hdirectives]
    split <;> rfl
  | @rule p b ls parts hp hb hls ih =>
    rw [← List.append_assoc] at hlexed ⊢
    obtain ⟨hends, rs, hrs, hdirectives⟩ := ih hlexed.right (List.forall_mem_cons.1 hfinished).2
    have hrule := Sheet.rule hp hb hrs
    rw [← List.append_assoc, ← List.append_assoc] at hrule
    exact ⟨forall_getLast?_append (hb.ends p) hends, _, hrule, hdirectives⟩

/-- The directives of two style sheets in a row, nothing of the first being left open. -/
theorem directives_append (h : Complete cs) (ds : List Char) :
    directives (cs ++ ds) = directives cs ++ directives ds := by
  obtain ⟨hends, rs, hrs, hdirectives⟩ :=
    exists_sheet_append (sheet_parts cs) (lexed_lexemes cs) h (sheet_parts ds)
  have hlexed := (lexed_lexemes cs).append (lexed_lexemes ds) hends
  have hlexemes : lexemes (cs ++ ds) = lexemes cs ++ lexemes ds := by
    rw [← hlexed.lexemes_eq, List.flatMap_append, flatMap_text_lexemes, flatMap_text_lexemes]
  rw [← hlexemes] at hrs
  rw [directives, parts_eq_of_sheet hrs, hdirectives]
  rfl

/-- Comments and blanks hold no part. -/
theorem parts_of_between (hlexed : Lexed ls) (h : ∀ l ∈ ls, l.Between) :
    parts (ls.flatMap text) = [.rest (ls.flatMap text)] := by
  have hsheet : Sheet (ls ++ []) [.rest ((ls ++ []).flatMap text)] := .rest (plain_of_between h) (.inl rfl)
  rw [List.append_nil] at hsheet
  exact parts_eq_of_sheet (hlexed.lexemes_eq.symm ▸ hsheet)

theorem complete_of_between (hlexed : Lexed ls) (h : ∀ l ∈ ls, l.Between) : Complete (ls.flatMap text) := by
  rw [Complete, parts_of_between hlexed h, List.forall_mem_singleton, Part.Finished, hlexed.lexemes_eq]
  exact h

theorem directives_of_between (hlexed : Lexed ls) (h : ∀ l ∈ ls, l.Between) :
    directives (ls.flatMap text) = [] := by
  rw [directives, parts_of_between hlexed h]
  rfl

/-- Blanks as lexemes. -/
theorem Blank.exists_lexed (h : Blank cs) :
    Lexed (cs.map Lexeme.char) ∧ (∀ l ∈ cs.map Lexeme.char, l.Between) ∧
      (cs.map Lexeme.char).flatMap text = cs := by
  refine ⟨?_, List.forall_mem_map.2 h, ?_⟩
  · induction cs with
    | nil => exact .nil
    | cons c cs ih =>
      obtain ⟨hc, hcs⟩ := List.forall_mem_cons.1 h
      exact .cons (Lexeme.Between.ends (l := .char c) hc |>.fits _) (ih hcs)
  · rw [List.flatMap_map]
    exact List.flatMap_singleton' cs

theorem Blank.complete (h : Blank cs) : Complete cs := by
  obtain ⟨hlexed, hbetween, htext⟩ := h.exists_lexed
  exact htext ▸ complete_of_between hlexed hbetween

theorem Blank.directives_eq_nil (h : Blank cs) : directives cs = [] := by
  obtain ⟨hlexed, hbetween, htext⟩ := h.exists_lexed
  exact htext ▸ directives_of_between hlexed hbetween

/-! ### Without repeated rules -/

/-- What is left of repeated rules is blank but for comments. -/
theorem Leads.selector_eq_nil_iff (hg : Leads g) :
    selector (g.flatMap text) = [] ↔ ∀ l ∈ g, l.Between := by
  rw [selector_text hg.lexed hg.closed, squeezedFrom_eq_nil_iff]
  constructor
  · intro h l hl
    cases l with
    | comment t => exact hg.closed t hl
    | char c => exact h c (List.mem_filterMap.2 ⟨.char c, hl, rfl⟩)
  · intro h c hc
    obtain ⟨l, hl, hsome⟩ := List.mem_filterMap.1 hc
    cases l with
    | comment t => cases hsome
    | char d =>
      obtain rfl := Option.some.inj hsome
      exact h _ hl

/-- No directive goes on behind a comment. -/
theorem directiveName?_of_comment {t : List Char} (hclosed : Lexeme.Closed t) (hmem : .comment t ∈ ls) :
    directiveName? (ls.flatMap text) = none := by
  obtain ⟨body, rfl, -⟩ := hclosed
  by_contra hsome
  obtain ⟨core, hcore, hcs⟩ := isSome_directiveName?_iff.1 (Option.isSome_iff_ne_none.2 hsome)
  have hslash : '/' ∈ core ++ [';'] := hcs ▸ List.mem_flatMap.2 ⟨_, hmem, List.mem_cons_self⟩
  rcases List.mem_append.1 hslash with hslash | hslash
  · exact hcore.not_mem (by decide) (by decide) (by decide) hslash
  · cases List.mem_singleton.1 hslash

/-- If more than blanks and comments is left, a comment stays behind the first other character. -/
theorem Leads.exists_comment (hg : Leads g) (h : ¬ ∀ l ∈ g, l.Between) :
    ∃ t, Lexeme.Closed t ∧ .comment t ∈ g.dropWhile Lexeme.isGap := by
  have hsplit : g.takeWhile Lexeme.isGap ++ g.dropWhile Lexeme.isGap = g := List.takeWhile_append_dropWhile
  rcases List.eq_nil_or_concat (g.dropWhile Lexeme.isGap) with hnil | ⟨front, l, hlast⟩
  · rw [hnil, List.append_nil] at hsplit
    refine absurd (fun l hl => ?_) h
    have hgap := List.all_eq_true.1 List.all_takeWhile l (hsplit.symm ▸ hl)
    cases l with
    | comment t => exact hg.closed t hl
    | char c => exact hgap
  · rw [List.concat_eq_append] at hlast
    rw [hlast, ← List.append_assoc] at hsplit
    obtain ⟨t, rfl⟩ := hg.ends l (by rw [← hsplit, List.getLast?_concat]; rfl)
    have hmem : .comment t ∈ g := hsplit ▸ List.mem_append_right _ (List.mem_singleton_self _)
    exact ⟨t, hg.closed t hmem, hlast ▸ List.mem_append_right _ (List.mem_singleton_self _)⟩

/-- What is left of repeated rules hides a directive, unless it is blank but for comments. -/
theorem Leads.directive?_after (hg : Leads g) (part : Part) :
    (part.after (g.flatMap text)).directive? =
      if selector (g.flatMap text) = [] then part.directive? else none := by
  split
  · rename_i h
    exact directive?_after_between hg.lexed (hg.selector_eq_nil_iff.1 h) part
  · rename_i h
    cases part with
    | rule prelude block => rfl
    | rest t => rfl
    | statement t =>
      have hlexemes : lexemes (g.flatMap text ++ t) = g ++ lexemes t := by
        rw [← (hg.lexed_append (lexed_lexemes t)).lexemes_eq, List.flatMap_append, flatMap_text_lexemes]
      obtain ⟨t', hclosed, hmem⟩ := hg.exists_comment fun hbetween => h (hg.selector_eq_nil_iff.2 hbetween)
      have hne : (g.dropWhile Lexeme.isGap).isEmpty = false :=
        List.isEmpty_eq_false_iff_exists_mem.2 ⟨_, hmem⟩
      rw [Part.after, Part.directive?, hlexemes, List.dropWhile_append, hne]
      exact directiveName?_of_comment hclosed (List.mem_append_left _ hmem)

/-- What is left in front of a part may stand there. -/
theorem exists_leads_of_mem {seen : List (List Char)} (hsheet : Sheet ls ps) (hlexed : Lexed ls)
    (hleft : ∀ cs ∈ leftoversFrom seen ps, EndsInComment cs) (hg : Leads g) {x : List Char × Part}
    (hx : x ∈ keptPartsFrom (g.flatMap text) seen ps) : ∃ g', Leads g' ∧ x.1 = g'.flatMap text := by
  induction hsheet generalizing seen g with
  | rest =>
    obtain rfl := List.mem_singleton.1 hx
    exact ⟨g, hg, rfl⟩
  | @statement p ls parts hp hls ih =>
    rw [List.append_cons] at hlexed
    rw [keptPartsFrom, List.mem_cons] at hx
    rcases hx with rfl | hx
    · exact ⟨g, hg, rfl⟩
    · exact ih hlexed.right hleft .nil hx
  | @rule p b ls parts hp hb hls ih =>
    have hne : b ++ ls ≠ [] := fun h => hb.ne_nil (List.append_eq_nil_iff.1 h).1
    rw [leftoversFrom] at hleft
    rw [keptPartsFrom] at hx
    split at hx
    · rename_i hkept
      rw [if_pos hkept] at hleft
      rcases List.mem_cons.1 hx with rfl | hx
      · exact ⟨g, hg, rfl⟩
      · exact ih hlexed.right.right hleft .nil hx
    · rename_i hkept
      rw [if_neg hkept, List.forall_mem_cons] at hleft
      obtain ⟨kept, hleads, hthrough⟩ :=
        exists_leads hlexed.left (fun t ht => hlexed.closed hne ht) hp hleft.1
      rw [hthrough, ← List.flatMap_append] at hx
      exact ih hlexed.right.right hleft.2 (hg.append hleads) hx

/-- The parts that are left, each behind what is left of repeated rules in front of it. -/
theorem parts_withoutRepeats {css : String} (h : ∀ cs ∈ leftovers css, EndsInComment cs) :
    parts (withoutRepeats css).toList = (keptParts css).map fun x => x.2.after x.1 := by
  obtain ⟨ms, hms, htext, hsheet⟩ :=
    exists_sheet_keptPartsFrom (sheet_parts css.toList) (lexed_lexemes _) h .nil
  have htext' : ms.flatMap text = (withoutRepeats css).toList := by
    rw [htext, withoutRepeats, String.toList_ofList]
    rfl
  rw [← hms.lexemes_eq, htext'] at hsheet
  exact parts_eq_of_sheet hsheet

/-- **The directives without repeated rules** are those with nothing but comments and blanks left in front
of them. -/
theorem directives_withoutRepeats {css : String} (h : ∀ cs ∈ leftovers css, EndsInComment cs) :
    directives (withoutRepeats css).toList =
      (keptParts css).filterMap fun x => if selector x.1 = [] then x.2.directive? else none := by
  rw [directives, parts_withoutRepeats h, List.filterMap_map]
  refine List.filterMap_congr fun x hx => ?_
  obtain ⟨g, hg, hlead⟩ := exists_leads_of_mem (sheet_parts css.toList) (lexed_lexemes _) h .nil hx
  have hafter := hg.directive?_after x.2
  rwa [← hlead] at hafter

/-- No directive is among the parts that are dropped. -/
theorem filterMap_directive?_keptPartsFrom (lead : List Char) (seen : List (List Char)) (ps : List Part) :
    (keptPartsFrom lead seen ps).filterMap (·.2.directive?) = ps.filterMap Part.directive? := by
  fun_induction keptPartsFrom lead seen ps with
  | case1 => rfl
  | case2 lead seen prelude block rest hkept ih => exact ih
  | case3 lead seen prelude block rest hkept ih => exact ih
  | case4 lead seen text rest ih => rw [List.filterMap_cons, List.filterMap_cons, ih]
  | case5 lead seen text rest ih => exact ih

end Parts

end WebMigration.Style
