import Mathlib.Data.List.Basic
import WebMigration.Lane.AppRouter.Template
import WebMigration.Proofs.Style.TopLevel
import WebMigration.Proofs.Text.Pieces

/-!
# Directives of merged style sheets

A merged style sheet should have the directives of the text in front of it and no others.  Only
directives alone on their lines are removed from the sheets, so that it has every directive that shares a
line with other text, too.
-/

namespace WebMigration.Style

open Text
open Lexeme (text)
open Pattern (Without)

/-! ### Words in texts -/

section Words

variable {w a b front back cs : List Char} {s : Char}

/-- A word stands in front of a character that it does not have before its end, or behind it. -/
theorem prefix_or_behind (h : a ++ (w ++ b) = front ++ s :: back) (hs : s ∉ w.dropLast) :
    a ++ w <+: front ++ [s] ∨ ∃ a', a = front ++ s :: a' ∧ a' ++ (w ++ b) = back := by
  rw [List.append_cons] at h
  rcases List.append_eq_append_iff.1 h with ⟨as, hfront, hw⟩ | ⟨a', rfl, hback⟩
  · rcases List.append_eq_append_iff.1 hw with ⟨more, rfl, -⟩ | ⟨more, rfl, hback⟩
    · exact .inl ⟨more, by rw [hfront, List.append_assoc]⟩
    · rcases List.eq_nil_or_concat as with rfl | ⟨as, c, rfl⟩
      · exact .inr ⟨[], by simpa using hfront.symm, by simpa using hback.symm⟩
      · rw [List.concat_eq_append] at hfront hs ⊢
        rw [← List.append_assoc] at hfront
        obtain ⟨rfl, hc⟩ := List.append_inj' hfront rfl
        obtain rfl := (List.cons.inj hc).1
        cases more with
        | nil => exact .inl ⟨[], by simp⟩
        | cons x more =>
          refine absurd ?_ hs
          rw [List.dropLast_append_of_ne_nil (List.cons_ne_nil x more)]
          simp
  · exact .inr ⟨a', by rw [List.append_assoc]; rfl, hback.symm⟩

theorem infix_or_behind (h : w <:+: front ++ s :: back) (hs : s ∉ w.dropLast) :
    w <:+: front ++ [s] ∨ w <:+: back := by
  obtain ⟨a, b, h⟩ := h
  rw [List.append_assoc] at h
  rcases prefix_or_behind h hs with h | ⟨a', -, rfl⟩
  · exact .inl ((List.suffix_append a w).isInfix.trans h.isInfix)
  · exact .inr ⟨a', b, by rw [List.append_assoc]⟩

/-- A word stands in front of a character that it does not have, or behind it. -/
theorem infix_of_not_mem (h : w <:+: front ++ s :: back) (hs : s ∉ w) (hne : w ≠ []) :
    w <:+: front ∨ w <:+: back := by
  refine (infix_or_behind h fun hmem => hs ((List.dropLast_prefix w).subset hmem)).imp_left fun h => ?_
  refine (List.infix_concat_iff.1 h).resolve_left fun hsuffix => ?_
  obtain ⟨w, c, rfl⟩ := (List.eq_nil_or_concat w).resolve_left hne
  obtain ⟨a, ha⟩ := hsuffix
  rw [List.concat_eq_append] at ha hs
  rw [← List.append_assoc] at ha
  obtain rfl := (List.cons.inj (List.append_inj' ha rfl).2).1
  exact hs (List.mem_append_right _ (List.mem_singleton_self _))

theorem infix_of_cons (h : w <:+: s :: back) (hs : s ∉ w) (hne : w ≠ []) : w <:+: back := by
  rw [← List.nil_append (s :: back)] at h
  exact (infix_of_not_mem h hs hne).resolve_left fun hnil => hne (List.infix_nil.1 hnil)

/-- A word starts behind characters other than its first. -/
theorem infix_of_head (h : s :: w <:+: front ++ back) (hs : s ∉ front) : s :: w <:+: back := by
  induction front with
  | nil => exact h
  | cons c front ih =>
    rw [List.mem_cons, not_or] at hs
    refine ih ((List.infix_cons_iff.1 h).resolve_left fun hprefix => ?_) hs.2
    exact hs.1 (List.cons_prefix_cons.1 hprefix).1

/-- A word ends in front of characters other than its last. -/
theorem infix_of_last (h : w ++ [s] <:+: front ++ back) (hs : s ∉ back) : w ++ [s] <:+: front := by
  rw [← List.reverse_infix, List.reverse_append, List.reverse_append] at h
  rw [← List.reverse_infix, List.reverse_append]
  exact infix_of_head h fun hmem => hs (List.mem_reverse.1 hmem)

theorem prefix_of_last (h : a ++ [s] <+: front ++ back) (hs : s ∉ back) : a ++ [s] <+: front := by
  rcases List.prefix_or_prefix_of_prefix h (List.prefix_append front back) with h' | ⟨d, hd⟩
  · exact h'
  · rcases List.eq_nil_or_concat d with rfl | ⟨d, c, rfl⟩
    · rw [List.append_nil] at hd
      exact hd ▸ List.prefix_rfl
    · rw [← hd, List.prefix_append_right_inj] at h
      rw [List.concat_eq_append] at h hd
      rw [← List.append_assoc] at hd
      obtain rfl := (List.cons.inj (List.append_inj' hd rfl).2).1
      exact absurd (h.subset (List.mem_append_right _ (List.mem_singleton_self _))) hs

end Words

/-! ### Style sheets in a row -/

/-- A style sheet without directives alone on their lines and without blanks at its ends. -/
def cleaned (css : String) : String := strip (directiveLine.removeAll css)

/-- Style sheets in a row, each under its header. -/
def joined (sheets : List (String × String)) : String := join "\n" (sheets.map headed)

section Joined

variable {sheet : String × String} {sheets : List (String × String)} {path core : List Char}

/-- A header as lexemes. -/
def header (path : List Char) : List Lexeme :=
  [.comment ('/' :: '*' :: (" From ".toList ++ path ++ " */".toList)), .char '\n']

theorem afterComment?_path (h : afterComment? path = none) :
    afterComment? (path ++ " */".toList) = some [] := by
  fun_induction afterComment? path with
  | case1 => cases h
  | case2 c cs hend ih =>
    rw [List.cons_append, afterComment?.eq_2 _ _ ?_]
    · exact ih h
    · rintro more rfl hcs
      cases cs with
      | nil => cases hcs
      | cons d cs => exact hend cs rfl (by rw [(List.cons.inj hcs).1])
  | case3 => rfl

theorem between_header (h : afterComment? path = none) : ∀ l ∈ header path, l.Between := by
  have hpath : afterComment? (" From ".toList ++ path) = none := by
    have hfrom : " From ".toList = [' ', 'F', 'r', 'o', 'm', ' '] := rfl
    simpa [hfrom, afterComment?] using h
  refine List.forall_mem_cons.2 ⟨⟨_, rfl, afterComment?_path hpath⟩, ?_⟩
  exact List.forall_mem_singleton.2 (by decide : isSpace '\n' = true)

theorem lexed_header (h : afterComment? path = none) : Lexed (header path) := by
  have hbetween := between_header h
  refine .cons ((hbetween _ List.mem_cons_self).ends.fits _) (.cons ?_ .nil)
  exact (hbetween _ (.tail _ List.mem_cons_self)).ends.fits _

theorem toList_joined_cons (sheet : String × String) (sheets : List (String × String)) :
    (joined (sheet :: sheets)).toList =
      (header sheet.1.toList).flatMap text ++ ((cleaned sheet.2).toList ++
        ('\n' :: if sheets = [] then [] else '\n' :: (joined sheets).toList)) := by
  have hheaded : (headed sheet).toList =
      (header sheet.1.toList).flatMap text ++ ((cleaned sheet.2).toList ++ ['\n']) := by
    have hstart : "/* From ".toList = '/' :: '*' :: " From ".toList := rfl
    have hend : " */\n".toList = " */".toList ++ ['\n'] := rfl
    have hline : "\n".toList = ['\n'] := rfl
    simp only [headed, cleaned, header, String.toList_append, List.flatMap_cons, List.flatMap_nil,
      Lexeme.text_comment, Lexeme.text_char, List.append_assoc, List.append_nil, List.cons_append,
      hstart, hend, hline]
  cases sheets with
  | nil =>
    rw [joined, join, List.map_singleton, String.toList_intercalate, List.map_singleton,
      List.intercalate_singleton, hheaded, if_pos rfl]
  | cons next rest =>
    rw [joined, joined, join, join, String.toList_intercalate, String.toList_intercalate, List.map_cons,
      List.map_cons, List.map_cons, List.map_cons, List.intercalate_cons_cons, hheaded,
      if_neg (List.cons_ne_nil _ _)]
    simp

/-- The directives of sheets under headers are those of the sheets. -/
theorem directives_joined (h : ∀ s ∈ sheets, afterComment? s.1.toList = none ∧
    Complete (cleaned s.2).toList) :
    directives (joined sheets).toList = sheets.flatMap fun s => directives (cleaned s.2).toList := by
  have hline : Blank ['\n'] := by simp [Blank]; decide
  induction sheets with
  | nil => exact Blank.nil.directives_eq_nil
  | cons sheet sheets ih =>
    obtain ⟨⟨hpath, hsheet⟩, hsheets⟩ := List.forall_mem_cons.1 h
    have hheader := lexed_header hpath
    have hbetween := between_header hpath
    rw [toList_joined_cons, directives_append (complete_of_between hheader hbetween),
      directives_of_between hheader hbetween, List.nil_append, directives_append hsheet, List.flatMap_cons]
    congr 1
    split
    · rename_i hnil
      rw [hnil]
      exact hline.directives_eq_nil
    · have hlines : Blank ['\n', '\n'] := hline.append hline
      rw [← ih hsheets]
      have happend := directives_append hlines.complete (joined sheets).toList
      rwa [hlines.directives_eq_nil, List.nil_append] at happend

/-- A word without marks of comments is in a sheet under its header or in the path of one. -/
theorem infix_joined {w : List Char} (hslash : '/' ∉ w) (hstar : '*' ∉ w) (hne : w ≠ [])
    (h : w <:+: (joined sheets).toList) :
    ∃ s ∈ sheets, w <:+: " From ".toList ++ s.1.toList ++ [' '] ∨
      w <:+: ['\n'] ++ (cleaned s.2).toList ++ ['\n', '\n'] := by
  -- The marks of comments divide the joined text, and the word does not reach over one.
  induction sheets with
  | nil => exact absurd (List.infix_nil.1 h) hne
  | cons sheet sheets ih =>
    have hfirst : (joined (sheet :: sheets)).toList =
        '/' :: '*' :: (" From ".toList ++ sheet.1.toList ++ [' '] ++ '*' :: '/' ::
          ('\n' :: (cleaned sheet.2).toList ++
            ('\n' :: if sheets = [] then [] else '\n' :: (joined sheets).toList))) := by
      have hend : " */".toList = [' ', '*', '/'] := rfl
      rw [toList_joined_cons, header, hend]
      simp
    rw [hfirst] at h
    have hbehind := infix_of_cons (infix_of_cons h hslash hne) hstar hne
    rcases infix_of_not_mem hbehind hstar hne with hpath | hbody
    · exact ⟨sheet, List.mem_cons_self, .inl hpath⟩
    have hbody := infix_of_cons hbody hslash hne
    cases sheets with
    | nil =>
      refine ⟨sheet, List.mem_cons_self, .inr (hbody.trans ⟨[], ['\n'], ?_⟩)⟩
      simp
    | cons next rest =>
      rw [if_neg (List.cons_ne_nil _ _)] at hbody
      obtain ⟨more, hmore⟩ : ∃ more, (joined (next :: rest)).toList = '/' :: more := by
        rw [toList_joined_cons]
        exact ⟨_, rfl⟩
      have hsplit : '\n' :: (cleaned sheet.2).toList ++ '\n' :: '\n' :: (joined (next :: rest)).toList =
          ('\n' :: (cleaned sheet.2).toList ++ ['\n', '\n']) ++ '/' :: more := by
        rw [hmore]
        simp
      rw [hsplit] at hbody
      rcases infix_of_not_mem hbody hslash hne with hhere | hlater
      · exact ⟨sheet, List.mem_cons_self, .inr hhere⟩
      · obtain ⟨s, hs, hw⟩ := ih (hmore ▸ hlater.trans (List.suffix_cons _ _).isInfix)
        exact ⟨s, .tail _ hs, hw⟩

end Joined

/-! ### Directives that are left -/

/-- A directive outside of comments and blocks ends behind the characters. -/
def DirectiveEnds (css before : List Char) : Prop :=
  ∃ front part back, parts css = front ++ part :: back ∧ part.directive?.isSome ∧
    before = front.flatMap Part.text ++ part.text

/-- Of the sheet a semicolon is left that does not end a directive alone on its lines.  Without such
directives the core stands in front of it. -/
def Leaves (css core : List Char) : Prop :=
  ∃ before after front, css = before ++ ';' :: after ∧ ¬ EndsAlone before after ∧
    Without IsDirective before (front ++ core)

section Left

variable {css before cs kept k k' core : List Char} {sheets : List (String × String)} {ls : List Lexeme}
  {ps : List Part} {seen : List (List Char)}

/-- A directive without its semicolon has no character that ends a part or a comment. -/
structure Bounded (core : List Char) : Prop where
  slash : '/' ∉ core
  star : '*' ∉ core
  semicolon : ';' ∉ core
  brace : '\x7d' ∉ core

theorem IsCore.bounded (h : IsCore core) : Bounded core where
  slash := h.not_mem (by decide) (by decide) (by decide)
  star := h.not_mem (by decide) (by decide) (by decide)
  semicolon := h.not_mem (by decide) (by decide) (by decide)
  brace := h.not_mem (by decide) (by decide) (by decide)

theorem DirectiveEnds.exists_core (h : DirectiveEnds css before) :
    ∃ front core, IsCore core ∧ before = front ++ (core ++ [';']) ∧ before <+: css := by
  obtain ⟨front, part, back, hparts, hsome, rfl⟩ := h
  have hprefix : front.flatMap Part.text ++ part.text <+: css := by
    rw [← flatMap_text_parts css, hparts, List.flatMap_append, List.flatMap_cons, ← List.append_assoc]
    exact List.prefix_append _ _
  cases part with
  | rule prelude block => cases hsome
  | rest t => cases hsome
  | statement t =>
    obtain ⟨core, hcore, htext⟩ := isSome_directiveName?_iff.1 hsome
    refine ⟨front.flatMap Part.text ++ ((lexemes t).takeWhile Lexeme.isGap).flatMap text, core, hcore, ?_,
      hprefix⟩
    rw [List.append_assoc, ← htext, ← List.flatMap_append, List.takeWhile_append_dropWhile,
      flatMap_text_lexemes]
    rfl

/-- A semicolon that is left of a sheet did not end a directive alone on its lines. -/
theorem Cleaned.exists_semicolon (h : Cleaned before cs kept) (hkept : kept = k ++ ';' :: k') :
    ∃ a b, cs = a ++ ';' :: b ∧ ¬ EndsAlone (before ++ a) b ∧ Without IsDirective a k := by
  induction h generalizing k with
  | nil => simp at hkept
  | @keep before cs kept x hx _ ih =>
    cases k with
    | nil =>
      obtain ⟨rfl, rfl⟩ := List.cons.inj hkept
      exact ⟨[], cs, rfl, (List.append_nil before).symm ▸ hx rfl, .nil⟩
    | cons y k =>
      obtain ⟨rfl, hrest⟩ := List.cons.inj hkept
      obtain ⟨a, b, rfl, halone, hwithout⟩ := ih hrest
      exact ⟨x :: a, b, rfl, by rwa [List.append_assoc] at halone, .keep x hwithout⟩
  | @remove before m cs kept hm _ _ _ ih =>
    obtain ⟨a, b, rfl, halone, hwithout⟩ := ih hkept
    exact ⟨m ++ a, b, by rw [List.append_assoc], by rwa [List.append_assoc] at halone,
      .remove hm hwithout⟩

theorem leaves_of_cleaned {content : String} (h : core ++ [';'] <:+: (cleaned content).toList) :
    Leaves content.toList core := by
  obtain ⟨front, back, hkept⟩ := h.trans (strip_isInfix _)
  have hsplit : (directiveLine.removeAll content).toList = (front ++ core) ++ ';' :: back := by
    simp [← hkept]
  obtain ⟨a, b, hcontent, halone, hwithout⟩ := (cleaned_removeAll content).exists_semicolon hsplit
  exact ⟨a, b, front, hcontent, halone, hwithout⟩

theorem throughLastComment_cases (cs : List Char) :
    throughLastComment cs = [] ∨ ∃ front, throughLastComment cs = front ++ ['/'] := by
  unfold throughLastComment
  split
  · exact .inr ⟨_, (List.append_assoc _ ['*'] ['/']).symm⟩
  · exact .inl rfl

/-- No directive is put together from parts that are kept. -/
theorem infix_part_of_keptFrom (hcore : Bounded core) (hsheet : Sheet ls ps)
    (h : core ++ [';'] <:+: (keptFrom seen ps).flatten) : ∃ part ∈ ps, core ++ [';'] <:+: part.text := by
  have hlast {s : Char} (hs : s ∉ core) : s ∉ (core ++ [';']).dropLast := by
    rwa [List.dropLast_concat]
  -- A part ends with a semicolon, a brace or the slash of a comment.  None of them is in a directive before
  -- its own end, so that it does not reach from one part into the next.
  induction hsheet generalizing seen with
  | rest => exact ⟨_, List.mem_cons_self, by simpa [keptFrom] using h⟩
  | @statement p ls parts hp hls ih =>
    have htext : (p ++ [Lexeme.char ';']).flatMap text = p.flatMap text ++ [';'] := List.flatMap_append
    rw [keptFrom, List.flatten_cons, Part.text, htext, List.append_assoc] at h
    · rcases infix_or_behind h (hlast hcore.semicolon) with hhere | hlater
      · exact ⟨_, List.mem_cons_self, htext ▸ hhere⟩
      · obtain ⟨part, hpart, hinfix⟩ := ih hlater
        exact ⟨part, .tail _ hpart, hinfix⟩
    · rintro _ _ ⟨⟩
  | @rule p b ls parts hp hb hls ih =>
    have hlater : ∀ {seen}, core ++ [';'] <:+: (keptFrom seen parts).flatten →
        ∃ part ∈ Part.rule (p.flatMap text) (b.flatMap text) :: parts, core ++ [';'] <:+: part.text := by
      intro seen h
      obtain ⟨part, hpart, hinfix⟩ := ih h
      exact ⟨part, .tail _ hpart, hinfix⟩
    rw [keptFrom_rule] at h
    split at h
    · obtain ⟨inner, rfl⟩ := hb.exists_concat
      have htext : p.flatMap text ++ (inner ++ [Lexeme.char '\x7d']).flatMap text =
          p.flatMap text ++ inner.flatMap text ++ ['\x7d'] := by simp
      rw [List.flatten_cons, htext, List.append_assoc] at h
      rcases infix_or_behind h (hlast hcore.brace) with hhere | h
      · exact ⟨_, List.mem_cons_self, by rwa [Part.text, htext]⟩
      · exact hlater h
    · rw [List.flatten_cons] at h
      rcases throughLastComment_cases (p.flatMap text) with hnone | ⟨front, hfront⟩
      · rw [hnone] at h
        exact hlater h
      · rw [hfront, List.append_assoc] at h
        rcases infix_or_behind h (hlast hcore.slash) with hhere | h
        · refine ⟨_, List.mem_cons_self, hhere.trans ?_⟩
          rw [← hfront]
          exact (prefix_throughLastComment _).isInfix.trans (List.prefix_append _ _).isInfix
        · exact hlater h

theorem infix_of_withoutRepeats {css : String} (hcore : Bounded core)
    (h : core ++ [';'] <:+: (withoutRepeats css).toList) : core ++ [';'] <:+: css.toList := by
  rw [withoutRepeats, String.toList_ofList] at h
  obtain ⟨part, hpart, hinfix⟩ := infix_part_of_keptFrom hcore (sheet_parts css.toList) h
  refine hinfix.trans ?_
  obtain ⟨front, back, hparts⟩ := List.append_of_mem hpart
  rw [← flatMap_text_parts css.toList, hparts, List.flatMap_append, List.flatMap_cons]
  exact List.infix_append' _ _ _

/-- A directive starts with its at sign and ends with its semicolon. -/
theorem IsCore.infix_between {front middle back : List Char} (hcore : IsCore core)
    (h : core ++ [';'] <:+: front ++ middle ++ back) (hfront : '@' ∉ front) (hback : ';' ∉ back) :
    core ++ [';'] <:+: middle := by
  obtain ⟨more, rfl⟩ := hcore.exists_cons
  exact infix_of_head (infix_of_last h hback) hfront

/-- A directive in merged sheets is left of one of them, or it is in a path. -/
theorem exists_leaves (hcore : IsCore core) (h : core ++ [';'] <:+: (withoutRepeats (joined sheets)).toList) :
    ∃ s ∈ sheets, Leaves s.2.toList core ∨ core ++ [';'] <:+: s.1.toList := by
  have hbounded := hcore.bounded
  have hslash : '/' ∉ core ++ [';'] := by simpa using hbounded.slash
  have hstar : '*' ∉ core ++ [';'] := by simpa using hbounded.star
  obtain ⟨s, hs, hpath | hsheet⟩ := infix_joined hslash hstar (by simp) (infix_of_withoutRepeats hbounded h)
  · exact ⟨s, hs, .inr (hcore.infix_between hpath (by decide) (by decide))⟩
  · exact ⟨s, hs, .inl (leaves_of_cleaned (hcore.infix_between hsheet (by decide) (by decide)))⟩

end Left

/-! ### Directives that are not alone -/

section Stays

variable {before cs kept m w a b core : List Char}

/-- A directive has no second at sign, and no semicolon before its end. -/
theorem IsCore.exists_unique_at (h : IsCore core) : ∃ w, core = '@' :: w ∧ '@' ∉ w ∧ ';' ∉ w := by
  obtain ⟨gap, name, after, -, hgap, -, hname, hafter, rfl⟩ := h
  have htailwind : ∀ c ∈ "tailwind".toList, isNameChar c = true := List.all_eq_true.1 (by decide)
  have hall : ∀ c ∈ "tailwind".toList ++ (gap ++ (name ++ after)), isSpace c = true ∨ isNameChar c = true := by
    simp only [List.mem_append]
    rintro c (hc | hc | hc | hc)
    · exact .inr (htailwind c hc)
    · exact .inl (hgap c hc)
    · exact .inr (hname c hc)
    · exact .inl (hafter c hc)
  refine ⟨_, rfl, fun hat => ?_, fun hsemicolon => ?_⟩
  · exact absurd (hall _ hat) (by decide)
  · exact absurd (hall _ hsemicolon) (by decide)

/-- Where a directive is removed, its at sign stands in front of its semicolon. -/
theorem IsDirective.append_ne (hm : IsDirective m) (hw : '@' ∉ w) : m ++ cs ≠ w ++ ';' :: b := by
  obtain ⟨lead, core, trail, hlead, hcore, -, rfl⟩ := isDirective_iff.1 hm
  obtain ⟨more, rfl⟩ := hcore.exists_cons
  intro heq
  rw [List.append_assoc, List.cons_append, List.cons_append] at heq
  rcases List.append_eq_append_iff.1 heq with ⟨as, rfl, hat⟩ | ⟨bs, rfl, hsemicolon⟩
  · cases as with
    | nil => cases (List.cons.inj hat).1
    | cons c as =>
      obtain rfl := (List.cons.inj hat).1
      exact hw (List.mem_append_right _ List.mem_cons_self)
  · cases bs with
    | nil => cases (List.cons.inj hsemicolon).1
    | cons c bs =>
      obtain rfl := (List.cons.inj hsemicolon).1
      exact hlead.not_mem (by decide) (List.mem_append_right _ List.mem_cons_self)

/-- Characters behind an at sign stay up to a semicolon. -/
theorem Cleaned.exists_kept (h : Cleaned before cs kept) (hcs : cs = w ++ ';' :: b) (hw : '@' ∉ w) :
    ∃ kept', kept = w ++ ';' :: kept' := by
  induction h generalizing w with
  | nil => simp at hcs
  | @keep before cs kept x _ _ ih =>
    cases w with
    | nil =>
      obtain ⟨rfl, -⟩ := List.cons.inj hcs
      exact ⟨kept, rfl⟩
    | cons y w =>
      obtain ⟨rfl, hrest⟩ := List.cons.inj hcs
      obtain ⟨kept', rfl⟩ := ih hrest fun hmem => hw (.tail _ hmem)
      exact ⟨kept', rfl⟩
  | remove hm => exact absurd hcs (hm.append_ne hw)

/-- Characters up to the first semicolon. -/
theorem eq_of_append_semicolon {w' b' : List Char} (hw : ';' ∉ w) (hw' : ';' ∉ w')
    (h : w ++ ';' :: b = w' ++ ';' :: b') : w = w' ∧ b = b' := by
  have hsplit : ∀ {w b : List Char}, ';' ∉ w →
      (w ++ ';' :: b).takeWhile (· != ';') = w ∧ (w ++ ';' :: b).dropWhile (· != ';') = ';' :: b := by
    intro w b hw
    refine takeWhile_dropWhile_append (fun c hc => bne_iff_ne.2 fun heq => hw (heq ▸ hc)) ?_
    simp
  obtain ⟨hfront, hback⟩ := @hsplit w b hw
  rw [h] at hfront hback
  exact ⟨hfront.symm.trans (hsplit hw').1, (List.cons.inj (hback.symm.trans (hsplit hw').2)).2⟩

/-- A directive that is not alone on its lines stays. -/
theorem Cleaned.infix_of_not_endsAlone (h : Cleaned before cs kept) (hcs : cs = a ++ (core ++ ';' :: b))
    (hcore : IsCore core) (halone : ¬ EndsAlone (before ++ (a ++ core)) b) : core ++ [';'] <:+: kept := by
  obtain ⟨w, rfl, hat, hsemicolon⟩ := hcore.exists_unique_at
  induction h generalizing a with
  | nil => simp at hcs
  | @keep before cs kept x hx hlater ih =>
    cases a with
    | nil =>
      obtain ⟨rfl, rfl⟩ := List.cons.inj hcs
      obtain ⟨kept', rfl⟩ := hlater.exists_kept rfl hat
      exact ⟨[], kept', by simp⟩
    | cons y a =>
      obtain ⟨rfl, hrest⟩ := List.cons.inj hcs
      have hinfix := ih hrest (by simpa using halone)
      exact hinfix.trans (List.suffix_cons _ _).isInfix
  | @remove before m cs kept hm hstart hend hlater ih =>
    rcases List.append_eq_append_iff.1 hcs with ⟨a', rfl, hrest⟩ | ⟨d, rfl, hd⟩
    · exact ih hrest (by simpa using halone)
    · -- The directive that is removed is this one, so that it is alone on its lines.
      obtain ⟨lead, core, trail, hlead, hcore', htrail, hm⟩ := isDirective_iff.1 hm
      obtain ⟨w', rfl, hat', hsemicolon'⟩ := hcore'.exists_unique_at
      cases d with
      | nil =>
        rw [List.nil_append] at hd
        rw [← hd] at hend
        rcases hend with hend | hend
        · cases hend
        · cases hend
      | cons y d =>
        obtain ⟨rfl, hrest⟩ := List.cons.inj hd
        have hbehind : '@' ∉ w' ++ ';' :: trail := by
          simp only [List.mem_append, List.mem_cons, not_or]
          exact ⟨hat', by decide, htrail.not_mem (by decide)⟩
        obtain ⟨rfl, -, rfl⟩ :=
          (List.append_cons_inj_of_notMem (hlead.not_mem (by decide)) hbehind).1 hm.symm
        have hsplit : w ++ ';' :: b = w' ++ ';' :: (trail ++ cs) := by simpa using hrest
        obtain ⟨rfl, rfl⟩ := eq_of_append_semicolon hsemicolon hsemicolon' hsplit
        exact absurd ⟨before, lead, _, trail, cs, rfl, hstart, hlead, hcore, rfl, htrail, hend⟩ halone

/-- A sheet keeps a directive that is not alone on its lines, also among others. -/
theorem infix_joined_of_not_endsAlone {sheets : List (String × String)} {s : String × String}
    (hs : s ∈ sheets) (hsheet : s.2.toList = a ++ (core ++ ';' :: b)) (hcore : IsCore core)
    (halone : ¬ EndsAlone (a ++ core) b) : core ++ [';'] <:+: (joined sheets).toList := by
  have hremoved := (cleaned_removeAll s.2).infix_of_not_endsAlone hsheet hcore halone
  have hcleaned : core ++ [';'] <:+: (cleaned s.2).toList := by
    have hfront := List.takeWhile_append_dropWhile (p := isSpace) (l := (directiveLine.removeAll s.2).toList)
    obtain ⟨back, hback, hmiddle⟩ := exists_append_dropEndWhile isSpace
      ((directiveLine.removeAll s.2).toList.dropWhile isSpace)
    rw [← hfront, hmiddle, ← List.append_assoc] at hremoved
    have hblank : Blank ((directiveLine.removeAll s.2).toList.takeWhile isSpace) :=
      List.all_eq_true.1 List.all_takeWhile
    rw [cleaned, strip, String.toList_ofList]
    exact hcore.infix_between hremoved (hblank.not_mem (by decide)) (Blank.not_mem hback (by decide))
  have hheaded : (headed s).toList ∈ (sheets.map headed).map String.toList :=
    List.mem_map_of_mem (List.mem_map_of_mem hs)
  have hbody : (cleaned s.2).toList <:+: (headed s).toList := by
    simp only [headed, String.toList_append]
    exact ⟨_, _, rfl⟩
  rw [joined, join, String.toList_intercalate]
  exact hcleaned.trans (hbody.trans (infix_intercalate hheaded))

end Stays

/-! ### The merged sheet -/

section Merged

variable {sheets : List (String × String)} {prelude : String} {before : List Char}

/-- A merged sheet starts with the text in front of it, but for the blanks at its end. -/
theorem exists_toList_merge (sheets : List (String × String)) (prelude : String) :
    ∃ gap, Blank gap ∧ (merge sheets prelude).toList =
      (stripEnd prelude).toList ++ (gap ++ (withoutRepeats (joined sheets)).toList) := by
  unfold merge
  dsimp only
  split
  · rename_i hempty
    rw [String.isEmpty_iff] at hempty
    exact ⟨[], .nil, by rw [hempty]; rfl⟩
  · refine ⟨['\n', '\n'], ?_, ?_⟩
    · simp [Blank]
      decide
    · rw [String.toList_append, String.toList_append, List.append_assoc]
      rfl

theorem directives_stripEnd (h : Complete (stripEnd prelude).toList) :
    directives prelude.toList = directives (stripEnd prelude).toList := by
  obtain ⟨back, hback, hprelude⟩ := exists_append_dropEndWhile isSpace prelude.toList
  have hback : Blank back := hback
  have happend := directives_append h back
  rw [stripEnd, String.toList_ofList, ← hprelude, hback.directives_eq_nil, List.append_nil] at happend
  rw [happend, stripEnd, String.toList_ofList]

/-- Behind a complete text the merged sheets are read as they stand. -/
theorem directives_merge (sheets : List (String × String)) (h : Complete (stripEnd prelude).toList) :
    directives (merge sheets prelude).toList =
      directives prelude.toList ++ directives (withoutRepeats (joined sheets)).toList := by
  obtain ⟨gap, hgap, hmerge⟩ := exists_toList_merge sheets prelude
  rw [hmerge, directives_append h, directives_append hgap.complete, hgap.directives_eq_nil,
    List.nil_append, directives_stripEnd h]

/-- Of a style sheet the first character stays. -/
theorem head?_keptFrom {ls : List Lexeme} {ps : List Part} (h : Sheet ls ps) :
    (keptFrom [] ps).flatten.head? = (ls.flatMap text).head? := by
  cases h with
  | rest => simp [keptFrom, Part.text]
  | @statement p ls parts hp hls =>
    have hne : (p ++ [Lexeme.char ';']).flatMap text ≠ [] := by simp
    have hsplit : (p ++ Lexeme.char ';' :: ls).flatMap text =
        (p ++ [Lexeme.char ';']).flatMap text ++ ls.flatMap text := by simp
    rw [hsplit, keptFrom, List.flatten_cons, Part.text, List.head?_append_of_ne_nil _ hne,
      List.head?_append_of_ne_nil _ hne]
    rintro _ _ ⟨⟩
  | @rule p b ls parts hp hb hls =>
    have hne : (p ++ b).flatMap text ≠ [] := by
      obtain ⟨inner, rfl⟩ := hb.exists_concat
      simp
    have hsplit : (p ++ (b ++ ls)).flatMap text = (p ++ b).flatMap text ++ ls.flatMap text := by simp
    rw [hsplit, keptFrom_rule, if_pos (.inr List.not_mem_nil), List.flatten_cons, ← List.flatMap_append,
      List.head?_append_of_ne_nil _ hne, List.head?_append_of_ne_nil _ hne]

/-- Merged sheets start with the mark of a comment. -/
theorem withoutRepeats_joined (sheets : List (String × String)) :
    (withoutRepeats (joined sheets)).toList = [] ∨
      ∃ more, (withoutRepeats (joined sheets)).toList = '/' :: more := by
  have hhead : (withoutRepeats (joined sheets)).toList.head? = (joined sheets).toList.head? := by
    rw [withoutRepeats, String.toList_ofList, head?_keptFrom (sheet_parts _), flatMap_text_lexemes]
  cases sheets with
  | nil => exact .inl (List.head?_eq_none_iff.1 hhead)
  | cons sheet sheets =>
    rw [toList_joined_cons] at hhead
    exact .inr (List.head?_eq_some_iff.1 hhead)

/-- A directive of the merged sheet stands in the text in front of the sheets, or it is left of a sheet or
in a path. -/
theorem DirectiveEnds.prefix_or_leaves (h : DirectiveEnds (merge sheets prelude).toList before) :
    ∃ core, IsCore core ∧ core ++ [';'] <:+ before ∧
      (before <+: prelude.toList ∨
        ∃ s ∈ sheets, Leaves s.2.toList core ∨ core ++ [';'] <:+: s.1.toList) := by
  obtain ⟨front, core, hcore, rfl, hprefix⟩ := h.exists_core
  refine ⟨core, hcore, List.suffix_append _ _, ?_⟩
  obtain ⟨gap, hgap, hmerge⟩ := exists_toList_merge sheets prelude
  have hstart : (stripEnd prelude).toList <+: prelude.toList := by
    rw [stripEnd, String.toList_ofList]
    exact dropEndWhile_isPrefix _ _
  have hsemicolon := hgap.not_mem (c := ';') (by decide)
  rw [hmerge] at hprefix
  rcases withoutRepeats_joined sheets with hnone | ⟨more, hmore⟩
  · rw [hnone, List.append_nil, ← List.append_assoc] at hprefix
    exact .inl (List.append_assoc front core _ ▸ (prefix_of_last hprefix hsemicolon).trans hstart)
  · obtain ⟨back, hback⟩ := hprefix
    have hsplit : front ++ ((core ++ [';']) ++ back) = (stripEnd prelude).toList ++ gap ++ '/' :: more := by
      simpa [hmore] using hback
    rcases prefix_or_behind hsplit (by simpa using hcore.bounded.slash) with hhere | ⟨a, -, hbehind⟩
    · rw [List.append_assoc, ← List.append_assoc] at hhere
      refine .inl (List.append_assoc front core _ ▸ (prefix_of_last hhere ?_).trans hstart)
      simpa using hsemicolon
    · refine .inr (exists_leaves hcore ?_)
      rw [hmore, ← hbehind]
      exact ⟨'/' :: a, back, by simp⟩

open Lane.AppRouter (styleDirectives)

/-- The directives of the text in front of the sheets of a migrated site. -/
theorem directives_styleDirectives :
    directives styleDirectives.toList = ["base".toList, "components".toList, "utilities".toList] := by
  decide +kernel

/-- **The directives of a merged style sheet.**  Behind a complete text they are those of the text exactly
if every directive of the sheets, read in a row, is hidden by what is left of repeated rules.  When nothing
but comments and blanks is left of those and each sheet is complete, they are those of the text and those
that each sheet keeps.  In any case a directive that does not stand in the text ends with a semicolon of a
sheet that does not end a directive alone on its lines, or stands in a path; and every directive of a sheet
that is not alone on its lines is kept. -/
theorem directives_merge_iff (sheets : List (String × String)) (prelude : String) :
    (Complete (stripEnd prelude).toList → (∀ cs ∈ leftovers (joined sheets), EndsInComment cs) →
      (directives (merge sheets prelude).toList = directives prelude.toList ↔
        ∀ x ∈ keptParts (joined sheets), x.2.directive?.isSome → selector x.1 ≠ []) ∧
      ((∀ s ∈ sheets, afterComment? s.1.toList = none ∧ Complete (cleaned s.2).toList) →
        (∀ x ∈ keptParts (joined sheets), selector x.1 = []) →
        directives (merge sheets prelude).toList =
          directives prelude.toList ++ sheets.flatMap fun s => directives (cleaned s.2).toList)) ∧
    (∀ before, DirectiveEnds (merge sheets prelude).toList before →
      ∃ core, IsCore core ∧ core ++ [';'] <:+ before ∧
        (before <+: prelude.toList ∨
          ∃ s ∈ sheets, Leaves s.2.toList core ∨ core ++ [';'] <:+: s.1.toList)) ∧
    (∀ s ∈ sheets, ∀ a core b, s.2.toList = a ++ (core ++ ';' :: b) → IsCore core →
      ¬ EndsAlone (a ++ core) b → core ++ [';'] <:+: (joined sheets).toList) ∧
    directives styleDirectives.toList = ["base".toList, "components".toList, "utilities".toList] := by
  refine ⟨fun hprelude hleft => ?_, fun before h => h.prefix_or_leaves,
    fun s hs a core b hsheet hcore => infix_joined_of_not_endsAlone hs hsheet hcore,
    directives_styleDirectives⟩
  have hdirectives := directives_merge sheets hprelude
  rw [directives_withoutRepeats hleft] at hdirectives
  constructor
  · rw [hdirectives, List.append_right_eq_self, List.filterMap_eq_nil_iff]
    refine forall₂_congr fun x _ => ?_
    by_cases hselector : selector x.1 = [] <;> simp [hselector]
  · intro hsheets hblank
    have hall : (keptParts (joined sheets)).filterMap
        (fun x => if selector x.1 = [] then x.2.directive? else none) =
        (keptParts (joined sheets)).filterMap (·.2.directive?) :=
      List.filterMap_congr fun x hx => if_pos (hblank x hx)
    rw [hdirectives, hall, keptParts, filterMap_directive?_keptPartsFrom, ← directives_joined hsheets]
    rfl

/-- Directives in several layouts, each alone on its lines, and a rule that occurs twice. -/
def laidOut : List (String × String) :=
  [("src/index.css", "@tailwind base;\n\n  @tailwind\nutilities ;\nbody \x7b margin: 0; \x7d\n"),
    ("src/App.css", "\t@tailwind components;\n/* again */\nbody \x7b margin: 0; \x7d\n")]

theorem directives_merge_laidOut :
    Complete (stripEnd styleDirectives).toList ∧ (∀ cs ∈ leftovers (joined laidOut), EndsInComment cs) ∧
      directives (merge laidOut styleDirectives).toList =
        ["base".toList, "components".toList, "utilities".toList] := by
  have hprelude : Complete (stripEnd styleDirectives).toList := by decide +kernel
  have hleft : ∀ cs ∈ leftovers (joined laidOut), EndsInComment cs := by decide +kernel
  have hhidden : ∀ x ∈ keptParts (joined laidOut), x.2.directive?.isSome → selector x.1 ≠ [] := by
    decide +kernel
  have hmerged := ((directives_merge_iff laidOut styleDirectives).1 hprelude hleft).1.2 hhidden
  exact ⟨hprelude, hleft, hmerged.trans directives_styleDirectives⟩

/-- Two directives share a line. -/
def sharedLine : List (String × String) := [("src/index.css", "@tailwind base; @tailwind utilities;\n")]

/-- Both stay, so that two directives occur twice. -/
theorem directives_merge_sharedLine :
    merge sharedLine styleDirectives =
        styleDirectives ++ "\n/* From src/index.css */\n@tailwind base; @tailwind utilities;\n" ∧
      directives (merge sharedLine styleDirectives).toList =
        ["base".toList, "components".toList, "utilities".toList, "base".toList, "utilities".toList] ∧
      directives (merge sharedLine styleDirectives).toList ≠ directives styleDirectives.toList := by
  decide +kernel

end Merged

end WebMigration.Style
