import Mathlib.Data.List.Basic
import WebMigration.Text.Basic

/-!
# Pieces of a text and texts trimmed

Splitting a text at a character is splitting its list of characters.  Some of the pieces, one behind the
other, and a text without what is trimmed from its ends are parts of the text.
-/

namespace WebMigration.Text

variable {c : Char} {cs before after : List Char}

/-! ### Pieces -/

theorem breakOn?_append (h : c ∉ before) :
    breakOn? [c] (before ++ c :: after) = some (before, after) := by
  induction before with
  | nil => simp [breakOn?]
  | cons d rest ih =>
    obtain ⟨hd, hrest⟩ := List.ne_and_not_mem_of_not_mem_cons h
    rw [List.cons_append, breakOn?, if_neg (by simp [hd]), ih hrest]
    rfl

theorem breakOn?_eq_none (h : c ∉ cs) : breakOn? [c] cs = none := by
  induction cs with
  | nil => rfl
  | cons d rest ih =>
    obtain ⟨hd, hrest⟩ := List.ne_and_not_mem_of_not_mem_cons h
    rw [breakOn?, if_neg (by simp [hd]), ih hrest]
    rfl

theorem piecesUpTo_eq_splitOn {fuel : Nat} (h : cs.count c ≤ fuel) :
    piecesUpTo [c] fuel cs = cs.splitOn c := by
  induction fuel generalizing cs with
  | zero =>
    have hmem : c ∉ cs := List.count_eq_zero.1 (Nat.le_zero.1 h)
    rw [piecesUpTo, List.splitOn_eq_singleton hmem]
  | succ fuel ih =>
    by_cases hmem : c ∈ cs
    · obtain ⟨before, after, rfl, hbefore⟩ := List.eq_append_cons_of_mem hmem
      have hcount : after.count c ≤ fuel := by
        simp [List.count_append] at h
        omega
      simp only [piecesUpTo, breakOn?_append hbefore, ih hcount]
      rw [List.splitOn_append_cons_self_of_not_mem hbefore]
    · simp only [piecesUpTo, breakOn?_eq_none hmem]
      rw [List.splitOn_eq_singleton hmem]

theorem pieces_eq_splitOn (c : Char) (cs : List Char) : pieces [c] cs = cs.splitOn c :=
  piecesUpTo_eq_splitOn List.count_le_length

/-- Texts that stand one behind the other among some texts are part of these with separators between. -/
theorem intercalate_isInfix {separator : List Char} {some all : List (List Char)} (h : some <:+: all) :
    separator.intercalate some <:+: separator.intercalate all := by
  obtain ⟨front, back, rfl⟩ := h
  have hback : separator.intercalate some <+: separator.intercalate (some ++ back) := by
    clear front
    induction some with
    | nil => simp
    | cons first rest ih =>
      by_cases hrest : rest = []
      · subst hrest
        cases back <;> simp [List.intercalate_cons_cons]
      · rw [List.cons_append, List.intercalate_cons_of_ne_nil hrest,
          List.intercalate_cons_of_ne_nil (by simp [hrest])]
        exact List.prefix_append_right_inj _ |>.2 ih
  have hfront : separator.intercalate (some ++ back) <:+
      separator.intercalate (front ++ (some ++ back)) := by
    induction front with
    | nil => simp
    | cons first rest ih =>
      by_cases hrest : rest ++ (some ++ back) = []
      · simp [List.append_eq_nil_iff.1 (List.append_eq_nil_iff.1 hrest).2]
      · rw [List.cons_append, List.intercalate_cons_of_ne_nil hrest]
        exact ih.trans (List.suffix_append _ _)
  rw [List.append_assoc]
  exact hback.isInfix.trans hfront.isInfix

/-- Pieces of a text that follow each other are part of it when they are put together again. -/
theorem join_isInfix {separator text : String} {some : List String} (hseparator : separator.toList = [c])
    (h : some <:+: splitOn separator text) : (join separator some).toList <:+: text.toList := by
  have hpieces : some.map String.toList <:+: text.toList.splitOn c := by
    have hmap := h.map String.toList
    rwa [splitOn, hseparator, pieces_eq_splitOn, List.map_map,
      List.map_congr_left (g := id) (by simp), List.map_id] at hmap
  have hall := @intercalate_isInfix [c] _ _ hpieces
  rw [List.intercalate_splitOn] at hall
  rwa [join, String.toList_intercalate, hseparator]

/-! ### Trimmed texts -/

variable {test : Char → Bool}

theorem dropEndWhile_isPrefix (test : Char → Bool) (cs : List Char) : dropEndWhile test cs <+: cs := by
  rw [dropEndWhile, ← List.reverse_suffix, List.reverse_reverse]
  exact List.dropWhile_suffix test

/-- All characters that are dropped from the end pass the test. -/
theorem exists_append_dropEndWhile (test : Char → Bool) (cs : List Char) :
    ∃ back, (∀ c ∈ back, test c = true) ∧ cs = dropEndWhile test cs ++ back := by
  refine ⟨(cs.reverse.takeWhile test).reverse, fun c hc => ?_, ?_⟩
  · exact List.all_eq_true.1 List.all_takeWhile c (List.mem_reverse.1 hc)
  · rw [dropEndWhile, ← List.reverse_append, List.takeWhile_append_dropWhile, List.reverse_reverse]

theorem trimBoth_isInfix (test : Char → Bool) (cs : List Char) : trimBoth test cs <:+: cs :=
  (dropEndWhile_isPrefix test _).isInfix.trans (List.dropWhile_suffix test).isInfix

theorem strip_isInfix (s : String) : (strip s).toList <:+: s.toList := by
  rw [strip, String.toList_ofList]
  exact trimBoth_isInfix isSpace s.toList

/-- Characters up to the first one that fails the test. -/
theorem takeWhile_dropWhile_append {front rest : List Char} (hfront : ∀ c ∈ front, test c = true)
    (hrest : ∀ c ∈ rest.head?, test c = false) :
    (front ++ rest).takeWhile test = front ∧ (front ++ rest).dropWhile test = rest := by
  rw [List.takeWhile_append_of_pos hfront, List.dropWhile_append_of_pos hfront]
  cases rest with
  | nil => simp
  | cons c rest => simp [hrest c rfl]

/-- What stands between blanks is left when they are trimmed. -/
theorem trimBoth_append {front text back : List Char} (hfront : ∀ c ∈ front, test c = true)
    (hback : ∀ c ∈ back, test c = true) (hfirst : ∃ c ∈ text.head?, test c = false)
    (hlast : ∃ c ∈ text.getLast?, test c = false) : trimBoth test (front ++ (text ++ back)) = text := by
  obtain ⟨c, hc, hfirst⟩ := hfirst
  obtain ⟨d, hd, hlast⟩ := hlast
  obtain ⟨rest, rfl⟩ := List.head?_eq_some_iff.1 hc
  have hreverse : (c :: rest).reverse.head? = some d := by rw [List.head?_reverse, hd]
  obtain ⟨others, hothers⟩ := List.head?_eq_some_iff.1 hreverse
  rw [trimBoth, List.dropWhile_append_of_pos hfront, List.cons_append,
    List.dropWhile_cons_of_neg (by simp [hfirst]), ← List.cons_append, dropEndWhile, List.reverse_append,
    List.dropWhile_append_of_pos (fun c hc => hback c (List.mem_reverse.1 hc)), hothers,
    List.dropWhile_cons_of_neg (by simp [hlast]), ← hothers, List.reverse_reverse]

end WebMigration.Text
