import WebMigration.Proofs.Syntax.Boundary

/-!
# How lexemes end

A word ends where no identifier goes on, and has no dot in it.  A mark ends with its last character, and
a string with its quote.
-/

namespace WebMigration.Syntax

open Character

variable {cs : List Char} {n : Nat} {l : Level}

/-! ### Words -/

theorem dot_not_mem_of_isHexDigit (h : cs.all isHexDigit = true) : '.' ∉ cs := by
  intro hmem
  have hdot := List.all_eq_true.1 h '.' hmem
  exact absurd hdot (by decide)

/-- No dot is in a character escape. -/
theorem dot_not_mem_identifierEscape (h : identifierEscapeLength? cs = some n) : '.' ∉ cs.take n := by
  unfold identifierEscapeLength? at h
  split at h
  · rename_i r
    dsimp only at h
    split at h
    · cases h
    · rename_i hclosed
      cases h
      rw [Bool.or_eq_true, not_or, Bool.not_eq_true, Bool.not_eq_true, bne_eq_false_iff_eq] at hclosed
      have hdigits : '.' ∉ r.takeWhile isHexDigit := dot_not_mem_of_isHexDigit List.all_takeWhile
      have hlast : r.take ((r.takeWhile isHexDigit).length + 1) = r.takeWhile isHexDigit ++ ['\x7d'] := by
        rw [List.take_add_one, ← List.head?_drop, hclosed.2,
          ← List.prefix_iff_eq_take.1 (List.takeWhile_prefix isHexDigit)]
        rfl
      rw [List.take_succ_cons, List.take_succ_cons, List.take_succ_cons, hlast]
      simp [hdigits]
  · rename_i a b c d _
    split at h
    · rename_i hdigits
      cases h
      have hnone := dot_not_mem_of_isHexDigit hdigits
      simp only [List.mem_cons, List.not_mem_nil, or_false, not_or] at hnone
      simp [hnone]
    · cases h
  · cases h

theorem dot_not_mem_identifierRun {sure : Nat} (h : '.' ∉ cs.take sure) :
    '.' ∉ cs.take (identifierRun sure cs) := by
  fun_induction identifierRun sure cs with
  | case1 => exact List.not_mem_nil
  | case2 sure c r ih =>
    rw [List.take_succ_cons, List.mem_cons, not_or] at h ⊢
    exact ⟨h.1, ih h.2⟩
  | case3 c r hpart ih =>
    rw [List.take_succ_cons, List.mem_cons, not_or]
    refine ⟨?_, ih List.not_mem_nil⟩
    rintro rfl
    exact absurd hpart (Bool.eq_false_iff.1 not_isIdentifierPart_dot)
  | case4 c r hpart n hescape ih =>
    have hnone := dot_not_mem_identifierEscape hescape
    rw [List.take_succ_cons, List.mem_cons, not_or] at hnone ⊢
    exact ⟨hnone.1, ih hnone.2⟩
  | case5 => exact List.not_mem_nil

theorem shut_identifierRun (sure : Nat) (cs : List Char) : Shut (cs.drop (identifierRun sure cs)) := by
  fun_induction identifierRun sure cs with
  | case1 => exact shut_nil
  | case2 sure c r ih => exact ih
  | case3 c r hpart ih => exact ih
  | case4 c r hpart n hescape ih => exact ih
  | case5 c r hpart hescape => exact shut_cons (Bool.eq_false_iff.2 hpart)

theorem wordLength?_eq (h : wordLength? cs = some n) : n = identifierRun 0 cs := by
  unfold wordLength? at h
  split at h
  · cases h
  · split at h
    · exact (Option.some.inj h).symm
    · cases h

theorem shut_word (h : wordLength? cs = some n) : Shut (cs.drop n) := by
  rw [wordLength?_eq h]
  exact shut_identifierRun 0 cs

theorem pos_of_identifierEscapeLength? (h : identifierEscapeLength? cs = some n) : 0 < n := by
  unfold identifierEscapeLength? at h
  split at h
  · dsimp only at h
    split at h
    · cases h
    · cases h
      omega
  · split at h
    · cases h
      omega
    · cases h
  · cases h

theorem nonempty_word : Nonempty wordLength? := by
  intro cs n h
  unfold wordLength? at h
  split at h
  · cases h
  · rename_i c r
    split at h
    · rename_i hstart
      cases h
      have hnext : ∃ m, identifierRun 0 (c :: r) = m + 1 := by
        rw [identifierRun]
        split
        · exact ⟨_, rfl⟩
        · rename_i hpart
          split
          · exact ⟨_, rfl⟩
          · rename_i hescape
            -- The character starts no identifier, so it starts an escape, which is not empty.
            have hsome : (identifierEscapeLength? (c :: r)).isSome = true := by
              simpa [isIdentifierStart, hpart] using hstart
            obtain ⟨m, hm⟩ := Option.isSome_iff_exists.1 hsome
            have hpos := pos_of_identifierEscapeLength? hm
            exact absurd (hm.trans (congrArg some (Nat.succ_pred_eq_of_pos hpos).symm)) (hescape _)
      obtain ⟨m, hm⟩ := hnext
      rw [hm]
      exact List.cons_ne_nil _ _
    · cases h

theorem dot_not_mem_word (h : wordLength? cs = some n) : '.' ∉ cs.take n := by
  rw [wordLength?_eq h]
  exact dot_not_mem_identifierRun List.not_mem_nil

theorem word_of_wordThat {test : String → Bool} (h : wordThat test cs = some n) :
    wordLength? cs = some n :=
  (Option.filter_eq_some_iff.1 h).1

theorem nonempty_wordThat (test : String → Bool) : Nonempty (wordThat test) :=
  fun cs n h => nonempty_word cs n (word_of_wordThat h)

theorem shut_privateName (h : privateNameLength? cs = some n) : Shut (cs.drop n) := by
  unfold privateNameLength? at h
  split at h
  · obtain ⟨m, hm, rfl⟩ := Option.map_eq_some_iff.1 h
    have hshut := shut_word hm
    exact hshut
  · cases h

/-! ### Marks -/

theorem take_of_markLength? {text barred : String} (h : markLength? text barred cs = some n) :
    cs.take n = text.toList := by
  unfold markLength? at h
  dsimp only at h
  split at h
  · rename_i hprefix
    have hn : n = text.toList.length := by
      split at h
      · split at h
        · cases h
        · exact (Option.some.inj h).symm
      · exact (Option.some.inj h).symm
    rw [hn]
    obtain ⟨rest, rfl⟩ := List.isPrefixOf_iff_prefix.1 hprefix
    exact List.take_left
  · cases h

/-- Whether a name may begin behind a mark, given in reverse. -/
def freesBehind : List Char → Bool
  | [] => false
  | '.' :: rest => (rest.head?.map punctuation.contains).getD false
  | c :: _ => punctuation.contains c

/-- The marks of the grammar are literals, of which the characters are known without their bytes. -/
theorem freesBehind_text {text : String} {cs : List Char} (htext : text = String.ofList cs)
    (h : freesBehind cs.reverse = true) : freesBehind text.toList.reverse = true := by
  rwa [htext, String.toList_ofList]

theorem free_of_freesBehind {mark : List Char} (h : freesBehind mark = true) (front : List Char) :
    Free (front ++ mark.reverse) := by
  unfold freesBehind at h
  split at h
  · cases h
  · rename_i rest
    cases rest with
    | nil => cases h
    | cons c rest =>
      have hc : punctuation.contains c = true := h
      rw [List.reverse_cons, ← List.append_assoc]
      refine ⟨loose_concat not_isIdentifierPart_dot _, fun init hinit => ?_⟩
      obtain ⟨rfl, -⟩ := List.append_inj' hinit rfl
      rw [List.reverse_cons, ← List.append_assoc]
      exact loose_concat (not_isIdentifierPart_of_punctuation hc) _
  · rename_i c rest hdot
    rw [List.reverse_cons, ← List.append_assoc]
    exact free_concat (not_isIdentifierPart_of_punctuation h) hdot _

/-! ### Strings -/

theorem nonempty_of_quoted {length? : List Char → Option Nat} (h : Quoted length?) : Nonempty length? := by
  intro cs n hn
  obtain ⟨first, inside, last, htake, -⟩ := h cs n hn
  rw [htake]
  exact List.cons_ne_nil _ _

theorem take_of_stringLength? (h : stringLength? cs = some n) :
    ∃ inside quote, cs.take n = inside ++ [quote] ∧ (quote = '"' ∨ quote = '\'') := by
  unfold stringLength? at h
  split at h
  · obtain ⟨m, hm, rfl⟩ := Option.map_eq_some_iff.1 h
    obtain ⟨inside, hinside⟩ := closedBy_stringRest? _ _ _ _ _ hm
    exact ⟨'"' :: inside, '"', by rw [List.take_succ_cons, hinside]; rfl, .inl rfl⟩
  · obtain ⟨m, hm, rfl⟩ := Option.map_eq_some_iff.1 h
    obtain ⟨inside, hinside⟩ := closedBy_stringRest? _ _ _ _ _ hm
    exact ⟨'\'' :: inside, '\'', by rw [List.take_succ_cons, hinside]; rfl, .inr rfl⟩
  · cases h

end WebMigration.Syntax
