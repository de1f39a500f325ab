import Mathlib.Data.List.Basic
import WebMigration.Text.Pattern

/-!
# What a pattern removes

A match reads a piece of a text that the pattern spells.  Removing all matches leaves the text but for
such pieces.
-/

namespace WebMigration.Text.Pattern

/-- The texts that a pattern spells; the places where they stand do not count. -/
def Spells : Pattern → List Char → Prop
  | one test, cs => ∃ x, test x = true ∧ cs = [x]
  | both p q, cs => ∃ front back, cs = front ++ back ∧ p.Spells front ∧ q.Spells back
  | either p q, cs => p.Spells cs ∨ q.Spells cs
  | many _ p, cs => ∃ pieces : List (List Char), cs = pieces.flatten ∧ ∀ piece ∈ pieces, p.Spells piece
  | capture p, cs => p.Spells cs
  | _, cs => cs = []

theorem spells_literal {s : String} {cs : List Char} (h : (literal s).Spells cs) : cs = s.toList := by
  unfold literal at h
  generalize s.toList = expected at h
  induction expected generalizing cs with
  | nil => exact h
  | cons x rest ih =>
    obtain ⟨front, back, rfl, ⟨y, hy, rfl⟩, hback⟩ := h
    rw [ih hback, eq_of_beq hy]
    rfl

/-- Repeating a character of a kind spells texts of such characters. -/
theorem spells_many_one {greedy : Bool} {test : Char → Bool} {cs : List Char}
    (h : (many greedy (one test)).Spells cs) : ∀ c ∈ cs, test c = true := by
  obtain ⟨pieces, rfl, hpieces⟩ := h
  intro c hc
  obtain ⟨piece, hpiece, hmem⟩ := List.mem_flatten.1 hc
  obtain ⟨x, hx, rfl⟩ := hpieces piece hpiece
  rw [List.mem_singleton.1 hmem]
  exact hx

theorem spells_some_one {greedy : Bool} {test : Char → Bool} {cs : List Char}
    (h : (some greedy (one test)).Spells cs) : cs ≠ [] ∧ ∀ c ∈ cs, test c = true := by
  obtain ⟨front, back, rfl, ⟨x, hx, rfl⟩, hback⟩ := h
  exact ⟨List.cons_ne_nil _ _, List.forall_mem_cons.2 ⟨hx, spells_many_one hback⟩⟩

/-! ### Matches -/

/-- From one place to another some characters are read. -/
structure Cursor.Reads (c : Cursor) (cs : List Char) (d : Cursor) : Prop where
  rest : c.rest = cs ++ d.rest
  position : d.position = c.position + cs.length

namespace Cursor.Reads

theorem refl (c : Cursor) : c.Reads [] c := ⟨rfl, rfl⟩

theorem trans {c d e : Cursor} {front back : List Char} (h : c.Reads front d) (h' : d.Reads back e) :
    c.Reads (front ++ back) e where
  rest := by rw [h.rest, h'.rest, List.append_assoc]
  position := by rw [h'.position, h.position, List.length_append, Nat.add_assoc]

end Cursor.Reads

/-- A step that goes on at a place after reading a text that is spelled. -/
def Sound {α : Type} (spells : List Char → Prop) (step : (Cursor → Option α) → Cursor → Option α) :
    Prop :=
  ∀ next c a, step next c = Option.some a →
    ∃ cs d, spells cs ∧ c.Reads cs d ∧ next d = Option.some a

section Repeated

variable {α : Type} {greedy : Bool} {step : (Cursor → Option α) → Cursor → Option α}
  {next : Cursor → Option α}

/-- Either the body is read once more, or the repetition ends here. -/
theorem repeated_succ_cases {fuel : Nat} {c : Cursor} {a : α}
    (h : repeated greedy step next (fuel + 1) c = Option.some a) :
    step (fun d => if c.position < d.position then repeated greedy step next fuel d else none) c =
      Option.some a ∨ next c = Option.some a := by
  rw [repeated] at h
  dsimp only at h
  split at h
  · split at h
    · cases h
      exact .inl ‹_›
    · exact .inr h
  · split at h
    · cases h
      exact .inr ‹_›
    · exact .inl h

/-- Both are tried, in one order or the other. -/
theorem isSome_repeated_succ (fuel : Nat) (c : Cursor) :
    (repeated greedy step next (fuel + 1) c).isSome =
      ((step (fun d => if c.position < d.position then repeated greedy step next fuel d else none)
        c).isSome || (next c).isSome) := by
  rw [repeated]
  dsimp only
  generalize step _ c = again
  cases greedy <;> cases again <;> cases next c <;> rfl

/-- A repetition reads some texts that its body spells. -/
theorem repeated_sound {spells : List Char → Prop} (hstep : Sound spells step) (fuel : Nat) {c : Cursor}
    {a : α} (h : repeated greedy step next fuel c = Option.some a) :
    ∃ (pieces : List (List Char)) (d : Cursor), (∀ piece ∈ pieces, spells piece) ∧
      c.Reads pieces.flatten d ∧ next d = Option.some a := by
  induction fuel generalizing c with
  | zero => exact ⟨[], c, by simp, .refl c, h⟩
  | succ fuel ih =>
    rcases repeated_succ_cases h with hagain | hstop
    · obtain ⟨cs, d, hcs, hread, hrest⟩ := hstep _ _ _ hagain
      split at hrest
      · obtain ⟨pieces, e, hpieces, hmore, hnext⟩ := ih hrest
        exact ⟨cs :: pieces, e, List.forall_mem_cons.2 ⟨hcs, hpieces⟩, hread.trans hmore, hnext⟩
      · cases hrest
    · exact ⟨[], c, by simp, .refl c, hstop⟩

end Repeated

/-- **A match reads what its pattern spells**, and goes on behind it. -/
theorem run_sound {α : Type} (p : Pattern) : Sound (α := α) p.Spells p.run := by
  intro next c a h
  induction p generalizing next c a with
  | empty => exact ⟨[], c, rfl, .refl c, h⟩
  | one test =>
    rw [run] at h
    split at h
    · rename_i x r hrest
      split at h
      · exact ⟨[x], _, ⟨x, ‹_›, rfl⟩, ⟨by rw [hrest]; rfl, rfl⟩, h⟩
      · cases h
    · cases h
  | wordEdge | textStart | textEnd | lineStart | lineEnd =>
    rw [run] at h
    split at h
    · exact ⟨[], c, rfl, .refl c, h⟩
    · cases h
  | both p q ihp ihq =>
    obtain ⟨front, d, hfront, hd, hq⟩ := ihp _ _ _ h
    obtain ⟨back, e, hback, he, hnext⟩ := ihq _ _ _ hq
    exact ⟨front ++ back, e, ⟨front, back, rfl, hfront, hback⟩, hd.trans he, hnext⟩
  | either p q ihp ihq =>
    rw [run] at h
    split at h
    · cases h
      obtain ⟨cs, d, hcs, hd, hnext⟩ := ihp _ _ _ ‹_›
      exact ⟨cs, d, .inl hcs, hd, hnext⟩
    · obtain ⟨cs, d, hcs, hd, hnext⟩ := ihq _ _ _ h
      exact ⟨cs, d, .inr hcs, hd, hnext⟩
  | many greedy p ih =>
    have hbody : Sound p.Spells (p.run (α := α)) := ih
    obtain ⟨pieces, d, hpieces, hd, hnext⟩ := repeated_sound hbody _ h
    exact ⟨pieces.flatten, d, ⟨pieces, rfl, hpieces⟩, hd, hnext⟩
  | capture p ih =>
    obtain ⟨cs, d, hcs, hd, hnext⟩ := ih _ _ _ h
    refine ⟨cs, { d with kept := c.rest.take (d.position - c.position) :: d.kept }, hcs, ?_, hnext⟩
    exact ⟨hd.rest, hd.position⟩

/-- The match at a place reads what the pattern spells. -/
theorem matchAt?_sound {p : Pattern} {c d : Cursor} (h : p.matchAt? c = Option.some d) :
    ∃ cs, p.Spells cs ∧ c.Reads cs d := by
  obtain ⟨cs, e, hcs, he, hd⟩ := p.run_sound _ _ _ h
  cases hd
  exact ⟨cs, hcs, he.rest, he.position⟩

/-! ### Removing all matches -/

/-- A text without some pieces of a kind. -/
inductive Without (removed : List Char → Prop) : List Char → List Char → Prop
  | nil : Without removed [] []
  | keep (x : Char) {cs left} : Without removed cs left → Without removed (x :: cs) (x :: left)
  | remove {piece cs left} : removed piece → Without removed cs left →
      Without removed (piece ++ cs) left

theorem Without.refl (removed : List Char → Prop) (cs : List Char) : Without removed cs cs := by
  induction cs with
  | nil => exact .nil
  | cons x cs ih => exact .keep x ih

theorem Without.mono {removed removed' : List Char → Prop} (himp : ∀ cs, removed cs → removed' cs)
    {cs left : List Char} (h : Without removed cs left) : Without removed' cs left := by
  induction h with
  | nil => exact .nil
  | keep x _ ih => exact .keep x ih
  | remove hpiece _ ih => exact .remove (himp _ hpiece) ih

/-- A match that starts and ends from a place on. -/
def From (position : Nat) (m : Nat × Cursor) : Prop := position ≤ m.1 ∧ m.1 ≤ m.2.position

/-- Matches start from the given place on. -/
theorem from_of_mem_matchesFrom {p : Pattern} {fuel : Nat} {c : Cursor} {m : Nat × Cursor}
    (hm : m ∈ p.matchesFrom fuel c) : From c.position m := by
  induction fuel generalizing c with
  | zero => cases hm
  | succ fuel ih =>
    have later : ∀ {d}, c.position ≤ d.position → m ∈ p.matchesFrom fuel d → From c.position m :=
      fun hle h => ⟨Nat.le_trans hle (ih h).1, (ih h).2⟩
    rw [matchesFrom] at hm
    split at hm
    · rename_i d hd
      obtain ⟨cs, -, hread⟩ := matchAt?_sound hd
      rcases List.mem_cons.1 hm with rfl | hm
      · exact ⟨Nat.le_refl _, hread.position ▸ Nat.le_add_right _ _⟩
      · split at hm
        · exact later (Nat.le_of_lt ‹_›) hm
        · split at hm
          · exact later (Nat.le_succ _) hm
          · cases hm
    · split at hm
      · exact later (Nat.le_succ _) hm
      · cases hm

/-- A character before all ranges stays. -/
theorem replaceRanges_cons {new : List Char} {offset : Nat} {x : Char} {cs : List Char}
    {ranges : List (Nat × Cursor)} (h : ∀ m ∈ ranges, From (offset + 1) m) :
    replaceRanges new offset (x :: cs) ranges = x :: replaceRanges new (offset + 1) cs ranges := by
  cases ranges with
  | nil => rfl
  | cons m rest =>
    obtain ⟨hstart, hstop⟩ := h m List.mem_cons_self
    have htake : m.1 - offset = (m.1 - (offset + 1)) + 1 := by omega
    have hdrop : m.2.position - offset = (m.2.position - (offset + 1)) + 1 := by omega
    rw [replaceRanges, replaceRanges, htake, hdrop]
    rfl

/-- A match at the place where the text starts goes, and the rest stays to be looked at. -/
theorem replaceRanges_match {c d : Cursor} {cs : List Char} (h : c.Reads cs d)
    (rest : List (Nat × Cursor)) :
    replaceRanges [] c.position c.rest ((c.position, d) :: rest) =
      replaceRanges [] d.position d.rest rest := by
  have hdrop : d.position - c.position = cs.length := by
    rw [h.position]
    omega
  rw [replaceRanges, Nat.sub_self, hdrop, h.rest, List.drop_left]
  rfl

/-- From a place on, what is left after removing the matches is the text without texts that the pattern
spells. -/
theorem without_matchesFrom (p : Pattern) (fuel : Nat) (c : Cursor) :
    Without p.Spells c.rest (replaceRanges [] c.position c.rest (p.matchesFrom fuel c)) := by
  induction fuel generalizing c with
  | zero => exact .refl _ _
  | succ fuel ih =>
    -- A character at which nothing is removed stays.
    have skip : ∀ {x r}, c.rest = x :: r → Without p.Spells c.rest (replaceRanges [] c.position c.rest
        (p.matchesFrom fuel ⟨c.position + 1, x, r, []⟩)) := by
      intro x r hrest
      rw [hrest, replaceRanges_cons fun m hm => from_of_mem_matchesFrom hm]
      exact .keep x (ih ⟨c.position + 1, x, r, []⟩)
    rw [matchesFrom]
    split
    · rename_i d hd
      obtain ⟨cs, hspells, hread⟩ := matchAt?_sound hd
      rw [replaceRanges_match hread, hread.rest]
      refine .remove hspells ?_
      split
      · exact ih d
      · -- The match is empty, so the place does not change.
        have hempty : cs = [] := List.length_eq_zero_iff.1 (by have := hread.position; omega)
        subst hempty
        have hrest : c.rest = d.rest := hread.rest
        have hposition : d.position = c.position := hread.position
        rw [← hrest, hposition]
        split
        · exact skip ‹_›
        · exact .refl _ _
    · split
      · exact skip ‹_›
      · exact .refl _ _

/-- **Removing a pattern leaves a text without pieces that the pattern spells.** -/
theorem without_removeAll (p : Pattern) (s : String) :
    Without p.Spells s.toList (p.removeAll s).toList := by
  have h := p.without_matchesFrom (2 * s.length + 2) (Cursor.start s.toList)
  rw [removeAll, replaceAll, String.toList_ofList]
  exact h

end WebMigration.Text.Pattern
