import WebMigration.Proofs.Text.Pattern
import WebMigration.Style.Sheet

/-!
# What merged style sheets hold

Merging keeps every style sheet but for directives of the style tool, blanks at its ends, and rules
whose selector occurred before.
-/

namespace WebMigration.Style

open Text
open Pattern (Without Spells)

/-! ### Directives -/

/-- A directive of the style tool, with the blanks around it. -/
def IsDirective (cs : List Char) : Prop :=
  ∃ before gap name after rest : List Char,
    (∀ c ∈ before, isSpace c = true) ∧ (gap ≠ [] ∧ ∀ c ∈ gap, isSpace c = true) ∧
    (name ≠ [] ∧ ∀ c ∈ name, (isWord c || c == '-') = true) ∧ (∀ c ∈ after, isSpace c = true) ∧
    (∀ c ∈ rest, isSpace c = true) ∧
    cs = before ++ "@tailwind".toList ++ gap ++ name ++ after ++ ";".toList ++ rest

theorem isDirective_of_spells {cs : List Char} (h : directiveLine.Spells cs) : IsDirective cs := by
  unfold directiveLine Pattern.all at h
  obtain ⟨_, _, rfl, rfl, before, _, rfl, hbefore, at', _, rfl, hat, gap, _, rfl, hgap, name, _, rfl,
    hname, after, _, rfl, hafter, semicolon, _, rfl, hsemicolon, rest, _, rfl, hrest, _, _, rfl, rfl,
    rfl⟩ := h
  refine ⟨before, gap, name, after, rest, Pattern.spells_many_one hbefore,
    Pattern.spells_some_one hgap, Pattern.spells_some_one hname, Pattern.spells_many_one hafter,
    Pattern.spells_many_one hrest, ?_⟩
  rw [Pattern.spells_literal hat, Pattern.spells_literal hsemicolon]
  simp only [List.nil_append, List.append_nil, List.append_assoc]

/-! ### Parts -/

namespace Reading

/-- Outside of braces no block has begun. -/
def Sound (r : Reading) : Prop := r.depth = 0 → r.block = []

variable {r : Reading}

theorem Sound.initial : Sound {} := fun _ => rfl

theorem Sound.take (h : r.Sound) (c : Char) : (r.take c).Sound := by
  unfold Reading.take
  split
  · exact h
  · rename_i hdepth
    intro hzero
    exact absurd hzero (by simpa using hdepth)

theorem Sound.opened (r : Reading) : r.opened.Sound := by
  intro hzero
  cases hzero

theorem Sound.text_take (h : r.Sound) (c : Char) : (r.take c).text = r.text ++ [c] := by
  unfold Reading.take text
  split
  · rename_i hdepth
    rw [h (by simpa using hdepth)]
    simp
  · simp

theorem text_opened (r : Reading) : r.opened.text = r.text ++ ['\x7b'] := by
  unfold opened text
  simp

theorem Sound.text_eq (h : r.Sound) (hdepth : r.depth = 0) : r.text = r.prelude.reverse := by
  rw [text, h hdepth, List.reverse_nil, List.append_nil]

end Reading

/-- Reading parts loses no character. -/
theorem flatMap_text_partsFrom (inComment : Bool) (r : Reading) (css : List Char) (h : r.Sound) :
    (partsFrom inComment r css).flatMap Part.text = r.text ++ css := by
  fun_induction partsFrom inComment r css with
  | case1 => simp [Part.text]
  | case2 r cs ih =>
    rw [ih ((h.take _).take _), (h.take _).text_take, h.text_take]
    simp
  | case3 _ r cs _ ih =>
    rw [ih (h.take _), h.text_take]
    simp
  | case4 r cs ih =>
    rw [ih (h.take _), h.text_take]
    simp
  | case5 _ r cs _ ih =>
    rw [ih ((h.take _).take _), (h.take _).text_take, h.text_take]
    simp
  | case6 r c cs _ _ ih =>
    rw [ih (h.take _), h.text_take]
    simp
  | case7 _ r c cs _ _ _ hbrace ih =>
    rw [ih (.opened r), r.text_opened, eq_of_beq hbrace]
    simp
  | case8 _ r c cs _ _ _ _ hbrace ih =>
    -- The last brace is closed, and a new part begins.
    rw [Bool.and_eq_true, beq_iff_eq] at hbrace
    rw [List.flatMap_cons, ih .initial, hbrace.1]
    simp [Part.text, Reading.text]
  | case9 _ r c cs _ _ _ _ _ hbrace ih =>
    rw [Bool.and_eq_true, beq_iff_eq, decide_eq_true_eq] at hbrace
    have hopen : Reading.Sound ⟨r.prelude, '\x7d' :: r.block, r.depth - 1⟩ := by
      intro hzero
      exact absurd hzero (Nat.sub_ne_zero_of_lt hbrace.2)
    rw [ih hopen, hbrace.1]
    simp [Reading.text]
  | case10 _ r c cs _ _ _ _ _ _ hend ih =>
    rw [Bool.and_eq_true, beq_iff_eq, beq_iff_eq] at hend
    rw [List.flatMap_cons, ih .initial, h.text_eq hend.2, hend.1]
    simp [Part.text, Reading.text]
  | case11 _ r c cs _ _ _ _ _ _ _ ih =>
    rw [ih (h.take _), h.text_take]
    simp

/-- **The parts of a style sheet hold all of its characters.** -/
theorem flatMap_text_parts (css : List Char) : (parts css).flatMap Part.text = css :=
  flatMap_text_partsFrom false {} css .initial

/-! ### Repeated rules -/

/-- A part before is a rule with a selector. -/
def Occurs (before : List Part) (s : List Char) : Prop :=
  ∃ prelude block, Part.rule prelude block ∈ before ∧ selector prelude = s

/-- What is left of parts that follow other parts: all of them, but of a rule whose selector occurred
before, and is not that of an at rule, only the comments in front of it. -/
inductive Thinned : List Part → List Part → List (List Char) → Prop
  | nil {before} : Thinned before [] []
  | whole {before part rest kept} : Thinned (before ++ [part]) rest kept →
      Thinned before (part :: rest) (part.text :: kept)
  | repeated {before prelude block rest kept} : isAtRule (selector prelude) = false →
      Occurs before (selector prelude) → Thinned (before ++ [.rule prelude block]) rest kept →
      Thinned before (.rule prelude block :: rest) (throughLastComment prelude :: kept)

theorem Occurs.append {before : List Part} {s : List Char} (h : Occurs before s)
    (more : List Part) : Occurs (before ++ more) s := by
  obtain ⟨prelude, block, hmem, hs⟩ := h
  exact ⟨prelude, block, List.mem_append_left _ hmem, hs⟩

/-- Dropping repeated rules leaves all other parts. -/
theorem thinned_keptFrom {seen : List (List Char)} {before : List Part}
    (h : ∀ s ∈ seen, Occurs before s) (parts : List Part) :
    Thinned before parts (keptFrom seen parts) := by
  induction parts generalizing seen before with
  | nil => exact .nil
  | cons part rest ih =>
    have hmore : ∀ s ∈ seen, Occurs (before ++ [part]) s := fun s hs => (h s hs).append _
    cases part with
    | rule prelude block =>
      rw [keptFrom]
      split
      · refine .whole (ih (List.forall_mem_cons.2 ⟨?_, hmore⟩))
        exact ⟨prelude, block, List.mem_append_right _ List.mem_cons_self, rfl⟩
      · rename_i hdropped
        simp only [Bool.or_eq_true, Bool.not_eq_true', not_or, Bool.not_eq_true, Bool.not_eq_false,
          List.contains_iff_mem] at hdropped
        exact .repeated hdropped.1 (h _ hdropped.2) (ih hmore)
    | statement text => exact .whole (ih hmore)
    | rest text => exact .whole (ih hmore)

/-! ### Merged style sheets -/

/-- Code holds a style sheet: after directives and the blanks at its ends are removed, the sheet stands
in a longer one of which all parts are left but for repeated rules. -/
def Holds (code : String) (sheet : List Char) : Prop :=
  ∃ body before after kept lead,
    Without IsDirective sheet body ∧
    Thinned [] (parts (before ++ trimBoth isSpace body ++ after)) kept ∧
    code = lead ++ String.ofList kept.flatten

theorem holds_withoutRepeats {css lead : String} {sheet body before after : List Char}
    (hbody : Without IsDirective sheet body)
    (hcss : css.toList = before ++ trimBoth isSpace body ++ after) :
    Holds (lead ++ withoutRepeats css) sheet := by
  refine ⟨body, before, after, keptFrom [] (parts css.toList), lead, hbody, ?_, rfl⟩
  rw [← hcss]
  exact thinned_keptFrom (fun _ hs => absurd hs List.not_mem_nil) _

/-- Every one of some texts stands in them with separators between. -/
theorem infix_intercalate {separator text : List Char} {texts : List (List Char)} (h : text ∈ texts) :
    text <:+: separator.intercalate texts := by
  induction texts with
  | nil => cases h
  | cons first rest ih =>
    cases rest with
    | nil =>
      have hall : separator.intercalate [first] = text := by
        rw [List.intercalate_singleton, List.mem_singleton.1 h]
      exact hall ▸ List.infix_rfl
    | cons second rest =>
      rw [List.intercalate_cons_cons]
      rcases List.mem_cons.1 h with rfl | h
      · exact ⟨[], _, by rw [List.nil_append, List.append_assoc]⟩
      · exact (ih h).trans (List.suffix_append _ _).isInfix

/-- **A merged style sheet holds each of its sheets.** -/
theorem holds_merge {sheets : List (String × String)} {sheet : String × String} (h : sheet ∈ sheets)
    (before : String) : Holds (merge sheets before) sheet.2.toList := by
  have hheaded : (headed sheet).toList ∈ (sheets.map headed).map String.toList :=
    List.mem_map_of_mem (List.mem_map_of_mem h)
  have hinfix : (headed sheet).toList <:+:
      "\n".toList.intercalate ((sheets.map headed).map String.toList) := infix_intercalate hheaded
  obtain ⟨front, back, hcss⟩ := hinfix
  have hsheet : (join "\n" (sheets.map headed)).toList =
      (front ++ ("/* From " ++ sheet.1 ++ " */\n").toList) ++
        trimBoth isSpace (directiveLine.removeAll sheet.2).toList ++ ("\n".toList ++ back) := by
    rw [join, String.toList_intercalate, ← hcss, headed, strip]
    simp only [String.toList_append, String.toList_ofList, List.append_assoc]
  have hbody : Without IsDirective sheet.2.toList (directiveLine.removeAll sheet.2).toList :=
    (directiveLine.without_removeAll sheet.2).mono fun _ => isDirective_of_spells
  unfold merge
  dsimp only
  split
  · rw [← String.empty_append (s := withoutRepeats _)]
    exact holds_withoutRepeats hbody hsheet
  · exact holds_withoutRepeats hbody hsheet

end WebMigration.Style
