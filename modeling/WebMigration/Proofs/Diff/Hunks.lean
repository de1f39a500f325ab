import Mathlib.Algebra.Ring.Nat
import Mathlib.Data.List.Flatten
import WebMigration.Diff.Unified
import WebMigration.Proofs.Diff.Alignment
import WebMigration.Proofs.Text.Ending

/-!
# What the hunks show

The hunks of an alignment show every part that is not kept, once, and lines of the parts that are.  Only the
last part that is shown can have a line without an end.
-/

namespace WebMigration.Diff

variable {left right : List String} {parts : List Part} {placed : List Placed}

/-! ### Line ends -/

/-- All lines but the last have an end. -/
def IsText (lines : List String) : Prop :=
  UpToLast (fun line => Text.IsEnded line.toList) (fun line => Text.IsOpen line.toList) lines

theorem isText_linesKeepingEnds (text : String) : IsText (Text.linesKeepingEnds text) := by
  have hlines := @Text.upToLast_linesAfter [] text.toList nofun
  refine hlines.map (fun line h => ?_) (fun line h => ?_)
  · rwa [String.toList_ofList]
  · rwa [String.toList_ofList]

/-- All lines of a part have an end. -/
def Part.IsEnded (p : Part) : Prop :=
  (∀ line ∈ p.old, Text.IsEnded line.toList) ∧ ∀ line ∈ p.new, Text.IsEnded line.toList

/-- All lines of a part have an end but the last one of each text. -/
def Part.EndsTexts (p : Part) : Prop := IsText p.old ∧ IsText p.new

theorem Part.IsEnded.keep {lines : List String} (h : ∀ line ∈ lines, Text.IsEnded line.toList) :
    (Part.keep lines).IsEnded :=
  ⟨h, h⟩

theorem Part.EndsTexts.keep {lines : List String} (h : IsText lines) : (Part.keep lines).EndsTexts :=
  ⟨h, h⟩

/-- All parts of an alignment but the last have lines with ends only: the parts behind them have lines of the
same texts. -/
theorem IsAlignment.upToLast (h : IsAlignment left right parts) (hleft : IsText left) (hright : IsText right) :
    UpToLast Part.IsEnded Part.EndsTexts parts := by
  induction parts generalizing left right with
  | nil => exact .nil
  | cons p rest ih =>
    obtain ⟨left, right, rfl, rfl, hp, hhead, hrest⟩ := h.of_cons
    cases rest with
    | nil =>
      obtain ⟨rfl, rfl, -, -⟩ := hrest
      rw [List.flatMap_nil, List.append_nil] at hleft hright
      exact .last ⟨hleft, hright⟩
    | cons q more =>
      refine .cons ?_ (ih hrest hleft.of_append_right hright.of_append_right)
      obtain ⟨left, right, rfl, rfl, hq, -, -⟩ := hrest.of_cons
      cases p with
      | keep lines =>
        rcases hq with hq | hq
        · exact .keep (hleft.forall_of_append (by simp [hq]))
        · exact .keep (hright.forall_of_append (by simp [hq]))
      | replace removed added =>
        cases q with
        | replace => exact ((hhead _ rfl).elim id id).elim
        | keep lines =>
          have hlines : lines ≠ [] := hq.elim id id
          exact ⟨hleft.forall_of_append (by simp [Part.old, hlines]),
            hright.forall_of_append (by simp [Part.new, hlines])⟩

/-! ### Shortened parts -/

section Shortened

variable {p : Placed}

theorem Placed.firstLines_isEnded (h : p.part.IsEnded) : p.firstLines.part.IsEnded := by
  obtain ⟨oldStart, newStart, part⟩ := p
  cases part with
  | replace => exact h
  | keep lines => exact .keep fun line hline => h.1 line (List.mem_of_mem_take hline)

theorem Placed.lastLines_isEnded (h : p.part.IsEnded) : p.lastLines.part.IsEnded := by
  obtain ⟨oldStart, newStart, part⟩ := p
  cases part with
  | replace => exact h
  | keep lines => exact .keep fun line hline => h.1 line (List.mem_of_mem_drop hline)

theorem Placed.firstLines_endsTexts (h : p.part.EndsTexts) : p.firstLines.part.EndsTexts := by
  obtain ⟨oldStart, newStart, part⟩ := p
  cases part with
  | replace => exact h
  | keep lines => exact .keep (h.1.sublist (List.take_sublist _ _))

theorem Placed.lastLines_endsTexts (h : p.part.EndsTexts) : p.lastLines.part.EndsTexts := by
  obtain ⟨oldStart, newStart, part⟩ := p
  cases part with
  | replace => exact h
  | keep lines => exact .keep (h.1.sublist (List.drop_sublist _ _))

/-- The first lines of a long kept part are not its last. -/
theorem Placed.firstLines_isEnded_of_long {lines : List String} (hpart : p.part = .keep lines)
    (hlong : 2 * context < lines.length) (h : p.part.EndsTexts) : p.firstLines.part.IsEnded := by
  obtain ⟨oldStart, newStart, part⟩ := p
  obtain rfl : part = .keep lines := hpart
  have hlines : IsText (lines.take context ++ lines.drop context) := by
    rw [List.take_append_drop]
    exact h.1
  refine .keep (hlines.forall_of_append ?_)
  rw [ne_eq, List.drop_eq_nil_iff]
  omega

/-- Kept parts count for nothing, whatever they are shortened to. -/
theorem Placed.firstLines_count {f : Part → Nat} (hf : ∀ lines, f (.keep lines) = 0) (p : Placed) :
    f p.firstLines.part = f p.part := by
  obtain ⟨oldStart, newStart, part⟩ := p
  cases part with
  | replace => rfl
  | keep lines => exact (hf _).trans (hf _).symm

theorem Placed.lastLines_count {f : Part → Nat} (hf : ∀ lines, f (.keep lines) = 0) (p : Placed) :
    f p.lastLines.part = f p.part := by
  obtain ⟨oldStart, newStart, part⟩ := p
  cases part with
  | replace => rfl
  | keep lines => exact (hf _).trans (hf _).symm

end Shortened

/-! ### The first and the last item -/

section Ends

variable {α : Type} {P Q : α → Prop} {f : α → α} {items : List α}

theorem UpToLast.onFirst (h : UpToLast P Q items) (hfirst : ∀ a, P a → P (f a)) (hlast : ∀ a, Q a → Q (f a)) :
    UpToLast P Q (onFirst f items) := by
  cases h with
  | nil => exact .nil
  | last ha => exact .last (hlast _ ha)
  | cons ha hrest => exact .cons (hfirst _ ha) hrest

theorem onLast_append (f : α → α) (init : List α) (a : α) : onLast f (init ++ [a]) = init ++ [f a] := by
  simp [onLast, Diff.onFirst]

theorem UpToLast.onLast (h : UpToLast P Q items) (hlast : ∀ a, Q a → Q (f a)) (hfirst : ∀ a, P a → P (f a)) :
    UpToLast P Q (onLast f items) := by
  rcases List.eq_nil_or_concat items with rfl | ⟨init, a, rfl⟩
  · exact .nil
  · rw [List.concat_eq_append] at h ⊢
    rw [onLast_append]
    refine .append (h.forall_of_append (List.cons_ne_nil _ _)) ?_
    cases h.of_append_right with
    | last ha => exact .last (hlast _ ha)
    | cons ha hrest => exact .cons (hfirst _ ha) hrest

theorem map_onFirst {g : α → Nat} (h : ∀ a, g (f a) = g a) (items : List α) :
    (onFirst f items).map g = items.map g := by
  cases items with
  | nil => rfl
  | cons a rest => rw [Diff.onFirst, List.map_cons, List.map_cons, h]

theorem map_onLast {g : α → Nat} (h : ∀ a, g (f a) = g a) (items : List α) :
    (onLast f items).map g = items.map g := by
  rw [Diff.onLast, List.map_reverse, map_onFirst h, ← List.map_reverse, List.reverse_reverse]

end Ends

/-! ### Hunks -/

theorem map_part_place (oldStart newStart : Nat) (parts : List Part) :
    (place oldStart newStart parts).map Placed.part = parts := by
  induction parts generalizing oldStart newStart with
  | nil => rfl
  | cons p rest ih => rw [place, List.map_cons, ih]

/-- What the hunks hold of a part: the first and the last lines of a kept part that is long, and any other part
as it is. -/
def Placed.shown (p : Placed) : List Placed :=
  match p.part with
  | .keep lines => if 2 * context < lines.length then [p.firstLines, p.lastLines] else [p]
  | .replace _ _ => [p]

theorem flatten_hunksFrom (group placed : List Placed) :
    (hunksFrom group placed).flatten = group.reverse ++ placed.flatMap Placed.shown := by
  fun_induction hunksFrom group placed with
  | case1 group => simp
  | case2 group p rest lines hpart hlong ih =>
    simp [ih, Placed.shown, hpart, hlong]
  | case3 group p rest lines hpart hlong ih =>
    simp [ih, Placed.shown, hpart, hlong]
  | case4 group p rest hpart ih =>
    cases hreplaced : p.part with
    | keep lines => exact (hpart lines hreplaced).elim
    | replace removed added => simp [ih, Placed.shown, hreplaced]

/-- The parts that are put into hunks. -/
def trimmed (parts : List Part) : List Placed :=
  onLast Placed.firstLines (onFirst Placed.lastLines (place 0 0 parts))

theorem hunks_eq (parts : List Part) : hunks parts = (hunksFrom [] (trimmed parts)).filter showsChange := rfl

theorem hunks_ne_nil (parts : List Part) : [] ∉ hunks parts := by
  intro hmem
  cases (List.mem_filter.1 hmem).2

theorem upToLast_trimmed (h : UpToLast Part.IsEnded Part.EndsTexts parts) :
    UpToLast (fun p : Placed => p.part.IsEnded) (fun p => p.part.EndsTexts) (trimmed parts) := by
  have hplace : UpToLast (fun p : Placed => p.part.IsEnded) (fun p => p.part.EndsTexts) (place 0 0 parts) :=
    .of_map (by rwa [map_part_place])
  exact UpToLast.onLast (UpToLast.onFirst hplace (fun _ => Placed.lastLines_isEnded)
    fun _ => Placed.lastLines_endsTexts) (fun _ => Placed.firstLines_endsTexts) fun _ => Placed.firstLines_isEnded

/-- Of what the hunks show, only the last part can have lines without an end. -/
theorem upToLast_hunks (h : UpToLast Part.IsEnded Part.EndsTexts parts) :
    UpToLast (fun p : Placed => p.part.IsEnded) (fun p => p.part.EndsTexts) (hunks parts).flatten := by
  refine UpToLast.sublist ?_ (List.filter_sublist.flatten)
  rw [flatten_hunksFrom, List.reverse_nil, List.nil_append]
  refine (upToLast_trimmed h).flatMap ?_ ?_
  · intro p hp q hq
    unfold Placed.shown at hq
    split at hq
    · split at hq
      · rcases List.mem_pair.1 hq with rfl | rfl
        · exact Placed.firstLines_isEnded hp
        · exact Placed.lastLines_isEnded hp
      · obtain rfl := List.mem_singleton.1 hq
        exact hp
    · obtain rfl := List.mem_singleton.1 hq
      exact hp
  · intro p hp
    unfold Placed.shown
    split
    · rename_i lines hpart
      split
      · rename_i hlong
        exact .cons (Placed.firstLines_isEnded_of_long hpart hlong hp) (.last (Placed.lastLines_endsTexts hp))
      · exact .last hp
    · exact .last hp

theorem count_of_not_showsChange {f : Part → Nat} (hf : ∀ lines, f (.keep lines) = 0) {hunk : List Placed}
    (h : showsChange hunk = false) : (hunk.map fun p => f p.part).sum = 0 := by
  rw [List.sum_eq_zero_iff_forall_eq_nat]
  intro n hn
  obtain ⟨p, hp, rfl⟩ := List.mem_map.1 hn
  have hkept := List.any_eq_false.1 h p hp
  cases hpart : p.part with
  | keep lines => exact hf lines
  | replace removed added => simp [hpart] at hkept

/-- Whatever is counted of the parts that are not kept, the hunks show as much of it as there is. -/
theorem sum_hunks {f : Part → Nat} (hf : ∀ lines, f (.keep lines) = 0) (parts : List Part) :
    ((hunks parts).flatten.map fun p => f p.part).sum = (parts.map f).sum := by
  have hshown : ∀ p : Placed, (p.shown.map fun p => f p.part).sum = f p.part := by
    intro p
    unfold Placed.shown
    split
    · rename_i lines hpart
      split
      · simp [Placed.firstLines_count hf, Placed.lastLines_count hf, hpart, hf]
      · simp
    · simp
  have htrimmed : ((trimmed parts).map fun p => f p.part) = parts.map f := by
    rw [trimmed, map_onLast (Placed.firstLines_count hf), map_onFirst (Placed.lastLines_count hf)]
    conv_rhs => rw [← map_part_place 0 0 parts, List.map_map]
    rfl
  have hall : ((hunksFrom [] (trimmed parts)).flatten.map fun p => f p.part).sum = (parts.map f).sum := by
    rw [flatten_hunksFrom, List.reverse_nil, List.nil_append, ← htrimmed]
    generalize trimmed parts = placed
    induction placed with
    | nil => rfl
    | cons p rest ih =>
      rw [List.flatMap_cons, List.map_append, List.sum_append, hshown, ih, List.map_cons, List.sum_cons]
  -- What shows no change counts nothing, so leaving it out changes no sum.
  rw [← hall, hunks_eq]
  generalize hunksFrom [] (trimmed parts) = hs
  induction hs with
  | nil => rfl
  | cons hunk hs ih =>
    rw [List.flatten_cons, List.map_append, List.sum_append]
    by_cases hchange : showsChange hunk = true
    · rw [List.filter_cons_of_pos hchange, List.flatten_cons, List.map_append, List.sum_append, ih]
    · rw [List.filter_cons_of_neg hchange, ih,
        count_of_not_showsChange hf (eq_false_of_ne_true hchange), Nat.zero_add]

end WebMigration.Diff
