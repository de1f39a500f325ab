import WebMigration.Proofs.Diff.Hunks

/-!
# What the counts of a diff say

The added and the removed lines are counted by their marks in the text of the diff.  A line whose own text
starts with the mark twice looks like the head of the diff and is not counted.  A removed last line without an
end has the first added line behind it, which is not counted either.  The counts differ as the numbers of lines
of the two texts do exactly when these lines make up for each other.
-/

namespace WebMigration.Diff

open Text (isLineEnd linesWithEnds withoutEnd)

/-! ### Marks -/

/-- A line starts with a mark once, and not three times. -/
def isMarkedBy (mark : Char) (line : List Char) : Bool :=
  [mark].isPrefixOf line && !([mark, mark, mark].isPrefixOf line)

theorem isMarked_withoutEnd {text : String} {mark : Char} (htext : text.toList = [mark])
    (hmark : isLineEnd mark = false) (line : List Char) :
    isMarked text (String.ofList (withoutEnd line)) = isMarkedBy mark line := by
  have hone := @Text.isPrefixOf_withoutEnd [mark] (by simp [hmark]) line
  have hthree := @Text.isPrefixOf_withoutEnd [mark, mark, mark] (by simp [hmark]) line
  simp only [isMarked, Text.startsWith, String.toList_ofList, String.toList_append, htext, isMarkedBy, ← hone,
    ← hthree, List.cons_append, List.nil_append]

theorem counts_eq (diff : String) :
    counts diff = ((linesWithEnds diff.toList).countP (isMarkedBy '+'),
      (linesWithEnds diff.toList).countP (isMarkedBy '-')) := by
  have hplus := @isMarked_withoutEnd "+" '+' rfl (by decide)
  have hminus := @isMarked_withoutEnd "-" '-' rfl (by decide)
  simp only [counts, Text.lines, List.countP_map, Function.comp_def, hplus, hminus]

/-! ### The lines of a part in the diff -/

namespace Part

/-- The lines of the first text that are not kept. -/
def removed : Part → List String
  | keep _ => []
  | replace removed _ => removed

/-- The lines of the second text that are not kept. -/
def added : Part → List String
  | keep _ => []
  | replace _ added => added

/-- The last removed line has no end, and the added line that stands behind it would be counted. -/
def runsTogether (p : Part) : Bool :=
  p.removed.getLast?.any (fun line => !line.toList.getLast?.any isLineEnd) &&
    p.added.head?.any fun line => !Text.startsWith "++" line

/-- The number of added lines of the part that are not counted. -/
def uncountedAdded (p : Part) : Nat :=
  p.added.countP (Text.startsWith "++") + if p.runsTogether then 1 else 0

/-- The number of removed lines of the part that are not counted. -/
def uncountedRemoved (p : Part) : Nat := p.removed.countP (Text.startsWith "--")

end Part

/-- Lines with others behind them: the first of these stands in the line of a last one without an end. -/
def runOn : List (List Char) → List (List Char) → List (List Char)
  | [], back => back
  | [line], next :: back =>
      if line.getLast?.any isLineEnd then line :: next :: back else (line ++ next) :: back
  | line :: front, back => line :: runOn front back

/-- The lines of the diff that show a part. -/
def Part.readLines : Part → List (List Char)
  | .keep lines => lines.map fun line => ' ' :: line.toList
  | .replace removed added =>
      runOn (removed.map fun line => '-' :: line.toList) (added.map fun line => '+' :: line.toList)

theorem flatten_runOn (front back : List (List Char)) :
    (runOn front back).flatten = front.flatten ++ back.flatten := by
  fun_induction runOn front back with
  | case1 back => simp
  | case2 line next back hend => simp
  | case3 line next back hend => simp
  | case4 line front back hlast ih => simp [ih]

/-- A line as the diff shows it: with an end, and with a mark before it. -/
def IsShown (line : List Char) : Prop := Text.IsEnded line ∧ line.head? ≠ some '\n'

/-- A last line as the diff may show it. -/
def IsShownOpen (line : List Char) : Prop := Text.IsOpen line ∧ line.head? ≠ some '\n'

theorem isShown_cons {mark : Char} {line : List Char} (hmark : isLineEnd mark = false) (h : Text.IsEnded line) :
    IsShown (mark :: line) := by
  refine ⟨@Text.IsEnded.append line [mark] (by simp [hmark]) h, ?_⟩
  rintro hline
  obtain rfl := Option.some.inj hline
  cases hmark

theorem isShownOpen_cons {mark : Char} {line : List Char} (hmark : isLineEnd mark = false)
    (h : Text.IsOpen line) : IsShownOpen (mark :: line) := by
  refine ⟨@Text.IsOpen.append line [mark] (by simp [hmark]) h, ?_⟩
  rintro hline
  obtain rfl := Option.some.inj hline
  cases hmark

theorem head?_append_of_isOpen {line next : List Char} (h : IsShownOpen line) :
    (line ++ next).head? ≠ some '\n' := by
  rw [List.head?_append_of_ne_nil _ h.1.1]
  exact h.2

theorem upToLast_runOn {front back : List (List Char)} (hfront : UpToLast IsShown IsShownOpen front)
    (hback : UpToLast IsShown IsShownOpen back) : UpToLast IsShown IsShownOpen (runOn front back) := by
  fun_induction runOn front back with
  | case1 back => exact hback
  | case2 line next back hend =>
    cases hfront with
    | last hline => exact absurd hend (by rw [hline.1.getLast]; decide)
    | cons hline hrest => exact .cons hline hback
  | case3 line next back hend =>
    cases hfront with
    | cons hline hrest => exact absurd hline.1.getLast hend
    | last hline =>
      have hhead := @head?_append_of_isOpen line next hline
      cases hback with
      | last hnext => exact .last ⟨hnext.1.append hline.1.2, hhead⟩
      | cons hnext hrest => exact .cons ⟨hnext.1.append hline.1.2, hhead⟩ hrest
  | case4 line front back hlast ih =>
    cases hfront with
    | cons hline hrest => exact .cons hline (ih hrest hback)
    | last hline =>
      cases back with
      | nil => exact .last hline
      | cons next back => exact (hlast next back rfl rfl).elim

theorem runOn_of_ended {front : List (List Char)} (hfront : ∀ line ∈ front, IsShown line)
    (back : List (List Char)) : runOn front back = front ++ back := by
  fun_induction runOn front back with
  | case1 back => rfl
  | case2 line next back hend => rfl
  | case3 line next back hend => exact absurd (hfront line List.mem_cons_self).1.getLast hend
  | case4 line front back hlast ih =>
    rw [ih fun other hother => hfront other (List.mem_cons_of_mem _ hother)]
    rfl

/-- The lines that show a part have ends if those of the part have, -/
theorem Part.isShown_readLines {p : Part} (h : p.IsEnded) : ∀ line ∈ p.readLines, IsShown line := by
  have hmap : ∀ {mark : Char} {lines : List String}, isLineEnd mark = false →
      (∀ line ∈ lines, Text.IsEnded line.toList) →
      ∀ line ∈ lines.map (fun line => mark :: line.toList), IsShown line := by
    intro mark lines hmark hlines line hline
    obtain ⟨line, hmem, rfl⟩ := List.mem_map.1 hline
    exact isShown_cons hmark (hlines line hmem)
  cases p with
  | keep lines => exact hmap (by decide) h.1
  | replace removed added =>
    have hremoved := @hmap '-' removed (by decide) h.1
    have hadded := @hmap '+' added (by decide) h.2
    rw [readLines, runOn_of_ended hremoved]
    exact fun line hline => (List.mem_append.1 hline).elim (hremoved line) (hadded line)

/-- and all but the last have ends if those of the part do. -/
theorem Part.upToLast_readLines {p : Part} (h : p.EndsTexts) : UpToLast IsShown IsShownOpen p.readLines := by
  have hmap : ∀ {mark : Char} {lines : List String}, isLineEnd mark = false → IsText lines →
      UpToLast IsShown IsShownOpen (lines.map fun line => mark :: line.toList) := fun hmark hlines =>
    hlines.map (fun _ hline => isShown_cons hmark hline) fun _ hline => isShownOpen_cons hmark hline
  cases p with
  | keep lines => exact hmap (by decide) h.1
  | replace removed added => exact upToLast_runOn (hmap (by decide) h.1) (hmap (by decide) h.2)

theorem flatMap_marked {text : String} {mark : Char} (htext : text.toList = [mark]) (lines : List String) :
    (lines.map (text ++ ·)).flatMap String.toList = (lines.map fun line => mark :: line.toList).flatten := by
  simp [List.flatMap, Function.comp_def, htext]

theorem Part.flatten_readLines (p : Part) : p.readLines.flatten = (marked p).flatMap String.toList := by
  cases p with
  | keep lines => exact (@flatMap_marked " " ' ' rfl lines).symm
  | replace removed added =>
    rw [readLines, flatten_runOn, marked, List.flatMap_append, @flatMap_marked "-" '-' rfl removed,
      @flatMap_marked "+" '+' rfl added]

/-! ### Counting the lines of a part -/

theorem isMarkedBy_cons (mark : Char) (line : List Char) :
    isMarkedBy mark (mark :: line) = !([mark, mark].isPrefixOf line) := by
  simp [isMarkedBy, List.isPrefixOf]

theorem isMarkedBy_of_ne {mark other : Char} (h : mark ≠ other) (line : List Char) :
    isMarkedBy mark (other :: line) = false := by
  simp [isMarkedBy, List.isPrefixOf, h]

/-- What stands behind a removed line without an end does not change whether it is counted. -/
theorem isMarkedBy_behind (line next : List Char) :
    isMarkedBy '-' ('-' :: line ++ '+' :: next) = isMarkedBy '-' ('-' :: line) := by
  rcases line with - | ⟨c, - | ⟨d, line⟩⟩ <;> simp [isMarkedBy, List.isPrefixOf]

theorem runOn_cons_cons (line next : List Char) (front back : List (List Char)) :
    runOn (line :: next :: front) back = line :: runOn (next :: front) back := rfl

theorem isMarkedBy_added (line : String) :
    isMarkedBy '+' ('+' :: line.toList) = !Text.startsWith "++" line :=
  isMarkedBy_cons '+' line.toList

theorem isMarkedBy_removed (line : String) :
    isMarkedBy '-' ('-' :: line.toList) = !Text.startsWith "--" line :=
  isMarkedBy_cons '-' line.toList

theorem countP_of_ne {mark other : Char} (h : mark ≠ other) (lines : List String) :
    (lines.map fun line => other :: line.toList).countP (isMarkedBy mark) = 0 := by
  rw [List.countP_map, List.countP_eq_zero]
  intro line _
  simp [isMarkedBy_of_ne h]

theorem isLineEnd_getLast_removed (line : List Char) :
    ('-' :: line).getLast?.any isLineEnd = line.getLast?.any isLineEnd := by
  have hmark : isLineEnd '-' = false := by decide
  rw [List.getLast?_cons]
  cases line.getLast? <;> simp [hmark]

/-- The first added line is lost if it stands behind a removed line without an end. -/
theorem countP_runOn_added (removed added : List String) :
    (runOn (removed.map fun line => '-' :: line.toList) (added.map fun line => '+' :: line.toList)).countP
        (isMarkedBy '+') + (if (Part.replace removed added).runsTogether then 1 else 0) =
      added.countP fun line => !Text.startsWith "++" line := by
  have hadded : ∀ added : List String, (added.map fun line => '+' :: line.toList).countP (isMarkedBy '+') =
      added.countP fun line => !Text.startsWith "++" line := by
    intro added
    simp only [List.countP_map, Function.comp_def, isMarkedBy_added]
  -- Only the last of the removed lines meets an added one.
  induction removed with
  | nil => exact hadded added
  | cons line removed ih =>
    have hline : isMarkedBy '+' ('-' :: line.toList) = false := isMarkedBy_of_ne (by decide) _
    cases removed with
    | cons next removed =>
      rw [List.map_cons, List.map_cons, runOn_cons_cons, List.countP_cons, hline, ← ih]
      rfl
    | nil =>
      cases added with
      | nil => simp [runOn, hline, Part.runsTogether, Part.added]
      | cons first added =>
        have hnext : isMarkedBy '+' ('-' :: line.toList ++ '+' :: first.toList) = false :=
          isMarkedBy_of_ne (by decide) _
        have hfirst := hadded (first :: added)
        rw [List.map_cons] at hfirst
        rw [List.map_singleton, List.map_cons, runOn, isLineEnd_getLast_removed]
        cases hend : line.toList.getLast?.any isLineEnd with
        | true => simp [Part.runsTogether, Part.removed, hend, hline, hfirst]
        | false =>
          rw [List.countP_cons, isMarkedBy_added] at hfirst
          rw [if_neg Bool.false_ne_true, List.countP_cons, hnext, ← hfirst]
          simp [Part.runsTogether, Part.removed, Part.added, hend]

/-- A removed line is counted with anything behind it as it is without. -/
theorem countP_runOn_removed (removed added : List String) :
    (runOn (removed.map fun line => '-' :: line.toList) (added.map fun line => '+' :: line.toList)).countP
        (isMarkedBy '-') = removed.countP fun line => !Text.startsWith "--" line := by
  have hadded : (added.map fun line => '+' :: line.toList).countP (isMarkedBy '-') = 0 :=
    countP_of_ne (by decide) added
  induction removed with
  | nil => exact hadded
  | cons line removed ih =>
    cases removed with
    | cons next removed =>
      rw [List.map_cons, List.map_cons, runOn_cons_cons, List.countP_cons, isMarkedBy_removed, List.countP_cons,
        ← ih]
      rfl
    | nil =>
      cases added with
      | nil => simp [runOn, List.countP_cons, isMarkedBy_removed]
      | cons first added =>
        have hnext := isMarkedBy_behind line.toList first.toList
        have hrest : (added.map fun line => '+' :: line.toList).countP (isMarkedBy '-') = 0 :=
          countP_of_ne (by decide) added
        rw [List.map_cons] at hadded
        rw [List.map_singleton, List.map_cons, runOn, isLineEnd_getLast_removed, List.countP_singleton]
        split
        · rw [List.countP_cons, hadded, isMarkedBy_removed, Nat.zero_add]
        · rw [List.countP_cons, hrest, hnext, isMarkedBy_removed, Nat.zero_add]

theorem countP_not_add (text : String) (lines : List String) :
    (lines.countP fun line => !Text.startsWith text line) + lines.countP (Text.startsWith text) = lines.length := by
  rw [List.length_eq_countP_add_countP (Text.startsWith text), Nat.add_comm]
  simp

/-- An added line is counted unless it starts with the mark twice, or stands behind a removed line. -/
theorem Part.countP_added (p : Part) :
    p.readLines.countP (isMarkedBy '+') + p.uncountedAdded = p.added.length := by
  cases p with
  | keep lines => exact countP_of_ne (by decide) lines
  | replace removed added =>
    have hshown := countP_runOn_added removed added
    have hall := countP_not_add "++" added
    show (runOn _ _).countP _ + (added.countP _ + if _ then 1 else 0) = added.length
    omega

/-- A removed line is counted unless it starts with the mark twice. -/
theorem Part.countP_removed (p : Part) :
    p.readLines.countP (isMarkedBy '-') + p.uncountedRemoved = p.removed.length := by
  cases p with
  | keep lines => exact countP_of_ne (by decide) lines
  | replace removed added =>
    rw [readLines, countP_runOn_removed]
    exact countP_not_add "--" removed

/-! ### Counting the lines of a diff -/

theorem isLineEnd_of_isDigit {c : Char} (h : c.isDigit = true) : isLineEnd c = false := by
  have hrange : 48 ≤ c.toNat ∧ c.toNat ≤ 57 := by
    simpa [Char.isDigit, UInt32.le_iff_toNat_le] using h
  have hne : ∀ d : Char, 57 < d.toNat → (c == d) = false := by
    intro d hd
    rw [beq_eq_false_iff_ne]
    rintro rfl
    omega
  simp only [isLineEnd, hne '\u0085' (by decide), hne '\u2028' (by decide), hne '\u2029' (by decide)]
  simp [Char.le_def, UInt32.le_iff_toNat_le]
  omega

theorem isLineEnd_range (start length : Nat) : ∀ c ∈ (range start length).toList, isLineEnd c = false := by
  have hnumber : ∀ (n : Nat) (c : Char), c ∈ (toString n).toList → isLineEnd c = false := fun n c hc =>
    isLineEnd_of_isDigit (Nat.isDigit_of_mem_toDigits (by decide) (by decide) (Nat.toList_repr (n := n) ▸ hc))
  have hcomma : isLineEnd ',' = false := by decide
  have hzero : isLineEnd '0' = false := by decide
  unfold range
  split
  · exact hnumber _
  · split
    · rw [String.toList_append]
      intro c hc
      rcases List.mem_append.1 hc with hc | hc
      · exact hnumber _ c hc
      · rcases List.mem_pair.1 hc with rfl | rfl
        · exact hcomma
        · exact hzero
    · rw [String.toList_append, String.toList_append]
      intro c hc
      rcases List.mem_append.1 hc with hc | hc
      · rcases List.mem_append.1 hc with hc | hc
        · exact hnumber _ c hc
        · obtain rfl := List.mem_singleton.1 hc
          exact hcomma
      · exact hnumber _ c hc

/-- The head of a hunk is a line with another mark. -/
theorem exists_head (hunk : List Placed) : ∃ rest, (head hunk).toList = '@' :: rest ∧ Text.IsEnded rest := by
  obtain ⟨start, length, start', length', hhead⟩ : ∃ start length start' length',
      head hunk = "@@ -" ++ range start length ++ " +" ++ range start' length' ++ " @@\n" := ⟨_, _, _, _, rfl⟩
  have hlast : Text.IsEnded " @@\n".toList :=
    @Text.IsEnded.mk " @@".toList ['\n'] (Text.isLineEnd_of_any rfl) (.inr ⟨'\n', by decide, rfl⟩)
  have hnew := hlast.append (isLineEnd_range start' length')
  have hplus := @Text.IsEnded.append _ " +".toList (Text.isLineEnd_of_any rfl) hnew
  have hold := hplus.append (isLineEnd_range start length)
  have hrest := @Text.IsEnded.append _ "@ -".toList (Text.isLineEnd_of_any rfl) hold
  refine ⟨_, ?_, hrest⟩
  rw [hhead]
  simp

theorem isShown_head (hunk : List Placed) : IsShown (head hunk).toList := by
  obtain ⟨rest, hhead, hrest⟩ := exists_head hunk
  rw [hhead]
  exact isShown_cons (by decide) hrest

theorem isMarkedBy_head {mark : Char} (hmark : mark ≠ '@') (hunk : List Placed) :
    isMarkedBy mark (head hunk).toList = false := by
  obtain ⟨rest, hhead, -⟩ := exists_head hunk
  rw [hhead]
  exact isMarkedBy_of_ne hmark rest

/-- The lines of the diff that show a hunk. -/
def shownLines (hunk : List Placed) : List (List Char) :=
  (head hunk).toList :: hunk.flatMap fun p => p.part.readLines

theorem isShown_shownLines {hunk : List Placed} (h : ∀ p ∈ hunk, p.part.IsEnded) :
    ∀ line ∈ shownLines hunk, IsShown line := by
  refine List.forall_mem_cons.2 ⟨isShown_head hunk, fun line hline => ?_⟩
  obtain ⟨p, hp, hline⟩ := List.mem_flatMap.1 hline
  exact Part.isShown_readLines (h p hp) line hline

theorem upToLast_shownLines {hunk : List Placed}
    (h : UpToLast (fun p : Placed => p.part.IsEnded) (fun p => p.part.EndsTexts) hunk) :
    UpToLast IsShown IsShownOpen (shownLines hunk) :=
  .cons (isShown_head hunk) (h.flatMap (fun _ => Part.isShown_readLines) fun _ => Part.upToLast_readLines)

theorem flatten_shownLines (hunk : List Placed) :
    (shownLines hunk).flatten = (hunkLines hunk).flatMap String.toList := by
  rw [shownLines, hunkLines, List.flatten_cons, List.flatMap_cons, List.flatMap_assoc]
  congr 1
  induction hunk with
  | nil => rfl
  | cons p hunk ih => rw [List.flatMap_cons, List.flatMap_cons, List.flatten_append, ih, Part.flatten_readLines]

theorem flatten_flatMap_shownLines (hs : List (List Placed)) :
    (hs.flatMap shownLines).flatten = (hs.flatMap hunkLines).flatMap String.toList := by
  induction hs with
  | nil => rfl
  | cons hunk hs ih =>
    rw [List.flatMap_cons, List.flatten_append, flatten_shownLines, ih, List.flatMap_cons, List.flatMap_append]

theorem countP_shownLines {mark : Char} (hmark : mark ≠ '@') (hs : List (List Placed)) :
    (hs.flatMap shownLines).countP (isMarkedBy mark) =
      (hs.flatten.map fun p => p.part.readLines.countP (isMarkedBy mark)).sum := by
  induction hs with
  | nil => rfl
  | cons hunk hs ih =>
    rw [List.flatMap_cons, List.countP_append, ih, List.flatten_cons, List.map_append, List.sum_append, shownLines,
      List.countP_cons_of_neg (by simp [isMarkedBy_head hmark]), List.countP_flatMap]
    rfl

/-- The lines of a diff are its head and the lines of its hunks. -/
theorem linesWithEnds_join {hs : List (List Placed)} (h : UpToLast IsShown IsShownOpen (hs.flatMap shownLines)) :
    linesWithEnds (String.join ("--- original\n" :: "+++ transformed\n" :: hs.flatMap hunkLines)).toList =
      "--- original\n".toList :: "+++ transformed\n".toList :: hs.flatMap shownLines := by
  have hold : IsShown "--- original\n".toList :=
    isShown_cons (by decide)
      (@Text.IsEnded.mk "-- original".toList ['\n'] (Text.isLineEnd_of_any rfl) (.inr ⟨'\n', by decide, rfl⟩))
  have hnew : IsShown "+++ transformed\n".toList :=
    isShown_cons (by decide)
      (@Text.IsEnded.mk "++ transformed".toList ['\n'] (Text.isLineEnd_of_any rfl) (.inr ⟨'\n', by decide, rfl⟩))
  have hall := UpToLast.cons hold (.cons hnew h)
  rw [← Text.linesWithEnds_flatten (hall.imp (fun _ h => h.1) fun _ h => h.1)
    (hall.forall_mem (fun _ h => h.2) fun _ h => h.2), String.toList_join, List.flatMap_cons, List.flatMap_cons,
    ← flatten_flatMap_shownLines]
  rfl

/-- What is counted of a diff are the lines that show its hunks. -/
theorem counts_join {hs : List (List Placed)} (h : UpToLast IsShown IsShownOpen (hs.flatMap shownLines)) :
    counts (if hs.isEmpty then "" else
        String.join ("--- original\n" :: "+++ transformed\n" :: hs.flatMap hunkLines)) =
      ((hs.flatten.map fun p => p.part.readLines.countP (isMarkedBy '+')).sum,
        (hs.flatten.map fun p => p.part.readLines.countP (isMarkedBy '-')).sum) := by
  cases hs with
  | nil => rfl
  | cons hunk hs =>
    have hold : isMarkedBy '+' "--- original\n".toList = false ∧ isMarkedBy '-' "--- original\n".toList = false :=
      ⟨rfl, rfl⟩
    have hnew : isMarkedBy '+' "+++ transformed\n".toList = false ∧
        isMarkedBy '-' "+++ transformed\n".toList = false := ⟨rfl, rfl⟩
    rw [List.isEmpty_cons, if_neg Bool.false_ne_true, counts_eq, linesWithEnds_join h,
      ← countP_shownLines (by decide), ← countP_shownLines (by decide)]
    simp only [List.countP_cons, hold, hnew, Bool.false_eq_true, if_false, Nat.add_zero]

/-- What is counted of the diff of two texts are the lines that show the parts of their alignment. -/
theorem counts_unified (original changed : String) :
    let parts := align (Text.linesKeepingEnds original) (Text.linesKeepingEnds changed)
    counts (unified original changed) =
      ((parts.map fun p => p.readLines.countP (isMarkedBy '+')).sum,
        (parts.map fun p => p.readLines.countP (isMarkedBy '-')).sum) := by
  intro parts
  have hparts : UpToLast Part.IsEnded Part.EndsTexts parts :=
    (isAlignment_align _ _).upToLast (isText_linesKeepingEnds original) (isText_linesKeepingEnds changed)
  have hhunks : UpToLast IsShown IsShownOpen ((hunks parts).flatMap shownLines) :=
    ((upToLast_hunks hparts).of_flatten (hunks_ne_nil _)).flatMap (fun _ => isShown_shownLines)
      fun _ => upToLast_shownLines
  have hplus := @sum_hunks (fun p => p.readLines.countP (isMarkedBy '+')) (countP_of_ne (by decide)) parts
  have hminus := @sum_hunks (fun p => p.readLines.countP (isMarkedBy '-')) (countP_of_ne (by decide)) parts
  rw [← hplus, ← hminus, ← counts_join hhunks]
  rfl

/-! ### The counts and the numbers of lines -/

/-- A part has as many lines more in the second text as it adds more than it removes. -/
theorem Part.length_new (p : Part) : p.new.length + p.removed.length = p.old.length + p.added.length := by
  cases p with
  | keep lines => rfl
  | replace removed added => exact Nat.add_comm _ _

theorem sum_counts (parts : List Part) :
    (parts.map fun p => p.readLines.countP (isMarkedBy '+')).sum + (parts.map Part.uncountedAdded).sum +
        (parts.flatMap Part.old).length =
      (parts.map fun p => p.readLines.countP (isMarkedBy '-')).sum + (parts.map Part.uncountedRemoved).sum +
        (parts.flatMap Part.new).length := by
  induction parts with
  | nil => rfl
  | cons p rest ih =>
    have hadded := p.countP_added
    have hremoved := p.countP_removed
    have hlength := p.length_new
    simp only [List.map_cons, List.sum_cons, List.flatMap_cons, List.length_append]
    omega

theorem length_lines (text : String) : (Text.lines text).length = (Text.linesKeepingEnds text).length := by
  rw [Text.lines, Text.linesKeepingEnds, List.length_map, List.length_map]

/-- The counts differ as the numbers of lines do, but for the lines that are not counted. -/
theorem counts_difference (original changed : String) :
    let parts := align (Text.linesKeepingEnds original) (Text.linesKeepingEnds changed)
    (counts (unified original changed)).1 + (parts.map Part.uncountedAdded).sum + (Text.lines original).length =
      (counts (unified original changed)).2 + (parts.map Part.uncountedRemoved).sum +
        (Text.lines changed).length := by
  intro parts
  have halignment : IsAlignment (Text.linesKeepingEnds original) (Text.linesKeepingEnds changed) parts :=
    isAlignment_align _ _
  have hcounts : counts (unified original changed) =
      ((parts.map fun p => p.readLines.countP (isMarkedBy '+')).sum,
        (parts.map fun p => p.readLines.countP (isMarkedBy '-')).sum) := counts_unified original changed
  have hsum := sum_counts parts
  rw [halignment.old, halignment.new, ← length_lines, ← length_lines] at hsum
  clear_value parts
  have hadded := congrArg Prod.fst hcounts
  have hremoved := congrArg Prod.snd hcounts
  dsimp only at hadded hremoved
  rw [hadded, hremoved, hsum]

theorem Part.mem_new_of_added {p : Part} {line : String} (h : line ∈ p.added) : line ∈ p.new := by
  cases p with
  | keep lines => cases h
  | replace removed added => exact h

theorem Part.mem_old_of_removed {p : Part} {line : String} (h : line ∈ p.removed) : line ∈ p.old := by
  cases p with
  | keep lines => cases h
  | replace removed added => exact h

/-- All lines of a part are counted if none starts with two marks, and no removed one has others behind it. -/
theorem Part.uncounted_eq_zero {p : Part} (hadded : ∀ line ∈ p.new, Text.startsWith "++" line = false)
    (hremoved : ∀ line ∈ p.old, Text.startsWith "--" line = false)
    (hends : ∀ line ∈ p.old, line.toList.getLast?.any isLineEnd = true) :
    p.uncountedAdded = 0 ∧ p.uncountedRemoved = 0 := by
  have hplus : p.added.countP (Text.startsWith "++") = 0 := by
    rw [List.countP_eq_zero]
    intro line hline
    rw [hadded line (mem_new_of_added hline)]
    exact Bool.false_ne_true
  have hminus : p.removed.countP (Text.startsWith "--") = 0 := by
    rw [List.countP_eq_zero]
    intro line hline
    rw [hremoved line (mem_old_of_removed hline)]
    exact Bool.false_ne_true
  have hfree : p.runsTogether = false := by
    rw [runsTogether]
    cases hlast : p.removed.getLast? with
    | none => rfl
    | some line =>
      have hend := hends line (mem_old_of_removed (List.mem_of_getLast? hlast))
      simp [hend]
  constructor
  · rw [uncountedAdded, hplus, hfree]
    rfl
  · rw [uncountedRemoved, hminus]

/-- The counts are right for plain texts: no line of the second text starts with the mark of an added line twice
and none of the first with the mark of a removed line, and all lines of the first have ends. -/
theorem counts_agree_of_plain {original changed : String}
    (hadded : ∀ line ∈ Text.linesKeepingEnds changed, Text.startsWith "++" line = false)
    (hremoved : ∀ line ∈ Text.linesKeepingEnds original, Text.startsWith "--" line = false)
    (hends : ∀ line ∈ Text.linesKeepingEnds original, line.toList.getLast?.any isLineEnd = true) :
    (counts (unified original changed)).1 + (Text.lines original).length =
      (counts (unified original changed)).2 + (Text.lines changed).length := by
  have hdifference := counts_difference original changed
  have halignment := isAlignment_align (Text.linesKeepingEnds original) (Text.linesKeepingEnds changed)
  generalize align (Text.linesKeepingEnds original) (Text.linesKeepingEnds changed) = parts at hdifference halignment
  have hzero : ∀ p ∈ parts, p.uncountedAdded = 0 ∧ p.uncountedRemoved = 0 := by
    intro p hp
    have hold : ∀ line ∈ p.old, line ∈ Text.linesKeepingEnds original := fun line hline =>
      halignment.old ▸ List.mem_flatMap.2 ⟨p, hp, hline⟩
    have hnew : ∀ line ∈ p.new, line ∈ Text.linesKeepingEnds changed := fun line hline =>
      halignment.new ▸ List.mem_flatMap.2 ⟨p, hp, hline⟩
    exact p.uncounted_eq_zero (fun line hline => hadded line (hnew line hline))
      (fun line hline => hremoved line (hold line hline)) fun line hline => hends line (hold line hline)
  have hsum : ∀ f : Part → Nat, (∀ p ∈ parts, f p = 0) → (parts.map f).sum = 0 := by
    intro f hf
    rw [List.map_congr_left hf]
    simp
  have hplus := hsum _ fun p hp => (hzero p hp).1
  have hminus := hsum _ fun p hp => (hzero p hp).2
  dsimp only at hdifference
  omega

/-- **The counts of a diff differ as the numbers of lines of the two texts do** exactly when as many added as
removed lines are not counted. -/
theorem counts_agree_iff (original changed : String) :
    let parts := align (Text.linesKeepingEnds original) (Text.linesKeepingEnds changed)
    let counted := counts (unified original changed)
    (counted.1 : Int) - counted.2 = (Text.lines changed).length - (Text.lines original).length ↔
      (parts.map Part.uncountedAdded).sum = (parts.map Part.uncountedRemoved).sum := by
  intro parts counted
  have hdifference : counted.1 + (parts.map Part.uncountedAdded).sum + (Text.lines original).length =
      counted.2 + (parts.map Part.uncountedRemoved).sum + (Text.lines changed).length :=
    counts_difference original changed
  omega

/-- An added line that starts with the mark twice is not counted. -/
theorem increment_uncounted :
    let counted := counts (unified "i += 1;\n" "++i;\n")
    (counted.1 : Int) - counted.2 ≠ (Text.lines "++i;\n").length - (Text.lines "i += 1;\n").length := by
  decide +kernel

end WebMigration.Diff
