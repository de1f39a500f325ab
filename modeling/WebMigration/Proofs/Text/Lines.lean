import WebMigration.Proofs.Text.Utf8
import WebMigration.Text.Basic

/-!
# Where a text stands in its lines

A text up to some character ends in one of its lines: so many lines are complete, and so many characters
of the next one are there.  Counting line feeds and bytes gives the same place exactly when no other
line end comes before, and every character of the last line is a single byte.
-/

namespace WebMigration.Text

/-- The number of lines that are complete, and the characters of the next one in reverse, after more
characters. -/
def afterLines (line : Nat) (current : List Char) : List Char → Nat × List Char
  | [] => (line, current)
  | '\r' :: '\n' :: r => afterLines (line + 1) [] r
  | c :: r => if isLineEnd c then afterLines (line + 1) [] r else afterLines line (c :: current) r

/-- Two texts with no line end of two characters across the seam. -/
def Parted (front back : List Char) : Prop := front.getLast? = some '\r' → back.head? ≠ some '\n'

section Lines

variable {front back current cs : List Char} {c : Char} {line : Nat}

theorem Parted.tail (h : Parted (c :: front) back) : Parted front back := by
  intro hlast
  refine h ?_
  cases front with
  | nil => cases hlast
  | cons d front => exact hlast

/-- A character that does not begin a line end of two characters in the first part begins none. -/
theorem Parted.cons (h : Parted (c :: front) back) (hpair : ∀ r, c = '\r' → front = '\n' :: r → False) :
    c = '\r' → (front ++ back).head? ≠ some '\n' := by
  rintro rfl hhead
  cases front with
  | nil => exact h rfl hhead
  | cons d front => exact hpair front rfl (by rw [Option.some.inj hhead])

/-- A line end of one character. -/
theorem linesAfter_cons (h : c = '\r' → cs.head? ≠ some '\n') (current : List Char) :
    linesAfter current (c :: cs) =
      if isLineEnd c then (c :: current).reverse :: linesAfter [] cs
      else linesAfter (c :: current) cs := by
  rw [linesAfter]
  rintro r rfl rfl
  exact h rfl rfl

/-- Lines are counted from any number on. -/
theorem afterLines_succ (line : Nat) (current cs : List Char) : afterLines (line + 1) current cs =
    ((afterLines line current cs).1 + 1, (afterLines line current cs).2) := by
  fun_induction afterLines line current cs with
  | case1 => rfl
  | case2 line current r ih => rw [afterLines, ih]
  | case3 line current c r hpair hend ih =>
    rw [afterLines, if_pos hend, ih]
    exact hpair
  | case4 line current c r hpair hend ih =>
    rw [afterLines, if_neg hend, ih]
    exact hpair

/-- The lines of a text in two parts: those that the first part completes, and those of the second part
after what is left of the first. -/
theorem linesAfter_append (h : Parted front back) (line : Nat) (current : List Char) :
    ∃ complete, linesAfter current (front ++ back) =
        complete ++ linesAfter (afterLines line current front).2 back ∧
      line + complete.length = (afterLines line current front).1 := by
  fun_induction afterLines line current front with
  | case1 line current => exact ⟨[], rfl, rfl⟩
  | case2 line current r ih =>
    obtain ⟨complete, hlines, hcount⟩ := ih h.tail.tail
    refine ⟨('\n' :: '\r' :: current).reverse :: complete, ?_, ?_⟩
    · rw [List.cons_append, List.cons_append, linesAfter, hlines]
      rfl
    · rw [← hcount, List.length_cons]
      omega
  | case3 line current c r hpair hend ih =>
    obtain ⟨complete, hlines, hcount⟩ := ih h.tail
    refine ⟨(c :: current).reverse :: complete, ?_, ?_⟩
    · rw [List.cons_append, linesAfter_cons (h.cons hpair), if_pos hend, hlines]
      rfl
    · rw [← hcount, List.length_cons]
      omega
  | case4 line current c r hpair hend ih =>
    obtain ⟨complete, hlines, hcount⟩ := ih h.tail
    refine ⟨complete, ?_, hcount⟩
    rw [List.cons_append, linesAfter_cons (h.cons hpair), if_neg hend, hlines]

theorem isLineEnd_of_mem_afterLines (hcurrent : ∀ c ∈ current, isLineEnd c = false) (line : Nat)
    (front : List Char) : ∀ c ∈ (afterLines line current front).2, isLineEnd c = false := by
  fun_induction afterLines line current front with
  | case1 => exact hcurrent
  | case2 line current r ih => exact ih nofun
  | case3 line current c r hpair hend ih => exact ih nofun
  | case4 line current c r hpair hend ih =>
    exact ih (List.forall_mem_cons.2 ⟨Bool.not_eq_true _ ▸ hend, hcurrent⟩)

/-- What is there of the last line stands at the end of the text. -/
theorem afterLines_suffix (line : Nat) (current front : List Char) :
    (afterLines line current front).2.reverse <:+ current.reverse ++ front := by
  fun_induction afterLines line current front with
  | case1 => simp
  | case2 line current r ih => exact ih.trans ⟨current.reverse ++ ['\r', '\n'], by simp⟩
  | case3 line current c r hpair hend ih => exact ih.trans ⟨current.reverse ++ [c], by simp⟩
  | case4 line current c r hpair hend ih =>
    rwa [List.reverse_cons, List.append_assoc, List.singleton_append] at ih

/-! ### One line -/

/-- The characters up to the next line end. -/
def lineRest (cs : List Char) : List Char := cs.takeWhile (!isLineEnd ·)

theorem isLineEnd_carriageReturn : isLineEnd '\r' = true := by decide

theorem isLineEnd_lineFeed : isLineEnd '\n' = true := by decide

theorem withoutEnd_append (hcurrent : ∀ c ∈ current, isLineEnd c = false) {ends : List Char}
    (hends : ∀ c ∈ ends, isLineEnd c = true) : withoutEnd (current.reverse ++ ends) = current.reverse := by
  have hreverse : ∀ c ∈ ends.reverse, isLineEnd c = true := fun c hc => hends c (List.mem_reverse.1 hc)
  have hstops : current.dropWhile isLineEnd = current := by
    cases current with
    | nil => rfl
    | cons c current =>
      exact List.dropWhile_cons_of_neg (by rw [hcurrent c List.mem_cons_self]; decide)
  rw [withoutEnd, dropEndWhile, List.reverse_append, List.dropWhile_append_of_pos hreverse,
    List.reverse_reverse, hstops]

/-- The line that has begun, or begins, goes on up to the next line end. -/
theorem linesAfter_eq_cons (hcurrent : ∀ c ∈ current, isLineEnd c = false)
    (h : current ≠ [] ∨ cs ≠ []) :
    ∃ more, (linesAfter current cs).map withoutEnd = (current.reverse ++ lineRest cs) :: more := by
  fun_induction linesAfter current cs with
  | case1 current hempty => exact absurd (List.isEmpty_iff.1 hempty) (h.resolve_right nofun)
  | case2 current =>
    refine ⟨[], ?_⟩
    have hline : withoutEnd (current.reverse ++ []) = current.reverse := withoutEnd_append hcurrent nofun
    rw [List.append_nil] at hline
    rw [List.map_singleton, hline, lineRest, List.takeWhile_nil, List.append_nil]
  | case3 current r =>
    refine ⟨(linesAfter [] r).map withoutEnd, ?_⟩
    have hline : withoutEnd (current.reverse ++ ['\r', '\n']) = current.reverse :=
      withoutEnd_append hcurrent (by simp [isLineEnd_carriageReturn, isLineEnd_lineFeed])
    rw [List.map_cons, List.reverse_cons, List.reverse_cons, List.append_assoc, List.singleton_append,
      hline, lineRest, List.takeWhile_cons_of_neg (by decide), List.append_nil]
  | case4 current c r hpair hend =>
    refine ⟨(linesAfter [] r).map withoutEnd, ?_⟩
    have hline : withoutEnd (current.reverse ++ [c]) = current.reverse :=
      withoutEnd_append hcurrent (by simpa using hend)
    rw [List.map_cons, List.reverse_cons, hline, lineRest,
      List.takeWhile_cons_of_neg (by simp [hend]), List.append_nil]
  | case5 current c r hpair hend ih =>
    rw [Bool.not_eq_true] at hend
    obtain ⟨more, hmore⟩ := ih (List.forall_mem_cons.2 ⟨hend, hcurrent⟩) (.inl nofun)
    have hrest : lineRest (c :: r) = c :: lineRest r := List.takeWhile_cons_of_pos (by simp [hend])
    exact ⟨more, by rw [hmore, hrest, List.reverse_cons, List.append_assoc, List.singleton_append]⟩

end Lines

/-! ### Counting line feeds and bytes -/

/-- The point after some characters that start at a point. -/
def pointAfter (p : Point) (cs : List Char) : Point :=
  cs.foldl (fun p c => if c = '\n' then ⟨p.line + 1, 0⟩ else ⟨p.line, p.column + c.utf8Size⟩) p

/-- Every line end of a text is a line feed or has one behind it, and what follows the last line feed has
as many bytes as characters. -/
structure InStep (cs : List Char) : Prop where
  lines : ∀ c back, c :: back <:+ cs → isLineEnd c = true →
    c = '\n' ∨ c = '\r' ∧ back.head? = some '\n'
  bytes : ∀ back, back <:+ cs → '\n' ∉ back → ∀ c ∈ back, c.utf8Size = 1

section Points

variable {cs : List Char} {c : Char}

theorem foldl_advance_of_ne {bytes : List UInt8} (h : ∀ b ∈ bytes, b ≠ 10) (p : Point) :
    bytes.foldl Point.advance p = ⟨p.line, p.column + bytes.length⟩ := by
  induction bytes generalizing p with
  | nil => rfl
  | cons b bytes ih =>
    obtain ⟨hb, hbytes⟩ := List.forall_mem_cons.1 h
    rw [List.foldl_cons, ih hbytes, Point.advance, if_neg (by simpa using hb), List.length_cons]
    simp only [Point.mk.injEq, true_and]
    omega

theorem foldl_advance_utf8EncodeChar (c : Char) (p : Point) :
    (String.utf8EncodeChar c).foldl Point.advance p =
      if c = '\n' then ⟨p.line + 1, 0⟩ else ⟨p.line, p.column + c.utf8Size⟩ := by
  split
  · rename_i hc
    rw [hc]
    rfl
  · rename_i hc
    rw [foldl_advance_of_ne, String.length_utf8EncodeChar]
    rintro b hb rfl
    refine hc (Char.ext (UInt32.toNat_inj.1 ?_))
    exact toNat_of_mem_utf8EncodeChar hb (by decide)

theorem pointAt_bytesOf (front back : List Char) :
    pointAt (bytesOf (front ++ back)) (Syntax.byteSize front) = pointAfter ⟨0, 0⟩ front := by
  have hfold : ∀ (cs : List Char) (p : Point), (bytesOf cs).foldl Point.advance p = pointAfter p cs := by
    intro cs
    induction cs with
    | nil => exact fun _ => rfl
    | cons c cs ih =>
      intro p
      rw [bytesOf_cons, List.foldl_append, foldl_advance_utf8EncodeChar, ih]
      rfl
  rw [pointAt, take_bytesOf, hfold]

theorem inStep_nil : InStep [] := by
  refine ⟨fun c back h => ?_, fun back h => ?_⟩
  · cases List.suffix_nil.1 h
  · rw [List.suffix_nil.1 h]
    exact fun _ => nofun

theorem inStep_cons : InStep (c :: cs) ↔
    (isLineEnd c = true → c = '\n' ∨ c = '\r' ∧ cs.head? = some '\n') ∧
      ('\n' ∉ cs → c.utf8Size = 1) ∧ InStep cs := by
  constructor
  · rintro ⟨hlines, hbytes⟩
    refine ⟨hlines c cs List.suffix_rfl, fun hmem => ?_, fun d back h => ?_, fun back h => ?_⟩
    · by_cases hc : c = '\n'
      · rw [hc]
        decide
      · exact hbytes _ List.suffix_rfl (by simp [Ne.symm hc, hmem]) c List.mem_cons_self
    · exact hlines d back (h.trans (List.suffix_cons c cs))
    · exact hbytes back (h.trans (List.suffix_cons c cs))
  · rintro ⟨hc, hfirst, hrest⟩
    refine ⟨fun d back h => ?_, fun back h hmem => ?_⟩
    · rcases List.suffix_cons_iff.1 h with heq | h
      · obtain ⟨rfl, rfl⟩ := List.cons.inj heq
        exact hc
      · exact hrest.lines d back h
    · rcases List.suffix_cons_iff.1 h with rfl | h
      · rw [List.mem_cons, not_or] at hmem
        exact List.forall_mem_cons.2 ⟨hfirst hmem.2, hrest.bytes cs List.suffix_rfl hmem.2⟩
      · exact hrest.bytes back h hmem

/-- Both ways of counting from two places, of which the second is not before the first in lines and not
after it in columns. -/
theorem pointAfter_eq_iff {line line' column : Nat} {current : List Char} (hline : line ≤ line')
    (hcolumn : current.length ≤ column) :
    (pointAfter ⟨line, column⟩ cs =
      ⟨(afterLines line' current cs).1, (afterLines line' current cs).2.length⟩) ↔
    line = line' ∧ InStep cs ∧ ('\n' ∉ cs → column = current.length) := by
  fun_induction afterLines line' current cs generalizing line column with
  | case1 line' current =>
    simp [pointAfter, inStep_nil]
  | case2 line' current r ih =>
    have hrest := ih (Nat.add_le_add_right hline 1) (Nat.le_refl 0)
    have hsize : '\r'.utf8Size = 1 ∧ '\n'.utf8Size = 1 := by decide
    rw [inStep_cons, inStep_cons]
    simpa [pointAfter, hsize] using hrest
  | case3 line' current c r hpair hend ih =>
    have hother : ¬ (c = '\r' ∧ r.head? = some '\n') := by
      rintro ⟨hc, hr⟩
      obtain ⟨r, rfl⟩ := List.head?_eq_some_iff.1 hr
      exact hpair r hc rfl
    rw [inStep_cons]
    by_cases hc : c = '\n'
    · have hrest := ih (Nat.add_le_add_right hline 1) (Nat.le_refl 0)
      have hsize : '\n'.utf8Size = 1 := by decide
      simpa [pointAfter, hc, hsize] using hrest
    · -- Only one of the two counts starts a line here.
      have hrest := @ih line (column + c.utf8Size) (Nat.le_succ_of_le hline) (Nat.zero_le _)
      have hlater : line ≠ line' + 1 := by omega
      simpa [pointAfter, hc, hend, hother, hlater] using hrest
  | case4 line' current c r hpair hend ih =>
    have hc : c ≠ '\n' := by
      rintro rfl
      exact hend isLineEnd_lineFeed
    have hsize := c.utf8Size_pos
    have hrest := @ih line (column + c.utf8Size) hline (by rw [List.length_cons]; omega)
    have hcolumns : ('\n' ∉ r → column + c.utf8Size = current.length + 1) ↔
        ('\n' ∉ r → c.utf8Size = 1) ∧ ('\n' ∉ r → column = current.length) := by
      rw [← imp_and]
      refine imp_congr_right fun _ => ?_
      omega
    have hmem : '\n' ∉ c :: r ↔ '\n' ∉ r := by simp [Ne.symm hc]
    rw [List.length_cons, hcolumns] at hrest
    rw [inStep_cons, hmem]
    refine Iff.trans ?_ (hrest.trans ?_)
    · simp [pointAfter, hc]
    · rw [iff_true_intro fun h => absurd h hend, true_and, and_left_comm (a := InStep r), and_assoc]

end Points

end WebMigration.Text
