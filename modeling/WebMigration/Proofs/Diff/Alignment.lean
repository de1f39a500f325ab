import Mathlib.Data.List.Chain
import WebMigration.Diff.Alignment

/-!
# What an alignment holds

The parts of an alignment put together are the two texts.  Kept parts have lines, replaced parts have lines
of one of the texts at least, and no two replaced parts stand side by side.
-/

namespace WebMigration.Diff

variable {left right : List String} {m : Match} {parts : List Part} {frequent : String → Bool}

/-! ### Runs of equal lines -/

/-- A run of lines that both lists have, at the places and of the length that a match names. -/
inductive Match.Fits (left right : List String) : Match → Prop
  | mk (front run back front' back') (hleft : left = front ++ (run ++ back))
      (hright : right = front' ++ (run ++ back')) :
      Fits left right ⟨front.length, front'.length, run.length⟩

/-- Two lists end with the same lines, so many of them. -/
def EndAlike (size : Nat) (front front' : List String) : Prop :=
  ∃ run, run.length = size ∧ run <:+ front ∧ run <:+ front'

theorem endAlike_zero (front front' : List String) : EndAlike 0 front front' :=
  ⟨[], rfl, List.nil_suffix, List.nil_suffix⟩

theorem EndAlike.append {size : Nat} {front front' : List String} (h : EndAlike size front front')
    (line : String) : EndAlike (size + 1) (front ++ [line]) (front' ++ [line]) := by
  obtain ⟨run, hsize, ⟨rest, rfl⟩, ⟨rest', rfl⟩⟩ := h
  refine ⟨run ++ [line], by simp [hsize], ?_, ?_⟩
  · exact ⟨rest, by simp⟩
  · exact ⟨rest', by simp⟩

/-- The lengths in a row are lengths of runs that end at the line and at the lines of the other list. -/
theorem endAlike_runLengths {line : String} {diagonal : Nat} {above : List Nat} {front seen rest : List String}
    (hdiagonal : EndAlike diagonal front seen)
    (habove : ∀ t size, above[t]? = some size → EndAlike size front (seen ++ rest.take (t + 1))) :
    ∀ t size, (runLengths frequent line diagonal above rest)[t]? = some size →
      EndAlike size (front ++ [line]) (seen ++ rest.take (t + 1)) := by
  -- Each step moves along both rows: the entry that is left behind is the next one on the diagonal.
  induction rest generalizing diagonal above seen with
  | nil =>
    intro t size h
    simp [runLengths] at h
  | cons b rest ih =>
    intro t size h
    rw [runLengths] at h
    cases t with
    | zero =>
      obtain rfl := Option.some.inj h
      split
      · rename_i hequal
        rw [Bool.and_eq_true, beq_iff_eq] at hequal
        rw [← hequal.1]
        exact hdiagonal.append line
      · exact endAlike_zero _ _
    | succ t =>
      have hnext : EndAlike (above.head?.getD 0) front (seen ++ [b]) := by
        cases above with
        | nil => exact endAlike_zero _ _
        | cons size above => exact habove 0 size rfl
      have hrest := @ih (above.head?.getD 0) (above.drop 1) (seen ++ [b]) hnext
        (by
          intro t size ht
          have hlater := habove (t + 1) size (by simpa [Nat.add_comm] using ht)
          simpa using hlater)
        t size h
      simpa using hrest

theorem length_runLengths (line : String) (diagonal : Nat) (above : List Nat) (rest : List String) :
    (runLengths frequent line diagonal above rest).length = rest.length := by
  induction rest generalizing diagonal above with
  | nil => rfl
  | cons b rest ih => simp [runLengths, ih]

theorem Match.Fits.of_endAlike {i j size : Nat} (hi : i < left.length) (hj : j < right.length)
    (h : EndAlike size (left.take (i + 1)) (right.take (j + 1))) :
    Match.Fits left right ⟨i + 1 - size, j + 1 - size, size⟩ := by
  obtain ⟨run, rfl, ⟨front, hfront⟩, ⟨front', hfront'⟩⟩ := h
  have hlength := congrArg List.length hfront
  have hlength' := congrArg List.length hfront'
  simp at hlength hlength'
  have hfits := @Match.Fits.mk left right front run (left.drop (i + 1)) front'
    (right.drop (j + 1)) (by rw [← List.append_assoc, hfront, List.take_append_drop])
    (by rw [← List.append_assoc, hfront', List.take_append_drop])
  rwa [show front.length = i + 1 - run.length by omega,
    show front'.length = j + 1 - run.length by omega] at hfits

theorem fits_bestInRow {i j : Nat} {sizes : List Nat} {best : Match} (hi : i < left.length)
    (hsizes : ∀ t size, sizes[t]? = some size →
      j + t < right.length ∧ EndAlike size (left.take (i + 1)) (right.take (j + t + 1)))
    (hbest : best.Fits left right) : (bestInRow i j sizes best).Fits left right := by
  induction sizes generalizing j best with
  | nil => exact hbest
  | cons size sizes ih =>
    rw [bestInRow]
    refine ih ?_ ?_
    · intro t size' ht
      have hlater := hsizes (t + 1) size' (by simpa using ht)
      rwa [show j + (t + 1) = j + 1 + t by omega] at hlater
    · obtain ⟨hj, halike⟩ := hsizes 0 size rfl
      split
      · exact .of_endAlike hi hj halike
      · exact hbest

/-- The best run is found while the first list is read line by line. -/
theorem fits_bestRun {done rest : List String} {above : List Nat} {best : Match}
    (hleft : left = done ++ rest)
    (habove : ∀ t size, above[t]? = some size → EndAlike size done (right.take (t + 1)))
    (hbest : best.Fits left right) :
    (bestRun frequent right done.length above rest best).Fits left right := by
  -- The row above is that of the line read last, and it tells of runs that end there.
  induction rest generalizing done above best with
  | nil => exact hbest
  | cons a rest ih =>
    have hrow : ∀ t size, (runLengths frequent a 0 above right)[t]? = some size →
        EndAlike size (done ++ [a]) (right.take (t + 1)) := by
      have h := @endAlike_runLengths frequent a 0 above done [] right (endAlike_zero _ _) habove
      exact h
    have htake : left.take (done.length + 1) = done ++ [a] := by
      rw [hleft, List.take_append, List.take_of_length_le (by omega)]
      simp
    have hlater := @ih (done ++ [a]) (runLengths frequent a 0 above right)
      (bestInRow done.length 0 (runLengths frequent a 0 above right) best) (by simp [hleft]) hrow
      (by
        refine fits_bestInRow (by simp [hleft]) ?_ hbest
        intro t size ht
        have hlength := (List.getElem?_eq_some_iff.1 ht).1
        rw [length_runLengths] at hlength
        rw [htake, Nat.zero_add]
        exact ⟨hlength, hrow t size ht⟩)
    simpa [bestRun] using hlater

theorem commonStart_spec (as bs : List String) :
    ∃ start rest rest', as = start ++ rest ∧ bs = start ++ rest' ∧ start.length = commonStart as bs := by
  fun_induction commonStart as bs with
  | case1 a as b bs hequal ih =>
    obtain ⟨start, rest, rest', rfl, rfl, hlength⟩ := ih
    rw [beq_iff_eq] at hequal
    exact ⟨a :: start, rest, rest', rfl, by rw [hequal]; rfl, by simp [hlength]⟩
  | case2 a as b bs hequal => exact ⟨[], _, _, rfl, rfl, rfl⟩
  | case3 as bs hcons => exact ⟨[], _, _, rfl, rfl, rfl⟩

/-- Equal lines around a run make it longer. -/
theorem Match.extended_eq {front run back front' back' : List String} {before after : Nat}
    (hbefore : commonStart front.reverse front'.reverse = before) (hafter : commonStart back back' = after)
    (hfront : before ≤ front.length) (hfront' : before ≤ front'.length) :
    Match.extended ⟨front.length, front'.length, run.length⟩ (front ++ (run ++ back)) (front' ++ (run ++ back')) =
      ⟨front.length - before, front'.length - before, before + (run.length + after)⟩ := by
  have hstart : ∀ {size}, before ≤ size → size - before + (run.length + before) = size + run.length := by omega
  have hdrop : ∀ front back : List String, (front ++ (run ++ back)).drop (front.length + run.length) = back := by
    intro front back
    rw [← List.append_assoc, ← List.length_append, List.drop_left]
  simp only [Match.extended, List.take_left, hbefore, hstart hfront, hstart hfront', hdrop, hafter]
  congr 1
  omega

theorem Match.Fits.extended (h : m.Fits left right) : (m.extended left right).Fits left right := by
  obtain ⟨front, run, back, front', back', rfl, rfl⟩ := h
  obtain ⟨start, rest, rest', hfront, hfront', hbefore⟩ := commonStart_spec front.reverse front'.reverse
  obtain ⟨next, more, more', rfl, rfl, hafter⟩ := commonStart_spec back back'
  rw [List.reverse_eq_iff, List.reverse_append] at hfront hfront'
  subst hfront hfront'
  have hlonger := @Match.extended_eq (rest.reverse ++ start.reverse) run (next ++ more)
    (rest'.reverse ++ start.reverse) (next ++ more') _ _ hbefore.symm hafter.symm (by simp) (by simp)
  have hfits := Match.Fits.mk rest.reverse (start.reverse ++ (run ++ next)) more rest'.reverse more' rfl rfl
  rw [hlonger]
  simpa using hfits

theorem fits_longestMatch (frequent : String → Bool) (left right : List String) :
    (longestMatch frequent left right).Fits left right := by
  have hnone : Match.Fits left right ⟨0, 0, 0⟩ := .mk [] [] left [] right rfl rfl
  exact Match.Fits.extended (@fits_bestRun left right frequent [] left [] _ rfl nofun hnone)

/-! ### Alignments -/

/-- Both texts have the lines of the part. -/
def Part.IsKept : Part → Prop
  | .keep _ => True
  | .replace _ _ => False

/-- The parts are those of two lists of lines, and no two of them could be one. -/
structure IsAlignment (left right : List String) (parts : List Part) : Prop where
  old : parts.flatMap Part.old = left
  new : parts.flatMap Part.new = right
  shows : ∀ p ∈ parts, p.old ≠ [] ∨ p.new ≠ []
  apart : parts.IsChain fun p q => p.IsKept ∨ q.IsKept

/-- Kept lines between two alignments. -/
theorem IsAlignment.around {left' right' run : List String} {parts' : List Part} (hrun : run ≠ [])
    (h : IsAlignment left right parts) (h' : IsAlignment left' right' parts') :
    IsAlignment (left ++ (run ++ left')) (right ++ (run ++ right')) (parts ++ .keep run :: parts') where
  old := by simp [h.old, h'.old, Part.old]
  new := by simp [h.new, h'.new, Part.new]
  shows := by
    intro p hp
    rcases List.mem_append.1 hp with hp | hp
    · exact h.shows p hp
    · rcases List.mem_cons.1 hp with rfl | hp
      · exact .inl hrun
      · exact h'.shows p hp
  apart := by
    refine List.isChain_append.2 ⟨h.apart, List.isChain_cons.2 ⟨?_, h'.apart⟩, ?_⟩
    · exact fun _ _ => .inl trivial
    · intro p _ q hq
      obtain rfl := Option.some.inj hq
      exact .inr trivial

/-- The parts above and below the longest run are aligned in turn. -/
theorem isAlignment_alignUpTo {fuel : Nat} (hfuel : left.length < fuel) :
    IsAlignment left right (alignUpTo frequent fuel left right) := by
  induction fuel generalizing left right with
  | zero => cases hfuel
  | succ fuel ih =>
    have hfits := fits_longestMatch frequent left right
    rw [alignUpTo]
    generalize longestMatch frequent left right = m at hfits
    obtain ⟨front, run, back, front', back', rfl, rfl⟩ := hfits
    -- Without a common line all of both texts is one part, which is not kept.
    by_cases hrun : run.length = 0
    · simp only [hrun, BEq.rfl, if_true]
      split
      · rename_i hempty
        rw [Bool.and_eq_true, List.isEmpty_iff, List.isEmpty_iff] at hempty
        exact ⟨hempty.1.symm, hempty.2.symm, nofun, .nil⟩
      · rename_i hfull
        refine ⟨List.flatMap_singleton _ _, List.flatMap_singleton _ _, ?_, .singleton _⟩
        intro p hp
        obtain rfl := List.mem_singleton.1 hp
        rw [Bool.and_eq_true, List.isEmpty_iff, List.isEmpty_iff] at hfull
        exact Decidable.not_and_iff_or_not.1 hfull
    · have hdrop : ∀ front back : List String,
          (front ++ (run ++ back)).drop (front.length + run.length) = back := by
        intro front back
        rw [← List.append_assoc, ← List.length_append, List.drop_left]
      simp only [List.length_append] at hfuel
      have habove := @ih front front' (by omega)
      have hbelow := @ih back back' (by omega)
      simp only [beq_eq_false_iff_ne.2 hrun, Bool.false_eq_true, if_false, List.take_left, List.drop_left,
        hdrop]
      exact .around (by simpa using hrun) habove hbelow

/-- A part stays as it is, or is kept and takes in the kept part behind it. -/
theorem joined_cons (p : Part) (rest : List Part) :
    joined (p :: rest) = p :: joined rest ∨ ∃ lines lines' more,
      p = .keep lines ∧ joined rest = .keep lines' :: more ∧ joined (p :: rest) = .keep (lines ++ lines') :: more := by
  cases p with
  | replace removed added => exact .inl rfl
  | keep lines =>
    rw [joined]
    split
    · rename_i lines' more hrest
      exact .inr ⟨lines, lines', more, rfl, hrest, rfl⟩
    · exact .inl rfl

theorem isKept_of_head_joined (h : ∀ p ∈ parts.head?, p.IsKept) : ∀ p ∈ (joined parts).head?, p.IsKept := by
  cases parts with
  | nil => exact h
  | cons p rest =>
    rcases joined_cons p rest with hp | ⟨lines, lines', more, rfl, hrest, hp⟩
    · rw [hp]
      exact h
    · rw [hp]
      rintro q hq
      obtain rfl := Option.some.inj hq
      trivial

theorem IsAlignment.cons {p : Part} (hp : p.old ≠ [] ∨ p.new ≠ [])
    (hapart : ∀ q ∈ parts.head?, p.IsKept ∨ q.IsKept) (h : IsAlignment left right parts) :
    IsAlignment (p.old ++ left) (p.new ++ right) (p :: parts) where
  old := by rw [List.flatMap_cons, h.old]
  new := by rw [List.flatMap_cons, h.new]
  shows := List.forall_mem_cons.2 ⟨hp, h.shows⟩
  apart := List.isChain_cons.2 ⟨hapart, h.apart⟩

theorem IsAlignment.of_cons {p : Part} (h : IsAlignment left right (p :: parts)) :
    ∃ left' right', left = p.old ++ left' ∧ right = p.new ++ right' ∧ (p.old ≠ [] ∨ p.new ≠ []) ∧
      (∀ q ∈ parts.head?, p.IsKept ∨ q.IsKept) ∧ IsAlignment left' right' parts := by
  obtain ⟨hp, hshows⟩ := List.forall_mem_cons.1 h.shows
  obtain ⟨hhead, hapart⟩ := List.isChain_cons.1 h.apart
  exact ⟨_, _, h.old.symm, h.new.symm, hp, hhead, rfl, rfl, hshows, hapart⟩

/-- Kept parts side by side are put together. -/
theorem IsAlignment.joined (h : IsAlignment left right parts) : IsAlignment left right (joined parts) := by
  induction parts generalizing left right with
  | nil => exact h
  | cons p rest ih =>
    obtain ⟨left', right', rfl, rfl, hp, hhead, hrest⟩ := h.of_cons
    have hjoined := ih hrest
    rcases joined_cons p rest with heq | ⟨lines, lines', more, rfl, heq, hmore⟩
    · rw [heq]
      refine hjoined.cons hp ?_
      cases p with
      | keep lines => exact fun _ _ => .inl trivial
      | replace removed added =>
        have hkept := isKept_of_head_joined fun q hq => (hhead q hq).resolve_left id
        exact fun q hq => .inr (hkept q hq)
    · rw [heq] at hjoined
      obtain ⟨left, right, rfl, rfl, hlines, -, htail⟩ := hjoined.of_cons
      have hlong : lines ++ lines' ≠ [] := by
        intro hempty
        exact hlines.elim (absurd (List.append_eq_nil_iff.1 hempty).2) (absurd (List.append_eq_nil_iff.1 hempty).2)
      have hwhole := @IsAlignment.cons _ _ _ (.keep (lines ++ lines')) (.inl hlong) (fun _ _ => .inl trivial) htail
      rw [hmore]
      simpa [Part.old, Part.new] using hwhole

theorem isAlignment_align (left right : List String) : IsAlignment left right (align left right) :=
  IsAlignment.joined (isAlignment_alignUpTo (Nat.lt_succ_self _))

end WebMigration.Diff
