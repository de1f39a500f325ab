import Mathlib.Data.List.Perm.Basic
import Mathlib.Data.List.Nodup
import WebMigration.Proofs.Rewrite.Edit

/-!
# Edits at once

Edits are applied one after the other, from the last range to the first, to a text that changes on the
way.  What they come to is told without the changing text: some of the edits, no two of which overlap,
replace their ranges of the original at once, and the others are dropped, each because of an edit that
stays.  The order of the list only matters for edits of one range.
-/

namespace WebMigration.Edit

open Syntax Text

/-- The bytes of a source from an offset on, with the ranges of some edits replaced; the edits come in
the order of their ranges. -/
def replaced (source : List UInt8) (offset : Nat) : List Edit → List UInt8
  | [] => source.drop offset
  | e :: rest =>
      slice source offset e.start.toNat ++ encode e.replacement ++ replaced source e.stop.toNat rest

/-- The edits that are applied, of some that are in order. -/
def kept : List Edit → Int → List Edit
  | [], _ => []
  | e :: rest, boundary => if boundary < e.stop then kept rest boundary else e :: kept rest e.start

/-- The edits that are dropped, of some that are in order. -/
def dropped : List Edit → Int → List Edit
  | [], _ => []
  | e :: rest, boundary => if boundary < e.stop then e :: dropped rest boundary else dropped rest e.start

/-- The range of an edit lies inside a text of some length. -/
structure InRange (length : Nat) (e : Edit) : Prop where
  start_nonneg : 0 ≤ e.start
  start_le_stop : e.start ≤ e.stop
  stop_le : e.stop ≤ length

/-- One of two edits ends before the other starts. -/
def Apart (a b : Edit) : Prop := a.stop ≤ b.start ∨ b.stop ≤ a.start

/-- An edit inserts at an offset. -/
def insertsAt (offset : Int) (e : Edit) : Bool := e.start == offset && e.stop == offset

theorem Apart.symm {a b : Edit} (h : Apart a b) : Apart b a := Or.symm h

@[simp] theorem insertsAt_iff {offset : Int} {e : Edit} :
    insertsAt offset e = true ↔ e.start = offset ∧ e.stop = offset := by
  simp [insertsAt]

/-! ### Replacing at once -/

variable {source : List UInt8}

theorem slice_append_slice {i j k : Nat} (hij : i ≤ j) (hjk : j ≤ k) :
    slice source i j ++ slice source j k = slice source i k := by
  unfold slice
  rw [List.drop_take, List.drop_take, List.drop_take, show k - i = (j - i) + (k - j) by omega,
    List.take_add, List.drop_drop, show i + (j - i) = j by omega]

theorem slice_append_drop {i j : Nat} (hij : i ≤ j) :
    slice source i j ++ source.drop j = source.drop i := by
  unfold slice
  rw [List.drop_take, show j = i + (j - i) by omega, ← List.drop_drop, Nat.add_sub_cancel_left,
    List.take_append_drop]

/-- What stands before the first edit is there as it was. -/
theorem slice_append_replaced {edits : List Edit} {i j : Nat} (hij : i ≤ j)
    (hfirst : ∀ e ∈ edits.head?, (j : Int) ≤ e.start) :
    slice source i j ++ replaced source j edits = replaced source i edits := by
  cases edits with
  | nil => exact slice_append_drop hij
  | cons e rest =>
    have hj : j ≤ e.start.toNat := by
      have := hfirst e rfl
      omega
    rw [replaced, replaced, ← List.append_assoc, ← List.append_assoc, slice_append_slice hij hj]

/-- One more edit before the others is one more range that is replaced. -/
theorem splice_replaced {e : Edit} {edits : List Edit} {boundary : Nat}
    (he : e.InRange source.length) (hstop : e.stop ≤ boundary) (hboundary : boundary ≤ source.length)
    (hfirst : ∀ e' ∈ edits.head?, (boundary : Int) ≤ e'.start) :
    e.splice (source.take boundary ++ replaced source boundary edits) =
      source.take e.start.toNat ++ replaced source e.start.toNat (e :: edits) := by
  obtain ⟨hnonneg, hle, -⟩ := he
  obtain ⟨start, hstart⟩ := Int.eq_ofNat_of_zero_le hnonneg
  obtain ⟨stop, hstop'⟩ := Int.eq_ofNat_of_zero_le (Int.le_trans hnonneg hle)
  have hlength : boundary ≤ (source.take boundary ++ replaced source boundary edits).length := by
    rw [List.length_append, List.length_take]
    omega
  have hhead : (source.take boundary).length = boundary := by
    rw [List.length_take]
    omega
  have htake : (source.take boundary ++ replaced source boundary edits).take start =
      source.take start := by
    rw [List.take_append_of_le_length (by omega), List.take_take, Nat.min_eq_left (by omega)]
  have hdrop : (source.take boundary ++ replaced source boundary edits).drop stop =
      replaced source stop edits := by
    rw [List.drop_append_of_le_length (by omega)]
    exact slice_append_replaced (by omega) hfirst
  have hempty : slice source start start = [] := by
    unfold slice
    rw [List.drop_take, Nat.sub_self, List.take_zero]
  rw [splice, hstart, hstop', resolve_of_le (by omega), resolve_of_le (by omega), htake, hdrop,
    replaced, hstart, hstop', Int.toNat_natCast, Int.toNat_natCast, hempty, List.nil_append,
    List.append_assoc]

/-- The changing text, told by the original: up to the boundary it is as it was, and after it the edits
that were applied have replaced their ranges. -/
theorem applyOrdered_replaced {edits applied : List Edit} (boundary : Int) {offset : Nat}
    (hedits : ∀ e ∈ edits, e.InRange source.length) (hoffset : offset ≤ source.length)
    (hboundary : ∀ e ∈ edits, e.stop ≤ boundary → e.stop ≤ offset)
    (hfirst : ∀ e ∈ applied.head?, (offset : Int) ≤ e.start) :
    applyOrdered edits boundary (source.take offset ++ replaced source offset applied) =
      replaced source 0 ((kept edits boundary).reverse ++ applied) := by
  induction edits generalizing boundary offset applied with
  | nil => exact slice_append_replaced (Nat.zero_le offset) hfirst
  | cons e rest ih =>
    obtain ⟨he, hrest⟩ := List.forall_mem_cons.1 hedits
    obtain ⟨heboundary, hboundary⟩ := List.forall_mem_cons.1 hboundary
    rw [applyOrdered, kept]
    by_cases h : boundary < e.stop
    · rw [if_pos h, if_pos h]
      exact ih boundary hrest hoffset hboundary hfirst
    · have hstop : e.stop ≤ offset := heboundary (by omega)
      have := he.start_nonneg
      have := he.start_le_stop
      rw [if_neg h, if_neg h, splice_replaced he hstop hoffset hfirst, List.reverse_cons,
        List.append_assoc, List.singleton_append]
      refine ih e.start hrest (by omega) (fun e' _ hle => by omega) ?_
      rintro e' ⟨⟩
      omega

/-! ### Which edits are kept -/

/-- Each edit is kept or dropped. -/
theorem perm_kept_dropped (edits : List Edit) (boundary : Int) :
    edits.Perm (kept edits boundary ++ dropped edits boundary) := by
  induction edits generalizing boundary with
  | nil => exact .nil
  | cons e rest ih =>
    rw [kept, dropped]
    split
    · exact ((ih boundary).cons e).trans List.perm_middle.symm
    · exact (ih e.start).cons e

theorem kept_sublist (edits : List Edit) (boundary : Int) : (kept edits boundary).Sublist edits := by
  induction edits generalizing boundary with
  | nil => exact .slnil
  | cons e rest ih =>
    rw [kept]
    split
    · exact (ih boundary).cons e
    · exact (ih e.start).cons_cons e

/-- What is kept ends before the boundary. -/
theorem stop_le_of_mem_kept {edits : List Edit} {boundary : Int}
    (hedits : ∀ e ∈ edits, e.start ≤ e.stop) :
    ∀ e ∈ kept edits boundary, e.stop ≤ boundary := by
  induction edits generalizing boundary with
  | nil => exact fun e he => absurd he List.not_mem_nil
  | cons e rest ih =>
    obtain ⟨he, hrest⟩ := List.forall_mem_cons.1 hedits
    rw [kept]
    split
    · exact ih hrest
    · refine List.forall_mem_cons.2 ⟨by omega, fun e' he' => ?_⟩
      have := ih hrest e' he'
      omega

/-- No two kept edits overlap. -/
theorem kept_pairwise {edits : List Edit} (boundary : Int)
    (hedits : ∀ e ∈ edits, e.start ≤ e.stop) :
    (kept edits boundary).Pairwise fun a b => b.stop ≤ a.start := by
  induction edits generalizing boundary with
  | nil => exact .nil
  | cons e rest ih =>
    obtain ⟨-, hrest⟩ := List.forall_mem_cons.1 hedits
    rw [kept]
    split
    · exact ih boundary hrest
    · exact List.pairwise_cons.2 ⟨stop_le_of_mem_kept hrest, ih e.start hrest⟩

/-- A dropped edit ends after the boundary or after the start of an edit that was applied before it. -/
theorem overlaps_of_mem_dropped {edits : List Edit} {boundary : Int}
    (hsorted : edits.Pairwise fun a b => laterOrEqual a b = true) :
    ∀ d ∈ dropped edits boundary, boundary < d.stop ∨
      ∃ k ∈ kept edits boundary, k.start < d.stop ∧ laterOrEqual k d = true := by
  induction edits generalizing boundary with
  | nil => exact fun d hd => absurd hd List.not_mem_nil
  | cons e rest ih =>
    obtain ⟨hlater, hsorted⟩ := List.pairwise_cons.1 hsorted
    rw [kept, dropped]
    split
    · rename_i h
      exact List.forall_mem_cons.2 ⟨.inl h, ih hsorted⟩
    · intro d hd
      right
      rcases ih hsorted d hd with h | ⟨k, hk, hoverlap⟩
      · have hmem : d ∈ rest := (perm_kept_dropped rest e.start).mem_iff.2 (List.mem_append_right _ hd)
        exact ⟨e, List.mem_cons_self, h, hlater d hmem⟩
      · exact ⟨k, List.mem_cons_of_mem e hk, hoverlap⟩

/-! ### Edits of one range -/

theorem laterOrEqual_iff {a b : Edit} :
    laterOrEqual a b = true ↔ b.start < a.start ∨ (a.start = b.start ∧ b.stop ≤ a.stop) := by
  simp [laterOrEqual]

/-- Sorting keeps the order of insertions at one offset. -/
theorem ordered_filter_insertsAt (edits : List Edit) (offset : Int) :
    (ordered edits).filter (insertsAt offset) = edits.filter (insertsAt offset) := by
  have hequal : (edits.filter (insertsAt offset)).Pairwise fun a b => laterOrEqual a b = true := by
    refine List.pairwise_of_forall_mem_list fun a ha b hb => ?_
    have ha := insertsAt_iff.1 (List.mem_filter.1 ha).2
    have hb := insertsAt_iff.1 (List.mem_filter.1 hb).2
    rw [laterOrEqual_iff]
    omega
  have hsub : (edits.filter (insertsAt offset)).Sublist (ordered edits) :=
    List.sublist_mergeSort laterOrEqual_trans laterOrEqual_total hequal List.filter_sublist
  have hfilter := hsub.filter (insertsAt offset)
  simp only [List.filter_filter, Bool.and_self] at hfilter
  exact (hfilter.eq_of_length ((List.mergeSort_perm edits _).filter _).length_eq.symm).symm

/-- After an insertion that is kept all other insertions at the offset are kept. -/
theorem kept_filter_of_insertion {edits : List Edit} {offset : Int}
    (hedits : ∀ e ∈ edits, e.start ≤ e.stop)
    (hsorted : edits.Pairwise fun a b => laterOrEqual a b = true)
    (hlater : ∀ e ∈ edits, e.start < offset ∨ (e.start = offset ∧ e.stop ≤ offset)) :
    (kept edits offset).filter (insertsAt offset) = edits.filter (insertsAt offset) := by
  induction edits with
  | nil => rfl
  | cons e rest ih =>
    obtain ⟨he, hedits⟩ := List.forall_mem_cons.1 hedits
    obtain ⟨hesorted, hsorted⟩ := List.pairwise_cons.1 hsorted
    obtain ⟨helater, hlater⟩ := List.forall_mem_cons.1 hlater
    by_cases hinsert : insertsAt offset e = true
    · obtain ⟨hstart, hstop⟩ := insertsAt_iff.1 hinsert
      rw [kept, if_neg (by omega), List.filter_cons_of_pos hinsert, List.filter_cons_of_pos hinsert,
        hstart, ih hedits hsorted hlater]
    · -- The range of `e` starts before the offset, and so do all that come after it.
      have hbefore : e.start < offset := by
        rw [insertsAt_iff] at hinsert
        omega
      have hnone : (e :: rest).filter (insertsAt offset) = [] := by
        refine List.filter_eq_nil_iff.2 fun e' he' h => ?_
        have hstart := (insertsAt_iff.1 h).1
        rcases List.mem_cons.1 he' with rfl | he'
        · omega
        · have := start_le_of_laterOrEqual (hesorted e' he')
          omega
      rw [hnone]
      exact List.sublist_nil.1 (hnone ▸ (kept_sublist _ _).filter _)

/-- All insertions at one offset are kept, or none. -/
theorem kept_filter_insertsAt {edits : List Edit} {boundary : Int} (offset : Int)
    (hedits : ∀ e ∈ edits, e.start ≤ e.stop)
    (hsorted : edits.Pairwise fun a b => laterOrEqual a b = true) :
    (kept edits boundary).filter (insertsAt offset) = edits.filter (insertsAt offset) ∨
      (kept edits boundary).filter (insertsAt offset) = [] := by
  induction edits generalizing boundary with
  | nil => exact .inl rfl
  | cons e rest ih =>
    obtain ⟨-, hrest⟩ := List.forall_mem_cons.1 hedits
    obtain ⟨hlater, hsorted⟩ := List.pairwise_cons.1 hsorted
    -- The first insertion at the offset decides: if it is dropped, the boundary is before the offset.
    by_cases hinsert : insertsAt offset e = true
    · obtain ⟨hstart, hstop⟩ := insertsAt_iff.1 hinsert
      by_cases h : boundary < e.stop
      · right
        refine List.filter_eq_nil_iff.2 fun k hk hk' => ?_
        have := stop_le_of_mem_kept hedits k hk
        have := (insertsAt_iff.1 hk').2
        omega
      · left
        rw [kept, if_neg h, List.filter_cons_of_pos hinsert, List.filter_cons_of_pos hinsert, hstart]
        congr 1
        refine kept_filter_of_insertion hrest hsorted fun e' he' => ?_
        have := laterOrEqual_iff.1 (hlater e' he')
        omega
    · rw [List.filter_cons_of_neg hinsert, kept]
      split
      · exact ih hrest hsorted
      · rw [List.filter_cons_of_neg hinsert]
        exact ih hrest hsorted

/-- Edits of different ranges have one order. -/
theorem ordered_congr {edits edits' : List Edit} (h : edits'.Perm edits)
    (hranges : (edits.map fun e => (e.start, e.stop)).Nodup) : ordered edits' = ordered edits := by
  have hperm : (ordered edits').Perm (ordered edits) :=
    (List.mergeSort_perm edits' _).trans (h.trans (List.mergeSort_perm edits _).symm)
  refine hperm.eq_of_pairwise (fun a b ha hb hab hba => ?_)
    (List.pairwise_mergeSort laterOrEqual_trans laterOrEqual_total edits')
    (List.pairwise_mergeSort laterOrEqual_trans laterOrEqual_total edits)
  have ha : a ∈ edits := h.mem_iff.1 (List.mem_mergeSort.1 ha)
  have hb : b ∈ edits := List.mem_mergeSort.1 hb
  rw [laterOrEqual_iff] at hab hba
  exact List.inj_on_of_nodup_map hranges ha hb (Prod.ext (by dsimp only; omega) (by dsimp only; omega))

/-! ### All edits -/

/-- A result is what some edits come to at once: those that are kept, in the order of their ranges,
replace them, and those that are dropped overlap with one that is kept. -/
structure Replaces (source : List UInt8) (edits kept dropped : List Edit) (result : List UInt8) :
    Prop where
  parts : edits.Perm (kept ++ dropped)
  apart : kept.Pairwise fun a b => a.stop ≤ b.start
  result_eq : result = replaced source 0 kept
  insertions : ∀ offset, kept.filter (insertsAt offset) = (edits.filter (insertsAt offset)).reverse ∨
    kept.filter (insertsAt offset) = []
  overlaps : ∀ d ∈ dropped, ∃ k ∈ kept, k.start < d.stop ∧ laterOrEqual k d = true

/-- Applying edits one after the other is applying some of them at once. -/
theorem replaces_applyBytes {edits : List Edit} (hedits : ∀ e ∈ edits, e.InRange source.length) :
    Replaces source edits (kept (ordered edits) (source.length + 1)).reverse
      (dropped (ordered edits) (source.length + 1)) (applyBytes source edits) := by
  have hordered : ∀ e ∈ ordered edits, e.InRange source.length :=
    fun e he => hedits e (List.mem_mergeSort.1 he)
  have hranges : ∀ e ∈ ordered edits, e.start ≤ e.stop := fun e he => (hordered e he).start_le_stop
  have hsorted : (ordered edits).Pairwise fun a b => laterOrEqual a b = true :=
    List.pairwise_mergeSort laterOrEqual_trans laterOrEqual_total edits
  refine ⟨?_, ?_, ?_, fun offset => ?_, fun d hd => ?_⟩
  · exact (List.mergeSort_perm edits _).symm.trans ((perm_kept_dropped _ _).trans
      ((List.reverse_perm _).symm.append_right _))
  · exact List.pairwise_reverse.2 (kept_pairwise _ hranges)
  · have htext := applyOrdered_replaced (source.length + 1) hordered (Nat.le_refl _)
      (fun e he _ => (hordered e he).stop_le)
      (show ∀ e ∈ ([] : List Edit).head?, (source.length : Int) ≤ e.start by rintro e ⟨⟩)
    rwa [replaced, List.take_length, List.drop_length, List.append_nil, List.append_nil] at htext
  · rw [List.filter_reverse, List.reverse_inj, List.reverse_eq_nil_iff,
      ← ordered_filter_insertsAt edits]
    exact kept_filter_insertsAt offset hranges hsorted
  · rcases overlaps_of_mem_dropped hsorted d hd with h | ⟨k, hk, hoverlap⟩
    · have hmem : d ∈ ordered edits := (perm_kept_dropped _ _).mem_iff.2 (List.mem_append_right _ hd)
      have := (hordered d hmem).stop_le
      omega
    · exact ⟨k, List.mem_reverse.2 hk, hoverlap⟩

/-- Of edits that do not overlap none is dropped. -/
theorem Replaces.dropped_eq_nil {edits kept dropped : List Edit} {result : List UInt8}
    (h : Replaces source edits kept dropped result) (hedits : ∀ e ∈ edits, e.InRange source.length)
    (hapart : edits.Pairwise Apart) : dropped = [] := by
  refine List.eq_nil_iff_forall_not_mem.2 fun d hd => ?_
  obtain ⟨k, hk, hoverlap, hlater⟩ := h.overlaps d hd
  have hparts := (h.parts.pairwise_iff Apart.symm).1 hapart
  have hkd : Apart k d := (List.pairwise_append.1 hparts).2.2 k hk d hd
  have hkrange := (hedits k (h.parts.mem_iff.2 (List.mem_append_left _ hk))).start_le_stop
  rw [laterOrEqual_iff] at hlater
  unfold Apart at hkd
  omega

/-- The text after some edits has the bytes that they come to. -/
theorem encode_of_apply {edits : List Edit} {text : String} (h : apply source edits = .ok text) :
    encode text = applyBytes source edits := by
  unfold apply at h
  split at h
  · rename_i found hfound
    rw [← Except.ok.inj h, encode_of_decode? hfound]
  · cases h

/-- A text is the result of some edits if and only if it has the bytes that they come to. -/
theorem apply_eq_ok_iff {edits : List Edit} {text : String} :
    apply source edits = .ok text ↔ encode text = applyBytes source edits := by
  refine ⟨encode_of_apply, fun h => ?_⟩
  unfold apply
  rw [← h, encode_eq, decode?_bytesOf, String.ofList_toList]

/-- Edits that do not overlap replace all their ranges at once, in the order of the ranges. -/
theorem apply_eq_ok_iff_replaced {edits : List Edit}
    (hedits : ∀ e ∈ edits, e.InRange source.length) (hapart : edits.Pairwise Apart) :
    ∃ sorted, sorted.Perm edits ∧ (sorted.Pairwise fun a b => a.stop ≤ b.start) ∧
      ∀ text, apply source edits = .ok text ↔ encode text = replaced source 0 sorted := by
  have h := replaces_applyBytes hedits
  have hparts := h.parts
  rw [h.dropped_eq_nil hedits hapart, List.append_nil] at hparts
  refine ⟨_, hparts.symm, h.apart, fun text => ?_⟩
  rw [apply_eq_ok_iff, h.result_eq]

/-- An edit at cuts lies inside the text. -/
theorem Fits.inRange {file : List Char} {e : Edit} (h : e.Fits file) (hle : e.start ≤ e.stop) :
    e.InRange (bytesOf file).length := by
  obtain ⟨start, stop, hstart, hstop, -, hcut⟩ := h
  have := hcut.le
  rw [length_bytesOf]
  exact ⟨by omega, hle, by omega⟩

/-- **Edits at cuts of a text, applied one after the other, replace the ranges of some of them at once**:
this gives a text again; no two of the edits that are kept overlap, insertions at one offset come out
from the last to the first, and each other edit overlaps with a kept one that is not before it, so that
of edits that do not overlap none is dropped.  Edits of different ranges may come in any order. -/
theorem apply_at_once {s : String} {edits : List Edit}
    (h : ∀ e ∈ edits, e.Fits s.toList ∧ e.start ≤ e.stop) :
    (∃ text kept dropped, apply (encode s) edits = .ok text ∧
      Replaces (encode s) edits kept dropped (encode text) ∧
      (edits.Pairwise Apart → dropped = [])) ∧
    ((edits.map fun e => (e.start, e.stop)).Nodup →
      ∀ edits', edits'.Perm edits → apply (encode s) edits' = apply (encode s) edits) := by
  have hedits : ∀ e ∈ edits, e.InRange (encode s).length := by
    intro e he
    rw [encode_eq]
    exact (h e he).1.inRange (h e he).2
  constructor
  · obtain ⟨text, htext⟩ := apply_ok fun e he => (h e he).1
    have hreplaces := replaces_applyBytes hedits
    have hencode : encode text = applyBytes (encode s) edits := encode_of_apply htext
    rw [← hencode] at hreplaces
    exact ⟨text, _, _, htext, hreplaces, hreplaces.dropped_eq_nil hedits⟩
  · intro hranges edits' hperm
    unfold apply applyBytes
    rw [ordered_congr hperm hranges]

/-- Edits of an assignment: the accented name is replaced, two texts are inserted before the value, which
is replaced too, and the blank and the value are replaced together. -/
def assignmentEdits : List Edit :=
  [replacing 5 5 "1", replacing 0 2 "x", replacing 4 6 "?", replacing 5 5 "2", replacing 5 6 "b"]

theorem assignmentEdits_fit :
    ∀ e ∈ assignmentEdits, e.Fits "é = a;".toList ∧ e.start ≤ e.stop := by
  have cut (before after : List Char) (h : before ++ after = "é = a;".toList) :
      IsCut "é = a;".toList (byteSize before) := ⟨before, after, h, rfl⟩
  have h0 : IsCut "é = a;".toList 0 := cut "".toList "é = a;".toList rfl
  have h2 : IsCut "é = a;".toList 2 := cut "é".toList " = a;".toList rfl
  have h4 : IsCut "é = a;".toList 4 := cut "é =".toList " a;".toList rfl
  have h5 : IsCut "é = a;".toList 5 := cut "é = ".toList "a;".toList rfl
  have h6 : IsCut "é = a;".toList 6 := cut "é = a".toList ";".toList rfl
  simp only [assignmentEdits, List.forall_mem_cons]
  exact ⟨⟨replacing_fits h5 h5, by decide⟩, ⟨replacing_fits h0 h2, by decide⟩,
    ⟨replacing_fits h4 h6, by decide⟩, ⟨replacing_fits h5 h5, by decide⟩,
    ⟨replacing_fits h5 h6, by decide⟩, by simp⟩

theorem ordered_assignmentEdits : ordered assignmentEdits =
    [replacing 5 6 "b", replacing 5 5 "1", replacing 5 5 "2", replacing 4 6 "?",
      replacing 0 2 "x"] := by
  simp [ordered, assignmentEdits, List.mergeSort, List.MergeSort.Internal.splitInTwo, laterOrEqual,
    replacing]

/-- The edit that overlaps is dropped, and the second insertion comes out first. -/
theorem apply_at_once_assignment :
    (∀ e ∈ assignmentEdits, e.Fits "é = a;".toList ∧ e.start ≤ e.stop) ∧
    (apply (encode "é = a;") assignmentEdits).toOption = some "x = 21b;" ∧
    ∃ text kept dropped, apply (encode "é = a;") assignmentEdits = .ok text ∧
      Replaces (encode "é = a;") assignmentEdits kept dropped (encode text) ∧
      (assignmentEdits.Pairwise Apart → dropped = []) := by
  refine ⟨assignmentEdits_fit, ?_, (apply_at_once assignmentEdits_fit).1⟩
  rw [apply, applyBytes, ordered_assignmentEdits]
  decide +kernel

end WebMigration.Edit
