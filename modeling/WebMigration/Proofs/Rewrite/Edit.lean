import WebMigration.Proofs.Text.Utf8
import WebMigration.Rewrite.Edit

/-!
# Edits at cuts

Edits whose ends are cuts of a text never cut a character, whatever they replace and however they
overlap: applied together they give a text again.
-/

namespace WebMigration.Edit

open Syntax Text

variable {file : List Char}

/-- An edit starts and ends at cuts of a file. -/
def Fits (file : List Char) (e : Edit) : Prop :=
  ∃ start stop : Nat, e.start = start ∧ e.stop = stop ∧ IsCut file start ∧ IsCut file stop

theorem replacing_fits {start stop : Nat} {replacement : String} (hstart : IsCut file start)
    (hstop : IsCut file stop) : (replacing start stop replacement).Fits file :=
  ⟨start, stop, rfl, rfl, hstart, hstop⟩

/-! ### One edit -/

theorem resolve_of_le {length k : Nat} (h : k ≤ length) : resolve length k = k := by
  unfold resolve
  rw [if_neg (by omega)]
  omega

/-- An edit of a part that is left as it was leaves the part before it as it was, and gives a text
again. -/
theorem splice_bytesOf {e : Edit} {head : List Char} (tail : List Char) {start stop : Nat}
    (hstart : e.start = start) (hstop : e.stop = stop) (hcut : IsCut head start)
    (hcut' : IsCut head stop) : ∃ before text, byteSize before = start ∧ before <+: head ∧
      e.splice (bytesOf (head ++ tail)) = bytesOf (before ++ text) := by
  obtain ⟨before, after, hbefore, rfl⟩ := hcut
  obtain ⟨before', after', hbefore', rfl⟩ := hcut'
  have hlength : (bytesOf (head ++ tail)).length = byteSize head + byteSize tail := by simp
  have hle : byteSize before ≤ byteSize head := by rw [← hbefore]; simp
  have hle' : byteSize before' ≤ byteSize head := by rw [← hbefore']; simp
  refine ⟨before, e.replacement.toList ++ (after' ++ tail), rfl, ⟨after, hbefore⟩, ?_⟩
  have htake : (bytesOf (head ++ tail)).take (byteSize before) = bytesOf before := by
    rw [← hbefore, List.append_assoc, take_bytesOf]
  have hdrop : (bytesOf (head ++ tail)).drop (byteSize before') = bytesOf (after' ++ tail) := by
    rw [← hbefore', List.append_assoc, drop_bytesOf]
  rw [splice, hstart, hstop, resolve_of_le (by omega), resolve_of_le (by omega), htake, hdrop,
    encode_eq]
  simp

/-! ### All edits -/

theorem laterOrEqual_trans (a b c : Edit) (hab : laterOrEqual a b = true)
    (hbc : laterOrEqual b c = true) : laterOrEqual a c = true := by
  simp only [laterOrEqual, Bool.or_eq_true, Bool.and_eq_true, decide_eq_true_eq,
    beq_iff_eq] at *
  omega

theorem laterOrEqual_total (a b : Edit) : (laterOrEqual a b || laterOrEqual b a) = true := by
  simp only [laterOrEqual, Bool.or_eq_true, Bool.and_eq_true, decide_eq_true_eq, beq_iff_eq]
  omega

theorem start_le_of_laterOrEqual {a b : Edit} (h : laterOrEqual a b = true) :
    b.start ≤ a.start := by
  simp only [laterOrEqual, Bool.or_eq_true, Bool.and_eq_true, decide_eq_true_eq,
    beq_iff_eq] at h
  omega

theorem ordered_pairwise (edits : List Edit) :
    (ordered edits).Pairwise fun a b => b.start ≤ a.start :=
  (List.pairwise_mergeSort laterOrEqual_trans laterOrEqual_total edits).imp
    start_le_of_laterOrEqual

/-- Edits at cuts, applied from the last one on to a file whose head is as it was, give a text
again: what they have changed so far lies after the boundary, and an edit applied next lies before
it. -/
theorem applyOrdered_bytesOf {edits : List Edit} (boundary : Int) {head : List Char}
    (tail text : List Char)
    (hfile : head ++ tail = file) (hfits : ∀ e ∈ edits, e.Fits file)
    (hsorted : edits.Pairwise fun a b => b.start ≤ a.start)
    (hstart : ∀ e ∈ edits, e.start ≤ byteSize head)
    (hstop : ∀ e ∈ edits, e.stop ≤ boundary → e.stop ≤ byteSize head) :
    ∃ result, applyOrdered edits boundary (bytesOf (head ++ text)) = bytesOf result := by
  induction edits generalizing boundary head tail text with
  | nil => exact ⟨head ++ text, rfl⟩
  | cons e rest ih =>
    obtain ⟨hefits, hfits⟩ := List.forall_mem_cons.1 hfits
    obtain ⟨hlater, hsorted⟩ := List.pairwise_cons.1 hsorted
    obtain ⟨hestart, hstart⟩ := List.forall_mem_cons.1 hstart
    obtain ⟨hestop, hstop⟩ := List.forall_mem_cons.1 hstop
    rw [applyOrdered]
    by_cases h : boundary < e.stop
    · rw [if_pos h]
      exact ih _ tail text hfile hfits hsorted hstart hstop
    · rw [if_neg h]
      have hestop := hestop (by omega)
      obtain ⟨start, stop, hs, ht, hcut, hcut'⟩ := hefits
      rw [← hfile] at hcut hcut'
      obtain ⟨before, text', rfl, hprefix, hsplice⟩ := splice_bytesOf text hs ht
        (hcut.of_le (by omega)) (hcut'.of_le (by omega))
      obtain ⟨after, rfl⟩ := hprefix
      rw [hsplice, hs]
      refine ih _ (after ++ tail) _ (by rw [← hfile, List.append_assoc]) hfits hsorted ?_ ?_
      · intro e' he'
        have := hlater e' he'
        omega
      · exact fun e' _ hle => hle

/-- Edits at cuts of a text give a text. -/
theorem apply_ok {s : String} {edits : List Edit} (h : ∀ e ∈ edits, e.Fits s.toList) :
    ∃ result, apply (encode s) edits = .ok result := by
  have hfits : ∀ e ∈ ordered edits, e.Fits s.toList := fun e he => h e (List.mem_mergeSort.1 he)
  obtain ⟨result, hresult⟩ := applyOrdered_bytesOf (byteSize s.toList + 1) [] []
    (List.append_nil s.toList) hfits (ordered_pairwise edits)
    (fun e he => by
      obtain ⟨start, -, hs, -, hcut, -⟩ := hfits e he
      have := hcut.le
      omega)
    (fun e he _ => by
      obtain ⟨-, stop, -, ht, -, hcut⟩ := hfits e he
      have := hcut.le
      omega)
  refine ⟨String.ofList result, ?_⟩
  rw [List.append_nil] at hresult
  rw [apply, applyBytes, encode_eq, length_bytesOf, hresult, decode?_bytesOf]

end WebMigration.Edit
