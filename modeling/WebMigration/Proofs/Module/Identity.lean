import Mathlib.Data.List.Perm.Basic
import Mathlib.Data.List.TakeWhile
import Mathlib.Data.Set.Function
import Mathlib.Logic.Function.Basic
import WebMigration.Module.Reference

/-!
# The key of an import

Two imports are taken for the same when their keys are equal: one text made of the name of the module
and the sorted keys of the bindings.  Nothing keeps the name of a module from holding the marks that
separate the parts of the key, and a quoted name in braces may hold them too.  Still the key tells the
module and the bindings: read from the end of the name on, quotes open and close in one way only.
-/

namespace WebMigration.Module

open Syntax

/-! ### Bindings as they are read -/

/-- A text that is read as one word. -/
def IsWord (s : String) : Prop := wordLength? s.toList = some s.toList.length

/-- A text that is read as one string literal, with its quotes. -/
def IsLiteral (s : String) : Prop := stringLength? s.toList = some s.toList.length

/-- A binding as it is read off an import: the name in this file is a word, and only a named binding
has a name in the other module, which is a word or a string literal. -/
structure Binding.AsRead (b : Binding) : Prop where
  localName : IsWord b.localName
  named : b.kind = .named → ∃ name, b.imported = some name ∧ (IsWord name ∨ IsLiteral name)
  unnamed : b.kind ≠ .named → b.imported = none

instance (s : String) : Decidable (IsWord s) := inferInstanceAs (Decidable (_ = _))

instance (s : String) : Decidable (IsLiteral s) := inferInstanceAs (Decidable (_ = _))

instance (b : Binding) : Decidable b.AsRead :=
  decidable_of_iff (IsWord b.localName ∧
      (b.kind = .named → ∃ name ∈ b.imported, IsWord name ∨ IsLiteral name) ∧
      (b.kind ≠ .named → b.imported = none))
    ⟨fun h => ⟨h.1, h.2.1, h.2.2⟩, fun h => ⟨h.localName, h.named, h.unnamed⟩⟩

/-- The same bindings from the same module, in any order. -/
def Reference.SameImport (r r' : Reference) : Prop :=
  r.source = r'.source ∧ r.bindings.Perm r'.bindings

namespace Reference.SameImport

variable {r r' r'' : Reference}

theorem refl (r : Reference) : r.SameImport r := ⟨rfl, .refl _⟩

theorem trans (h : r.SameImport r') (h' : r'.SameImport r'') : r.SameImport r'' :=
  ⟨h.1.trans h'.1, h.2.trans h'.2⟩

end Reference.SameImport

/-! ### Quotes -/

/-- The quotes that are open. -/
inductive Quote
  | outside | double | single
  deriving DecidableEq

/-- The quotes that are open after a character. -/
def Quote.after (c : Char) : Quote → Quote
  | outside => if c = '"' then double else if c = '\'' then single else outside
  | double => if c = '"' then outside else double
  | single => if c = '\'' then outside else single

theorem Quote.after_injective (c : Char) : Function.Injective (Quote.after c) := by
  intro q q' h
  cases q <;> cases q' <;> simp only [Quote.after] at h <;> grind

/-- How far a text is read: the quotes that are open, and whether the last character takes the next one
with it. -/
structure Scan where
  quote : Quote
  escaped : Bool
  deriving DecidableEq

namespace Scan

/-- Outside of all quotes. -/
def start : Scan := ⟨.outside, false⟩

/-- Reads one character. -/
def next (s : Scan) (c : Char) : Scan :=
  if s.escaped then ⟨s.quote, false⟩
  else if c = '\\' then ⟨s.quote, true⟩
  else ⟨s.quote.after c, false⟩

/-- Reads some characters. -/
def pass (s : Scan) (cs : List Char) : Scan := cs.foldl next s

@[simp] theorem pass_nil (s : Scan) : s.pass [] = s := rfl

@[simp] theorem pass_cons (s : Scan) (c : Char) (cs : List Char) :
    s.pass (c :: cs) = (s.next c).pass cs := rfl

@[simp] theorem pass_append (s : Scan) (as bs : List Char) :
    s.pass (as ++ bs) = (s.pass as).pass bs :=
  List.foldl_append

theorem next_injective {s s' : Scan} {c : Char} (hescaped : s.escaped = s'.escaped)
    (h : s.next c = s'.next c) : s = s' := by
  obtain ⟨q, e⟩ := s
  obtain ⟨q', e'⟩ := s'
  obtain rfl : e = e' := hescaped
  have := @Quote.after_injective c q q'
  simp only [next] at h
  grind

theorem escaped_next {s : Scan} {c : Char} (hc : c ≠ '\\') : (s.next c).escaped = false := by
  cases hescaped : s.escaped <;> simp [next, hescaped, hc]

/-- Two ways to read a text that end alike have begun alike. -/
theorem pass_injective {cs : List Char} {s s' : Scan} (hescaped : s.escaped = s'.escaped)
    (h : s.pass cs = s'.pass cs) : s = s' := by
  induction cs generalizing s s' with
  | nil => exact h
  | cons c cs ih =>
    refine next_injective hescaped (ih ?_ h)
    simp only [next, hescaped]
    grind

end Scan

/-! ### Separators -/

/-- No separator stands outside of quotes. -/
def Clear (sep : Char) : Scan → List Char → Prop
  | _, [] => True
  | s, c :: r => ¬ (s = .start ∧ c = sep) ∧ Clear sep (s.next c) r

theorem clear_append {sep : Char} {as bs : List Char} {s : Scan} :
    Clear sep s (as ++ bs) ↔ Clear sep s as ∧ Clear sep (s.pass as) bs := by
  induction as generalizing s with
  | nil => simp [Clear]
  | cons c as ih => simp [Clear, ih, and_assoc]

/-- A text without the separator is clear. -/
theorem clear_of_not_mem {sep : Char} {cs : List Char} (h : sep ∉ cs) (s : Scan) :
    Clear sep s cs := by
  induction cs generalizing s with
  | nil => trivial
  | cons c cs ih =>
    rw [List.mem_cons, not_or] at h
    exact ⟨fun hc => h.1 hc.2.symm, ih h.2 _⟩

/-- A text that ends outside of the quotes that it opens, with no separator outside of them. -/
structure Closed (sep : Char) (cs : List Char) : Prop where
  ends : Scan.start.pass cs = .start
  clear : Clear sep .start cs

namespace Closed

variable {sep : Char} {as bs : List Char}

theorem append (ha : Closed sep as) (hb : Closed sep bs) : Closed sep (as ++ bs) :=
  ⟨by rw [Scan.pass_append, ha.ends, hb.ends],
    clear_append.2 ⟨ha.clear, ha.ends.symm ▸ hb.clear⟩⟩

/-- A closed text does not go on after a closed beginning with a separator. -/
theorem ne_append_cons (ha : Closed sep as) (hb : Closed sep bs) (more : List Char) :
    bs ≠ as ++ sep :: more := by
  rintro rfl
  have hmore := (clear_append.1 hb.clear).2
  rw [ha.ends] at hmore
  exact hmore.1 ⟨rfl, rfl⟩

/-- The first separator outside of quotes parts a text in one way. -/
theorem append_cons_inj (ha : Closed sep as) (hb : Closed sep bs) {more more' : List Char}
    (h : as ++ sep :: more = bs ++ sep :: more') : as = bs ∧ more = more' := by
  rcases List.append_eq_append_iff.1 h with ⟨_ | ⟨c, t⟩, rfl, ht⟩ | ⟨_ | ⟨c, t⟩, rfl, ht⟩
  · simpa using ht
  · obtain ⟨rfl, -⟩ := List.cons.inj ht
    exact absurd rfl (ha.ne_append_cons hb t)
  · simpa using ht.symm
  · obtain ⟨rfl, -⟩ := List.cons.inj ht
    exact absurd rfl (hb.ne_append_cons ha t)

end Closed

/-- Closed parts with separators between them tell the parts. -/
theorem intercalate_inj {sep : Char} {parts parts' : List (List Char)}
    (h : ∀ p ∈ parts, p ≠ [] ∧ Closed sep p) (h' : ∀ p ∈ parts', p ≠ [] ∧ Closed sep p)
    (heq : [sep].intercalate parts = [sep].intercalate parts') : parts = parts' := by
  induction parts generalizing parts' with
  | nil =>
    cases parts' with
    | nil => rfl
    | cons p' rest' =>
      cases rest' <;> simp [(h' p' List.mem_cons_self).1] at heq
  | cons p rest ih =>
    obtain ⟨⟨hne, hp⟩, hrest⟩ := List.forall_mem_cons.1 h
    cases parts' with
    | nil => cases rest <;> simp [hne] at heq
    | cons p' rest' =>
      obtain ⟨⟨-, hp'⟩, hrest'⟩ := List.forall_mem_cons.1 h'
      cases rest with
      | nil =>
        cases rest' with
        | nil => simpa using heq
        | cons q' rest' =>
          rw [List.intercalate_singleton, List.intercalate_cons_cons, List.append_assoc] at heq
          exact absurd heq (hp'.ne_append_cons hp _)
      | cons q rest =>
        cases rest' with
        | nil =>
          rw [List.intercalate_singleton, List.intercalate_cons_cons, List.append_assoc] at heq
          exact absurd heq.symm (hp.ne_append_cons hp' _)
        | cons q' rest' =>
          rw [List.intercalate_cons_cons, List.intercalate_cons_cons, List.append_assoc,
            List.append_assoc] at heq
          obtain ⟨rfl, hmore⟩ := hp.append_cons_inj hp' heq
          rw [ih hrest hrest' hmore]

/-! ### Words and literals -/

/-- Whether a text ends with a colon, or is empty where `colon` says so. -/
def endsWithColon (colon : Bool) (cs : List Char) : Bool := cs.foldl (fun _ c => c == ':') colon

/-- No colon outside of quotes comes first or right after another colon; `colon` tells whether one
stands before the text. -/
def Spaced : Scan → Bool → List Char → Prop
  | _, _, [] => True
  | s, colon, c :: r => ¬ (s = .start ∧ colon = true ∧ c = ':') ∧ Spaced (s.next c) (c == ':') r

theorem spaced_append {as bs : List Char} {s : Scan} {colon : Bool} :
    Spaced s colon (as ++ bs) ↔
      Spaced s colon as ∧ Spaced (s.pass as) (endsWithColon colon as) bs := by
  induction as generalizing s colon with
  | nil => simp [Spaced, endsWithColon]
  | cons c as ih => simp [Spaced, ih, and_assoc, endsWithColon]

theorem spaced_of_clear {cs : List Char} {s : Scan} (h : Clear ':' s cs) (colon : Bool) :
    Spaced s colon cs := by
  induction cs generalizing s colon with
  | nil => trivial
  | cons c cs ih => exact ⟨fun hc => h.1 ⟨hc.1, hc.2.2⟩, ih h.2 _⟩

/-- A part of a key: a kind or a name. -/
structure IsPart (cs : List Char) : Prop where
  colons : Closed ':' cs
  commas : Closed ',' cs
  last : ∀ colon, endsWithColon colon cs = false

theorem IsPart.ne_nil {cs : List Char} (h : IsPart cs) : cs ≠ [] := by
  rintro rfl
  exact absurd (h.last true) (by decide)

/-- A character that means nothing in a key. -/
def IsPlain (c : Char) : Prop := c ∉ ['"', '\'', '\\', ':', ',']

theorem isPlain_of_isHexDigit {c : Char} (h : Character.isHexDigit c = true) : IsPlain c := by
  simp only [IsPlain, List.mem_cons, List.not_mem_nil, or_false, not_or]
  refine ⟨?_, ?_, ?_, ?_, ?_⟩ <;> rintro rfl <;> exact absurd h (by decide)

theorem isPlain_of_isIdentifierPart {c : Char} (h : Character.isIdentifierPart c = true) :
    IsPlain c := by
  simp only [IsPlain, List.mem_cons, List.not_mem_nil, or_false, not_or]
  refine ⟨?_, ?_, ?_, ?_, ?_⟩ <;> rintro rfl <;> exact absurd h (by decide)

/-- The next characters are known to be plain, and so they continue an escape: right after a backslash
the first one may be any. -/
structure Continues (escaped : Bool) (sure : Nat) (cs : List Char) : Prop where
  pos : escaped = true → 0 < sure
  le : sure ≤ cs.length
  plain : ∀ c ∈ (cs.take sure).drop (if escaped then 1 else 0), IsPlain c

theorem Continues.next {escaped : Bool} {sure : Nat} {c : Char} {cs : List Char}
    (h : Continues escaped (sure + 1) (c :: cs)) :
    Continues false sure cs ∧ (escaped = false → IsPlain c) := by
  obtain ⟨-, hle, hplain⟩ := h
  simp only [List.length_cons, Nat.add_le_add_iff_right] at hle
  cases escaped
  · simp only [List.take_succ_cons, Bool.false_eq_true, if_false, List.drop_zero,
      List.forall_mem_cons] at hplain
    exact ⟨⟨by simp, hle, by simpa using hplain.2⟩, fun _ => hplain.1⟩
  · exact ⟨⟨by simp, hle, by simpa using hplain⟩, by simp⟩

theorem continues_zero (cs : List Char) : Continues false 0 cs := ⟨by simp, by simp, by simp⟩

/-- The digits of an escape in braces, up to the closing one, continue it. -/
theorem continues_braced {digits : List Char} (hdigits : ∀ c ∈ digits, IsPlain c) (more : List Char) :
    Continues true (digits.length + 3) ('u' :: '\x7b' :: (digits ++ '\x7d' :: more)) := by
  have hbrace : IsPlain '\x7b' ∧ IsPlain '\x7d' := by constructor <;> unfold IsPlain <;> decide
  have htake : (digits ++ '\x7d' :: more).take (digits.length + 1) = digits ++ ['\x7d'] := by
    rw [List.take_append, List.take_of_length_le (by omega), Nat.add_sub_cancel_left]
    rfl
  refine ⟨fun _ => by omega, by simp, ?_⟩
  simp only [if_true, List.take_succ_cons, List.drop_succ_cons, List.drop_zero, htake]
  simp only [List.forall_mem_cons, List.forall_mem_append]
  exact ⟨hbrace.1, hdigits, hbrace.2, by simp⟩

/-- What follows the backslash of an escape in a word. -/
theorem continues_of_identifierEscape {c : Char} {r : List Char} {n : Nat}
    (h : identifierEscapeLength? (c :: r) = some (n + 1)) :
    c = '\\' ∧ Continues true n r ∧ r.head? = some 'u' := by
  unfold identifierEscapeLength? at h
  split at h
  · rename_i rest heq
    obtain ⟨rfl, rfl⟩ := List.cons.inj heq
    dsimp only at h
    split at h
    · cases h
    · rename_i hclosed
      simp only [Bool.or_eq_true, not_or, bne_iff_ne, ne_eq, Decidable.not_not] at hclosed
      obtain ⟨more, hmore⟩ := List.head?_eq_some_iff.1 hclosed.2
      have hdigits : ∀ c ∈ rest.takeWhile Character.isHexDigit, IsPlain c :=
        fun c hc => isPlain_of_isHexDigit (List.mem_takeWhile_imp hc)
      have hrest : rest = rest.takeWhile Character.isHexDigit ++ '\x7d' :: more := by
        rw [← hmore]
        exact List.prefix_iff_eq_append.1 (List.takeWhile_prefix _) |>.symm
      generalize rest.takeWhile Character.isHexDigit = digits at *
      subst hrest
      obtain rfl : n = digits.length + 3 := by
        have := Option.some.inj h
        omega
      exact ⟨rfl, continues_braced hdigits more, rfl⟩
  · rename_i a b c d rest _ heq
    obtain ⟨rfl, rfl⟩ := List.cons.inj heq
    split at h
    · rename_i hhex
      obtain rfl : n = 5 := by simpa using (Option.some.inj h).symm
      simp only [List.all_cons, List.all_nil, Bool.and_true, Bool.and_eq_true] at hhex
      refine ⟨rfl, ⟨by simp, by simp, ?_⟩, rfl⟩
      simp only [if_true, List.take_succ_cons, List.take_zero, List.drop_succ_cons, List.drop_zero,
        List.forall_mem_cons]
      exact ⟨isPlain_of_isHexDigit hhex.1, isPlain_of_isHexDigit hhex.2.1,
        isPlain_of_isHexDigit hhex.2.2.1, isPlain_of_isHexDigit hhex.2.2.2, by simp⟩
    · cases h
  · cases h

/-- What follows the backslash of an escape in a string literal. -/
theorem continues_of_escape {r : List Char} {n : Nat}
    (h : escapeLength? ('\\' :: r) = some (n + 1)) : Continues true n r := by
  unfold escapeLength? at h
  split at h
  · rename_i rest heq
    obtain ⟨-, rfl⟩ := List.cons.inj heq
    obtain rfl : n = 2 := by simpa using (Option.some.inj h).symm
    exact ⟨by simp, by simp, by simp [IsPlain]⟩
  · rename_i a b rest _ heq
    obtain ⟨-, rfl⟩ := List.cons.inj heq
    split at h
    · rename_i hhex
      rw [Bool.and_eq_true] at hhex
      obtain rfl : n = 3 := by simpa using (Option.some.inj h).symm
      refine ⟨by simp, by simp, ?_⟩
      simp only [if_true, List.take_succ_cons, List.take_zero, List.drop_succ_cons, List.drop_zero,
        List.forall_mem_cons]
      exact ⟨isPlain_of_isHexDigit hhex.1, isPlain_of_isHexDigit hhex.2, by simp⟩
    · cases h
  · cases h
  · rename_i heq
    obtain ⟨-, rfl⟩ := List.cons.inj heq
    exact (continues_of_identifierEscape h).2.1
  · rename_i c rest _ _ _ _ heq
    obtain ⟨-, rfl⟩ := List.cons.inj heq
    obtain rfl : n = 1 := by simpa using (Option.some.inj h).symm
    exact ⟨by simp, by simp, by simp⟩
  · cases h

theorem Scan.next_plain {c : Char} (h : IsPlain c) (q : Quote) :
    (⟨q, false⟩ : Scan).next c = ⟨q, false⟩ := by
  simp only [IsPlain, List.mem_cons, not_or] at h
  cases q <;> simp [Scan.next, Quote.after, h]

/-- A character that continues an escape leaves the quotes as they are. -/
theorem Continues.scan_next {escaped : Bool} {sure : Nat} {c : Char} {cs : List Char}
    (h : Continues escaped (sure + 1) (c :: cs)) (q : Quote) :
    (⟨q, escaped⟩ : Scan).next c = ⟨q, false⟩ := by
  cases escaped
  · exact Scan.next_plain (h.next.2 rfl) q
  · rfl

theorem Continues.not_escaped {escaped : Bool} {cs : List Char} (h : Continues escaped 0 cs) :
    escaped = false := by
  cases escaped
  · rfl
  · exact absurd (h.pos rfl) (by decide)

/-- What is left of a word ends outside of quotes, and no mark that separates the parts of a key is in
it. -/
theorem pass_of_identifierRun {sure : Nat} {cs : List Char} {escaped : Bool}
    (h : identifierRun sure cs = cs.length) (hsure : Continues escaped sure cs)
    (hu : escaped = true → cs.head? = some 'u') :
    (⟨.outside, escaped⟩ : Scan).pass cs = .start ∧ ∀ c ∈ cs, c ≠ ':' ∧ c ≠ ',' := by
  have plain {c : Char} (hc : IsPlain c) : c ≠ ':' ∧ c ≠ ',' := by
    simp only [IsPlain, List.mem_cons, not_or] at hc
    exact ⟨hc.2.2.2.1, hc.2.2.2.2.1⟩
  fun_induction identifierRun sure cs generalizing escaped with
  | case1 sure =>
    cases escaped
    · exact ⟨rfl, by simp⟩
    · exact absurd (hu rfl) (by simp)
  | case2 sure c r ih =>
    obtain ⟨hends, hmarks⟩ := ih (by simpa using h) hsure.next.1 (by simp)
    refine ⟨by rw [Scan.pass_cons, hsure.scan_next, hends], List.forall_mem_cons.2 ⟨?_, hmarks⟩⟩
    cases escaped
    · exact plain (hsure.next.2 rfl)
    · obtain rfl : c = 'u' := by simpa using hu rfl
      decide
  | case3 c r hc ih =>
    obtain rfl := hsure.not_escaped
    have hc := isPlain_of_isIdentifierPart hc
    obtain ⟨hends, hmarks⟩ := ih (by simpa using h) (continues_zero r) (by simp)
    exact ⟨by rw [Scan.pass_cons, Scan.next_plain hc, hends],
      List.forall_mem_cons.2 ⟨plain hc, hmarks⟩⟩
  | case4 c r hc n hescape ih =>
    obtain rfl := hsure.not_escaped
    obtain ⟨rfl, hn, hr⟩ := continues_of_identifierEscape hescape
    obtain ⟨hends, hmarks⟩ := ih (by simpa using h) hn fun _ => hr
    exact ⟨hends, List.forall_mem_cons.2 ⟨by decide, hmarks⟩⟩
  | case5 c r hc hescape => simp at h

theorem endsWithColon_of_ne {cs : List Char} (hne : cs ≠ []) (h : ∀ c ∈ cs, c ≠ ':')
    (colon : Bool) : endsWithColon colon cs = false := by
  induction cs generalizing colon with
  | nil => exact absurd rfl hne
  | cons c cs ih =>
    obtain ⟨hc, hcs⟩ := List.forall_mem_cons.1 h
    rcases eq_or_ne cs [] with rfl | hcs'
    · simpa [endsWithColon] using hc
    · exact ih hcs' hcs _

/-- Words are parts of keys. -/
theorem isPart_of_isWord {s : String} (h : IsWord s) : IsPart s.toList := by
  unfold IsWord wordLength? at h
  split at h
  · cases h
  · rename_i c r hs
    split at h
    · rw [hs] at h ⊢
      obtain ⟨hends, hmarks⟩ :=
        pass_of_identifierRun (Option.some.inj h) (continues_zero (c :: r)) (by simp)
      exact ⟨⟨hends, clear_of_not_mem (fun hm => (hmarks _ hm).1 rfl) _⟩,
        ⟨hends, clear_of_not_mem (fun hm => (hmarks _ hm).2 rfl) _⟩,
        endsWithColon_of_ne (by simp) fun c hc => (hmarks c hc).1⟩
    · cases h

/-- The quotes that a character opens. -/
def Quote.OpenedBy (q : Quote) (quote : Char) : Prop :=
  q = .double ∧ quote = '"' ∨ q = .single ∧ quote = '\''

namespace Quote.OpenedBy

variable {q : Quote} {quote c : Char} {r : List Char}

/-- What is left of a text in quotes ends outside of them, and no separator stands outside before. -/
def Ends (s : Scan) (cs : List Char) : Prop := s.pass cs = .start ∧ ∀ sep, Clear sep s cs

/-- One character in the quotes, and what is left after it. -/
theorem ends_cons (hq : q.OpenedBy quote) {escaped : Bool} {s : Scan}
    (hs : (⟨q, escaped⟩ : Scan).next c = s) (h : Ends s r) : Ends ⟨q, escaped⟩ (c :: r) := by
  subst hs
  refine ⟨h.1, fun sep => ⟨?_, h.2 sep⟩⟩
  obtain ⟨rfl, -⟩ | ⟨rfl, -⟩ := hq <;> simp [Scan.start]

/-- A character that neither closes the quotes nor starts an escape. -/
theorem next (hq : q.OpenedBy quote) (hc : c ≠ quote) (hslash : c ≠ '\\') :
    (⟨q, false⟩ : Scan).next c = ⟨q, false⟩ := by
  obtain ⟨rfl, rfl⟩ | ⟨rfl, rfl⟩ := hq <;> simp [Scan.next, Quote.after, hc, hslash]

/-- The character that closes the quotes. -/
theorem next_quote (hq : q.OpenedBy quote) : (⟨q, false⟩ : Scan).next quote = .start := by
  obtain ⟨rfl, rfl⟩ | ⟨rfl, rfl⟩ := hq <;> rfl

theorem start_next (hq : q.OpenedBy quote) : Scan.start.next quote = ⟨q, false⟩ := by
  obtain ⟨rfl, rfl⟩ | ⟨rfl, rfl⟩ := hq <;> rfl

/-- What is left of a string literal ends outside of quotes, and up to there it is inside of them. -/
theorem ends_of_stringRest? (hq : q.OpenedBy quote) {sure : Nat} {ended : Bool} {cs : List Char}
    {escaped : Bool} (h : stringRest? quote sure ended cs = some cs.length)
    (hsure : Continues escaped sure cs) : Ends ⟨q, escaped⟩ cs := by
  have rest {n : Option Nat} {r : List Char} (h : n.map (· + 1) = some (r.length + 1)) :
      n = some r.length := by
    obtain ⟨m, rfl, hm⟩ := Option.map_eq_some_iff.1 h
    rw [Nat.add_right_cancel hm]
  -- The next `sure` characters belong to an escape and leave the quotes as they are; of the others only the
  -- quote that opened the literal closes it.
  fun_induction stringRest? quote sure ended cs generalizing escaped with
  | case1 => cases h
  | case2 sure ended c r ih => exact hq.ends_cons (hsure.scan_next q) (ih (rest h) hsure.next.1)
  | case3 ended c r hc =>
    obtain rfl : c = quote := by simpa using hc
    obtain rfl : r = [] := by simpa using h
    obtain rfl := hsure.not_escaped
    exact hq.ends_cons hq.next_quote ⟨rfl, fun _ => trivial⟩
  | case4 c r hc hblank ih =>
    obtain rfl := hsure.not_escaped
    have hslash : c ≠ '\\' := by
      rintro rfl
      exact absurd hblank (by decide)
    exact hq.ends_cons (hq.next (by simpa using hc) hslash) (ih (rest h) (continues_zero r))
  | case5 => cases h
  | case6 ended c r hc hended hnewline ih =>
    obtain rfl := hsure.not_escaped
    have hslash : c ≠ '\\' := by
      rintro rfl
      exact absurd hnewline (by decide)
    exact hq.ends_cons (hq.next (by simpa using hc) hslash) (ih (rest h) (continues_zero r))
  | case7 ended c r hc hended hnewline hslash n hescape ih =>
    obtain rfl := hsure.not_escaped
    obtain rfl : c = '\\' := by simpa using hslash
    exact hq.ends_cons rfl (ih (rest h) (continues_of_escape hescape))
  | case8 => cases h
  | case9 ended c r hc hended hnewline hslash ih =>
    obtain rfl := hsure.not_escaped
    exact hq.ends_cons (hq.next (by simpa using hc) (by simpa using hslash))
      (ih (rest h) (continues_zero r))

end Quote.OpenedBy

@[simp] theorem endsWithColon_append_singleton (colon : Bool) (cs : List Char) (c : Char) :
    endsWithColon colon (cs ++ [c]) = (c == ':') := by
  simp [endsWithColon]

/-- A quote with what follows it in a string literal is a part of a key. -/
theorem isPart_of_stringRest? {q : Quote} {quote : Char} {r : List Char} (hq : q.OpenedBy quote)
    (h : stringRest? quote 0 false r = some r.length) : IsPart (quote :: r) := by
  have hmark : quote ≠ ':' ∧ quote ≠ ',' := by obtain ⟨-, rfl⟩ | ⟨-, rfl⟩ := hq <;> decide
  obtain ⟨hends, hclear⟩ := hq.ends_of_stringRest? h (continues_zero r)
  rw [← hq.start_next] at hends hclear
  obtain ⟨inside, hinside⟩ := closedBy_stringRest? quote 0 false r _ h
  rw [List.take_length] at hinside
  refine ⟨⟨hends, fun hc => hmark.1 hc.2, hclear ':'⟩, ⟨hends, fun hc => hmark.2 hc.2, hclear ','⟩,
    fun colon => ?_⟩
  rw [hinside, ← List.cons_append, endsWithColon_append_singleton, beq_eq_false_iff_ne]
  exact hmark.1

/-- String literals are parts of keys. -/
theorem isPart_of_isLiteral {s : String} (h : IsLiteral s) : IsPart s.toList := by
  have rest {quote : Char} {r : List Char}
      (h : (stringRest? quote 0 false r).map (· + 1) = some (quote :: r).length) :
      stringRest? quote 0 false r = some r.length := by
    obtain ⟨m, hm, hlength⟩ := Option.map_eq_some_iff.1 h
    rw [hm, Nat.add_right_cancel hlength]
  unfold IsLiteral at h
  generalize s.toList = cs at h ⊢
  unfold stringLength? at h
  split at h
  · exact isPart_of_stringRest? (.inl ⟨rfl, rfl⟩) (rest h)
  · exact isPart_of_stringRest? (.inr ⟨rfl, rfl⟩) (rest h)
  · cases h

/-! ### The key of a binding -/

theorem isPart_kindName (kind : BindingKind) : IsPart kind.name.toList := by
  cases kind <;>
    exact ⟨⟨rfl, clear_of_not_mem (by decide) _⟩, ⟨rfl, clear_of_not_mem (by decide) _⟩,
      endsWithColon_of_ne (by decide) (List.forall_mem_ne'.2 (by decide))⟩

/-- The parts of the key of a binding. -/
def Binding.parts (b : Binding) : List String :=
  b.kind.name :: (b.imported.toList ++ [b.localName])

/-- A binding that is read has a name in the other module if and only if it is named. -/
theorem Binding.AsRead.imported_of_mem {b : Binding} (h : b.AsRead) {name : String}
    (hname : name ∈ b.imported.toList) : b.kind = .named ∧ (IsWord name ∨ IsLiteral name) := by
  rw [Option.mem_toList] at hname
  have hnamed : b.kind = .named := by
    by_contra hkind
    rw [h.unnamed hkind] at hname
    cases hname
  obtain ⟨name', hname', hread⟩ := h.named hnamed
  obtain rfl : name' = name := Option.some.inj (hname'.symm.trans hname)
  exact ⟨hnamed, hread⟩

theorem Binding.AsRead.isPart {b : Binding} (h : b.AsRead) : ∀ p ∈ b.parts, IsPart p.toList := by
  simp only [Binding.parts, List.forall_mem_cons, List.forall_mem_append]
  refine ⟨isPart_kindName b.kind, fun p hp => ?_, isPart_of_isWord h.localName, by simp⟩
  exact (h.imported_of_mem hp).2.elim isPart_of_isWord isPart_of_isLiteral

/-- The key of a binding is its parts with colons between. -/
theorem Binding.AsRead.key_eq {b : Binding} (h : b.AsRead) :
    b.key.toList = [':'].intercalate (b.parts.map String.toList) := by
  have hpart := h.isPart
  obtain ⟨kind, localName, imported⟩ := b
  cases kind with
  | named =>
    obtain ⟨name, rfl, -⟩ := h.named rfl
    have hname : name.isEmpty = false := by
      simpa using (hpart name (by simp [parts])).ne_nil
    simp [key, parts, hname, BindingKind.name, List.intercalate_cons_cons]
  | default | star =>
    obtain rfl := h.unnamed (by simp)
    simp [key, parts, BindingKind.name, List.intercalate_cons_cons]

theorem BindingKind.name_injective : Function.Injective BindingKind.name := by
  intro k k' h
  cases k <;> cases k' <;> first | rfl | exact absurd h (by decide)

/-- The key of a binding tells the binding. -/
theorem Binding.injOn_key : Set.InjOn Binding.key {b | b.AsRead} := by
  intro b hb b' hb' h
  have hparts {b : Binding} (hb : b.AsRead) :
      ∀ p ∈ b.parts.map String.toList, p ≠ [] ∧ Closed ':' p := by
    simp only [List.forall_mem_map]
    exact fun p hp => ⟨(hb.isPart p hp).ne_nil, (hb.isPart p hp).colons⟩
  have heq := congrArg String.toList h
  rw [hb.key_eq, hb'.key_eq] at heq
  have heq : b.parts = b'.parts :=
    List.map_injective_iff.2 (fun _ _ => String.toList_injective)
      (intercalate_inj (hparts hb) (hparts hb') heq)
  obtain ⟨hkind, hnames⟩ := List.cons.inj heq
  obtain ⟨hlist, hlocal⟩ := List.append_inj' hnames rfl
  have himported : b.imported = b'.imported :=
    Option.ext fun name => by rw [← Option.mem_toList, hlist, Option.mem_toList]
  cases b
  cases b'
  exact (Binding.mk.injEq ..).mpr ⟨BindingKind.name_injective hkind, List.singleton_inj.1 hlocal,
    himported⟩

/-! ### The key of an import -/

/-- A text that leaves all quotes that it opens, where no colon outside of quotes comes right after
another colon, and none comes last. -/
structure Settled (cs : List Char) : Prop where
  ends : Scan.start.pass cs = .start
  spaced : ∀ colon, Spaced .start colon cs
  last : ∀ colon, endsWithColon colon cs = false

theorem IsPart.settled {cs : List Char} (h : IsPart cs) : Settled cs :=
  ⟨h.colons.ends, spaced_of_clear h.colons.clear, h.last⟩

theorem settled_intercalate {sep : Char} (hsep : Scan.start.next sep = .start)
    {parts : List (List Char)} (hne : parts ≠ []) (h : ∀ p ∈ parts, Settled p) :
    Settled ([sep].intercalate parts) := by
  induction parts with
  | nil => exact absurd rfl hne
  | cons p rest ih =>
    obtain ⟨hp, hrest⟩ := List.forall_mem_cons.1 h
    cases rest with
    | nil => simpa using hp
    | cons q rest =>
      have ih := ih (by simp) hrest
      rw [List.intercalate_cons_cons]
      refine ⟨by simp [hp.ends, hsep, ih.ends], fun colon => ?_, fun colon => ?_⟩
      · rw [List.append_assoc, spaced_append, hp.ends, hp.last]
        exact ⟨hp.spaced colon, by simp, hsep.symm ▸ ih.spaced _⟩
      · rw [endsWithColon, List.foldl_append]
        exact ih.last _

theorem closed_intercalate {mark sep : Char} (hsep : Closed mark [sep]) {parts : List (List Char)}
    (h : ∀ p ∈ parts, Closed mark p) : Closed mark ([sep].intercalate parts) := by
  induction parts with
  | nil => exact ⟨rfl, trivial⟩
  | cons p rest ih =>
    obtain ⟨hp, hrest⟩ := List.forall_mem_cons.1 h
    cases rest with
    | nil => simpa using hp
    | cons q rest =>
      rw [List.intercalate_cons_cons]
      exact (hp.append hsep).append (ih hrest)

namespace Binding.AsRead

variable {b : Binding}

theorem settled_key (h : b.AsRead) : Settled b.key.toList := by
  rw [h.key_eq]
  refine settled_intercalate rfl (by simp [parts]) ?_
  simpa using fun p hp => (h.isPart p hp).settled

theorem closed_key (h : b.AsRead) : b.key.toList ≠ [] ∧ Closed ',' b.key.toList := by
  constructor
  · intro hnil
    exact absurd (h.settled_key.last true) (by rw [hnil]; decide)
  · rw [h.key_eq]
    refine closed_intercalate ⟨rfl, by simp [Clear]⟩ ?_
    simpa using fun p hp => (h.isPart p hp).commas

end Binding.AsRead

/-- The keys of bindings in order. -/
def sortedKeys (bindings : List Binding) : List String :=
  (bindings.map (·.key)).mergeSort fun a b => !(b < a)

theorem mem_sortedKeys {bindings : List Binding} {k : String} :
    k ∈ sortedKeys bindings ↔ ∃ b ∈ bindings, b.key = k := by
  rw [sortedKeys, (List.mergeSort_perm _ _).mem_iff, List.mem_map]

theorem not_before_iff {a b : String} : (!decide (b < a)) = true ↔ a ≤ b := by
  rw [Bool.not_eq_true', decide_eq_false_iff_not, String.not_lt]

/-- Bindings have the same keys in order if and only if their keys are the same in any order. -/
theorem sortedKeys_eq_iff {bindings bindings' : List Binding} :
    sortedKeys bindings = sortedKeys bindings' ↔
      (bindings.map (·.key)).Perm (bindings'.map (·.key)) := by
  have sorted (keys : List String) :
      (keys.mergeSort fun a b => !(b < a)).Pairwise (· ≤ ·) := by
    have hsorted := @List.pairwise_mergeSort String (fun a b => !(b < a))
      (fun a b c => by simpa only [not_before_iff] using String.le_trans)
      (fun a b => by simpa only [Bool.or_eq_true, not_before_iff] using String.le_total a b) keys
    simpa only [not_before_iff] using hsorted
  constructor
  · intro h
    exact (List.mergeSort_perm _ _).symm.trans ((List.Perm.of_eq h).trans (List.mergeSort_perm _ _))
  · intro h
    refine List.Perm.eq_of_pairwise (fun a b _ _ => String.le_antisymm) (sorted _) (sorted _) ?_
    exact (List.mergeSort_perm _ _).trans (h.trans (List.mergeSort_perm _ _).symm)

/-- Bindings that are read are the same in any order if and only if their keys are. -/
theorem perm_key_iff {bindings bindings' : List Binding} (h : ∀ b ∈ bindings, b.AsRead)
    (h' : ∀ b ∈ bindings', b.AsRead) :
    (bindings.map (·.key)).Perm (bindings'.map (·.key)) ↔ bindings.Perm bindings' := by
  have : Nonempty Binding := ⟨⟨.star, "", none⟩⟩
  let ofKey := Function.invFunOn Binding.key {b | b.AsRead}
  have ofKey_key {bindings : List Binding} (h : ∀ b ∈ bindings, b.AsRead) :
      (bindings.map (·.key)).map ofKey = bindings := by
    rw [List.map_map, List.map_congr_left (g := id), List.map_id]
    exact fun b hb => Binding.injOn_key.leftInvOn_invFunOn (h b hb)
  refine ⟨fun hperm => ?_, fun hperm => hperm.map _⟩
  rw [← ofKey_key h, ← ofKey_key h']
  exact hperm.map ofKey

/-- Two colons after which no quotes are open stand outside of quotes. -/
theorem not_spaced_of_colons {before after : List Char} {colon : Bool}
    (h : Scan.start.pass (before ++ [':', ':']) = .start) :
    ¬ Spaced .start colon (before ++ ':' :: ':' :: after) := by
  rw [Scan.pass_append] at h
  have hafter : (Scan.start.pass before).next ':' = .start :=
    Scan.next_injective (c := ':') (Scan.escaped_next (by decide)) h
  rw [spaced_append]
  exact fun hspaced => hspaced.2.2.1 ⟨hafter, rfl, rfl⟩

/-- What follows the name of the module in the key of an import tells where it starts. -/
theorem append_colons_inj {source source' rest rest' : List Char}
    (hends : Scan.start.pass rest = .start) (hspaced : Spaced .start true rest)
    (hends' : Scan.start.pass rest' = .start) (hspaced' : Spaced .start true rest')
    (h : source ++ ':' :: ':' :: rest = source' ++ ':' :: ':' :: rest') :
    source = source' ∧ rest = rest' := by
  -- The longer name cannot go on into what follows the shorter one.
  have longer {rest rest' more : List Char} (hends : Scan.start.pass rest = .start)
      (hspaced : Spaced .start true rest) (hends' : Scan.start.pass rest' = .start)
      (h : ':' :: ':' :: rest = more ++ ':' :: ':' :: rest') : more = [] := by
    rcases more with _ | ⟨c, _ | ⟨d, more⟩⟩
    · rfl
    · obtain rfl : rest = ':' :: rest' := by simpa using (List.cons.inj h).2
      exact absurd ⟨rfl, rfl, rfl⟩ hspaced.1
    · obtain rfl : rest = more ++ ':' :: ':' :: rest' := by
        simpa using (List.cons.inj (List.cons.inj h).2).2
      have hescaped : (Scan.start.pass (more ++ [':', ':'])).escaped = false := by
        rw [Scan.pass_append]
        exact Scan.escaped_next (by decide)
      have hrest' : (Scan.start.pass (more ++ [':', ':'])).pass rest' = Scan.start.pass rest' := by
        rw [← Scan.pass_append, hends', List.append_assoc]
        exact hends
      exact absurd hspaced (not_spaced_of_colons (Scan.pass_injective hescaped hrest'))
  rcases List.append_eq_append_iff.1 h with ⟨more, rfl, hmore⟩ | ⟨more, rfl, hmore⟩
  · obtain rfl := longer hends hspaced hends' hmore
    simpa using hmore
  · obtain rfl := longer hends' hspaced' hends hmore
    simpa using hmore.symm

/-- The keys of bindings in order with commas between. -/
theorem joined_of_asRead {bindings : List Binding} (h : ∀ b ∈ bindings, b.AsRead) :
    Scan.start.pass ([','].intercalate ((sortedKeys bindings).map String.toList)) = .start ∧
      Spaced .start true ([','].intercalate ((sortedKeys bindings).map String.toList)) := by
  rcases eq_or_ne (sortedKeys bindings) [] with hnil | hne
  · rw [hnil]
    exact ⟨rfl, trivial⟩
  · have hsettled : Settled ([','].intercalate ((sortedKeys bindings).map String.toList)) := by
      refine settled_intercalate rfl (by simpa using hne) ?_
      simp only [List.forall_mem_map, mem_sortedKeys]
      rintro _ ⟨b, hb, rfl⟩
      exact (h b hb).settled_key
    exact ⟨hsettled.ends, hsettled.spaced true⟩

/-- The keys of bindings with commas between tell the keys. -/
theorem sortedKeys_eq_of_joined {bindings bindings' : List Binding} (h : ∀ b ∈ bindings, b.AsRead)
    (h' : ∀ b ∈ bindings', b.AsRead)
    (heq : [','].intercalate ((sortedKeys bindings).map String.toList) =
      [','].intercalate ((sortedKeys bindings').map String.toList)) :
    sortedKeys bindings = sortedKeys bindings' := by
  have closed {bindings : List Binding} (h : ∀ b ∈ bindings, b.AsRead) :
      ∀ p ∈ (sortedKeys bindings).map String.toList, p ≠ [] ∧ Closed ',' p := by
    simp only [List.forall_mem_map, mem_sortedKeys]
    rintro _ ⟨b, hb, rfl⟩
    exact (h b hb).closed_key
  exact List.map_injective_iff.2 (fun _ _ => String.toList_injective)
    (intercalate_inj (closed h) (closed h') heq)

/-- The key of an import tells the module and the bindings: imports have the same key if and only if
they import the same bindings from the same module, in any order. -/
theorem Reference.dedupeKey_eq_iff {r r' : Reference} (h : ∀ b ∈ r.bindings, b.AsRead)
    (h' : ∀ b ∈ r'.bindings, b.AsRead) : r.dedupeKey = r'.dedupeKey ↔ r.SameImport r' := by
  have key_eq (r : Reference) : r.dedupeKey.toList = r.source.toList ++
      ':' :: ':' :: [','].intercalate ((sortedKeys r.bindings).map String.toList) := by
    simp [dedupeKey, Text.join, sortedKeys, String.toList_intercalate]
  have hkeys : sortedKeys r.bindings = sortedKeys r'.bindings ↔ r.bindings.Perm r'.bindings :=
    sortedKeys_eq_iff.trans (perm_key_iff h h')
  rw [← String.toList_inj, key_eq, key_eq]
  constructor
  · intro heq
    obtain ⟨hends, hspaced⟩ := joined_of_asRead h
    obtain ⟨hends', hspaced'⟩ := joined_of_asRead h'
    obtain ⟨hsource, hjoined⟩ := append_colons_inj hends hspaced hends' hspaced' heq
    exact ⟨String.toList_inj.1 hsource, hkeys.1 (sortedKeys_eq_of_joined h h' hjoined)⟩
  · rintro ⟨hsource, hperm⟩
    rw [hsource, hkeys.2 hperm]

end WebMigration.Module
