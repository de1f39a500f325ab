import WebMigration.Proofs.Json.Refusal
import WebMigration.Proofs.Text.Pieces

/-!
# The notation of values

Which texts denote which value, told without a reader: characters with their escapes, numbers part by
part, and lists and records with blanks between their parts.  What is denoted is read.
-/

namespace WebMigration.Json

/-! ### Strings and numbers -/

/-- A character as it stands in a string. -/
inductive Spelling : List Char → Char → Prop
  | plain {c} (hcontrol : ' ' ≤ c) (hquote : c ≠ '"') (hslash : c ≠ '\\') : Spelling [c] c
  | escape {letter c} (h : simpleEscape? letter = some c) : Spelling ['\\', letter] c
  | unit {d₁ d₂ d₃ d₄ c} (hsmall : c.toNat < 0x10000) (h : hexQuad? d₁ d₂ d₃ d₄ = some c.toNat) :
      Spelling ['\\', 'u', d₁, d₂, d₃, d₄] c
  /-- The two halves of a character beyond four digits. -/
  | pair {d₁ d₂ d₃ d₄ e₁ e₂ e₃ e₄ c} (hlarge : 0x10000 ≤ c.toNat)
      (hhigh : hexQuad? d₁ d₂ d₃ d₄ = some (0xd800 + (c.toNat - 0x10000) / 0x400))
      (hlow : hexQuad? e₁ e₂ e₃ e₄ = some (0xdc00 + (c.toNat - 0x10000) % 0x400)) :
      Spelling ['\\', 'u', d₁, d₂, d₃, d₄, '\\', 'u', e₁, e₂, e₃, e₄] c

/-- The characters of a string as they stand between its quotes. -/
inductive Spells : List Char → List Char → Prop
  | nil : Spells [] []
  | cons {text rest c cs} (h : Spelling text c) (hrest : Spells rest cs) : Spells (text ++ rest) (c :: cs)

/-- The digits of a whole number: a zero, or digits that start with none. -/
def IsWhole (ds : List Char) : Prop :=
  ds = ['0'] ∨ ∃ d r, ds = d :: r ∧ d ≠ '0' ∧ ∀ c ∈ ds, c.isDigit = true

/-- The sign of a number. -/
def signText (negative : Bool) : List Char := if negative then ['-'] else []

/-- The point with the digits behind it. -/
inductive FractionText : List Char → Option (List Char) → Prop
  | none : FractionText [] none
  | some {ds} (hne : ds ≠ []) (h : ∀ c ∈ ds, c.isDigit = true) : FractionText ('.' :: ds) (some ds)

/-- The sign of an exponent. -/
inductive ExponentSign : List Char → Bool → Prop
  | none : ExponentSign [] false
  | plus : ExponentSign ['+'] false
  | minus : ExponentSign ['-'] true

/-- The letter and the digits of an exponent. -/
inductive ExponentText : List Char → Option Int → Prop
  | none : ExponentText [] none
  | some {e sign ds negative} (he : e = 'e' ∨ e = 'E') (hsign : ExponentSign sign negative) (hne : ds ≠ [])
      (h : ∀ c ∈ ds, c.isDigit = true) :
      ExponentText (e :: (sign ++ ds))
        (some (if negative then -(digitsValue ds : Int) else digitsValue ds))

/-- The text of a number with its parts. -/
inductive NumberText (negative : Bool) (whole : List Char) (fraction : Option (List Char))
    (exponent : Option Int) : List Char → Prop
  | mk {fractionText exponentText} (hwhole : IsWhole whole) (hfraction : FractionText fractionText fraction)
      (hexponent : ExponentText exponentText exponent) :
      NumberText negative whole fraction exponent
        (signText negative ++ (whole ++ (fractionText ++ exponentText)))

variable {text rest cs ds : List Char} {c : Char} {fuel : Nat}

/-! ### Reading strings -/

theorem toNat_bounds (c : Char) : c.toNat < 0xd800 ∨ 0xdfff < c.toNat ∧ c.toNat < 0x110000 := by
  simpa [UInt32.isValidChar, Nat.isValidChar] using c.valid

theorem joinedHalves?_eq_none {high : Nat} (h : high < 0xd800 ∨ 0xdfff < high) (cs : List Char) :
    joinedHalves? high cs = none := by
  have hpair : ∀ low, surrogatePair? high low = none := by
    intro low
    rw [surrogatePair?, if_neg]
    simp
    omega
  unfold joinedHalves?
  split
  · simp [hpair]
  · rfl

theorem unitChar_toNat (c : Char) : unitChar c.toNat = c := by
  have hbounds := toNat_bounds c
  rw [unitChar, if_neg (by simp; omega), Char.ofNat_toNat]

theorem surrogatePair?_halves (h : 0x10000 ≤ c.toNat) :
    surrogatePair? (0xd800 + (c.toNat - 0x10000) / 0x400) (0xdc00 + (c.toNat - 0x10000) % 0x400) =
      some c := by
  have hbounds := toNat_bounds c
  rw [surrogatePair?, if_pos (by simp; omega)]
  have hnumber : 0x10000 + (0xd800 + (c.toNat - 0x10000) / 0x400 - 0xd800) * 0x400 +
      (0xdc00 + (c.toNat - 0x10000) % 0x400 - 0xdc00) = c.toNat := by
    omega
  rw [hnumber, Char.ofNat_toNat]

theorem readChar_spelling (h : Spelling text c) (rest : List Char) :
    readChar (text ++ rest) = some (c, rest) := by
  cases h with
  | plain hcontrol hquote hslash =>
    simp only [List.singleton_append]
    unfold readChar
    split
    · rename_i heq
      exact absurd (List.cons.inj heq).1 hslash
    · rename_i heq
      obtain ⟨rfl, rfl⟩ := List.cons.inj heq
      rw [if_neg (by simpa using hcontrol)]
    · rename_i heq
      cases heq
  | @escape letter c h =>
    show readEscape (letter :: rest) = some (c, rest)
    unfold readEscape
    split
    · rename_i heq
      rw [(List.cons.inj heq).1] at h
      cases h
    · rename_i heq
      obtain ⟨rfl, rfl⟩ := List.cons.inj heq
      rw [h]
      rfl
    · rename_i heq
      cases heq
  | @unit d₁ d₂ d₃ d₄ c hsmall h =>
    show readUnit (d₁ :: d₂ :: d₃ :: d₄ :: rest) = some (c, rest)
    have hbounds := toNat_bounds c
    simp only [readUnit, h, Option.map_some]
    rw [joinedHalves?_eq_none (by omega), Option.getD_none, unitChar_toNat]
  | @pair d₁ d₂ d₃ d₄ e₁ e₂ e₃ e₄ c hlarge hhigh hlow =>
    show readUnit (d₁ :: d₂ :: d₃ :: d₄ :: '\\' :: 'u' :: e₁ :: e₂ :: e₃ :: e₄ :: rest) = some (c, rest)
    simp only [readUnit, joinedHalves?, hhigh, hlow, Option.map_some, Option.bind_some,
      surrogatePair?_halves hlarge, Option.getD_some]

/-- Characters that need no escape stand for themselves. -/
theorem spells_plain (h : cs.all (fun c => ' ' ≤ c && c != '"' && c != '\\') = true) : Spells cs cs := by
  induction cs with
  | nil => exact .nil
  | cons c cs ih =>
    rw [List.all_cons, Bool.and_eq_true, Bool.and_eq_true, Bool.and_eq_true, decide_eq_true_eq, bne_iff_ne,
      bne_iff_ne] at h
    exact .cons (.plain h.1.1.1 h.1.1.2 h.1.2) (ih h.2)

theorem Spelling.exists_cons (h : Spelling text c) : ∃ d r, text = d :: r ∧ d ≠ '"' := by
  cases h with
  | plain hcontrol hquote hslash => exact ⟨_, _, rfl, hquote⟩
  | escape h => exact ⟨_, _, rfl, by decide⟩
  | unit hsmall h => exact ⟨_, _, rfl, by decide⟩
  | pair hlarge hhigh hlow => exact ⟨_, _, rfl, by decide⟩

theorem readStringUpTo_spells (h : Spells text cs) (hfuel : text.length < fuel) (rest : List Char) :
    readStringUpTo fuel (text ++ '"' :: rest) = some (cs, rest) := by
  induction h generalizing fuel with
  | nil =>
    cases fuel with
    | zero => simp at hfuel
    | succ fuel => rfl
  | @cons text others c cs h hothers ih =>
    obtain ⟨d, r, rfl, hd⟩ := h.exists_cons
    cases fuel with
    | zero => simp at hfuel
    | succ fuel =>
      have hread := readChar_spelling h (others ++ '"' :: rest)
      have hlater := ih (by simp at hfuel; omega : others.length < fuel)
      rw [List.append_assoc]
      unfold readStringUpTo
      split
      · rename_i heq
        exact absurd (List.cons.inj heq).1 hd
      · rw [hread]
        simp [hlater]

theorem readString_spells (h : Spells text cs) (rest : List Char) :
    readString (text ++ '"' :: rest) = some (String.ofList cs, rest) := by
  have hfuel : text.length < (text ++ '"' :: rest).length + 1 := by
    rw [List.length_append]
    omega
  rw [readString, readStringUpTo_spells h hfuel]
  rfl

/-! ### Reading numbers -/

/-- No number goes on here. -/
def EndsNumber (rest : List Char) : Prop :=
  ∀ c ∈ rest.head?, c.isDigit = false ∧ c ≠ '.' ∧ c ≠ 'e' ∧ c ≠ 'E'

theorem readWhole_append (h : IsWhole ds) (hrest : ∀ c ∈ rest.head?, c.isDigit = false) :
    readWhole (ds ++ rest) = some (ds, rest) := by
  rcases h with rfl | ⟨d, r, rfl, hzero, hdigits⟩
  · rfl
  · have hsplit := Text.takeWhile_dropWhile_append hdigits hrest
    rw [List.cons_append] at hsplit ⊢
    unfold readWhole
    split
    · rename_i heq
      exact absurd (List.cons.inj heq).1 hzero
    · rename_i heq
      obtain ⟨rfl, rfl⟩ := List.cons.inj heq
      rw [if_pos (hdigits _ List.mem_cons_self), hsplit.1, hsplit.2]
    · rename_i heq
      cases heq

/-- A text that begins with a digit begins with no other character. -/
theorem cons_ne_of_isDigit {c d : Char} {cs ds : List Char} (hd : d.isDigit = true)
    (hc : c.isDigit = false) : d :: ds ≠ c :: cs := by
  rintro ⟨⟩
  exact Bool.false_ne_true (hc.symm.trans hd)

theorem readSign_append {sign : List Char} {negative : Bool} (h : ExponentSign sign negative)
    (hds : ∀ c ∈ ds.head?, c.isDigit = true) (hne : ds ≠ []) : readSign (sign ++ ds) = (negative, ds) := by
  cases h with
  | none =>
    obtain ⟨d, r, rfl⟩ := List.exists_cons_of_ne_nil hne
    have hd := hds d rfl
    rw [List.nil_append]
    unfold readSign
    split
    · exact absurd ‹_› (cons_ne_of_isDigit hd rfl)
    · exact absurd ‹_› (cons_ne_of_isDigit hd rfl)
    · rfl
  | plus => rfl
  | minus => rfl

theorem readExponent_append {exponent : Option Int} (h : ExponentText text exponent)
    (hrest : EndsNumber rest) : readExponent (text ++ rest) = (exponent, rest) := by
  cases h with
  | none =>
    cases rest with
    | nil => rfl
    | cons c r =>
      obtain ⟨-, -, hlower, hupper⟩ := hrest c rfl
      simp [readExponent, hlower, hupper]
  | @some e sign ds negative he hsign hne h =>
    have hfirst : ∀ c ∈ (ds ++ rest).head?, c.isDigit = true := by
      obtain ⟨d, r, rfl⟩ := List.exists_cons_of_ne_nil hne
      simpa using h d List.mem_cons_self
    have hhead : ((ds ++ rest).head?.map Char.isDigit).getD false = true := by
      obtain ⟨d, r, rfl⟩ := List.exists_cons_of_ne_nil hne
      simpa using h d List.mem_cons_self
    have hsplit := Text.takeWhile_dropWhile_append h fun c hc => (hrest c hc).1
    have hletter : (e == 'e' || e == 'E') = true := by simpa using he
    rw [List.cons_append, List.append_assoc, readExponent, readSign_append hsign hfirst (by simp [hne])]
    simp only [hletter, hhead, hsplit.1, hsplit.2, Bool.and_self, if_true]

theorem readFraction_append {fraction : Option (List Char)} (h : FractionText text fraction)
    (hrest : ∀ c ∈ rest.head?, c.isDigit = false ∧ c ≠ '.') :
    readFraction (text ++ rest) = (fraction, rest) := by
  cases h with
  | none =>
    rw [List.nil_append]
    unfold readFraction
    split
    · exact absurd rfl (hrest '.' rfl).2
    · rfl
  | @some ds hne h =>
    obtain ⟨d, r, rfl⟩ := List.exists_cons_of_ne_nil hne
    have hsplit := Text.takeWhile_dropWhile_append h fun c hc => (hrest c hc).1
    rw [List.cons_append] at hsplit
    simp only [List.cons_append, readFraction, if_pos (h d List.mem_cons_self), hsplit.1, hsplit.2]

theorem ExponentText.head {exponent : Option Int} (h : ExponentText text exponent) (hrest : EndsNumber rest) :
    ∀ c ∈ (text ++ rest).head?, c.isDigit = false ∧ c ≠ '.' := by
  cases h with
  | none => exact fun c hc => ⟨(hrest c hc).1, (hrest c hc).2.1⟩
  | some he hsign hne h =>
    rintro c hc
    obtain rfl := Option.some.inj hc
    rcases he with rfl | rfl
    · decide
    · decide

theorem FractionText.head {fraction : Option (List Char)} (h : FractionText text fraction)
    (hrest : ∀ c ∈ rest.head?, c.isDigit = false ∧ c ≠ '.') :
    ∀ c ∈ (text ++ rest).head?, c.isDigit = false := by
  cases h with
  | none => exact fun c hc => (hrest c hc).1
  | some hne h =>
    rintro c hc
    obtain rfl := Option.some.inj hc
    decide

end WebMigration.Json
