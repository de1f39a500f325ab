import WebMigration.Text.Basic

/-!
# Keys of names

The key of a name, that is the letters and numerals of its lower case, is its own key: no character
of a lower case has another lower case.
-/

namespace WebMigration.Text

/-- A character that stays as it is in lower case, wherever it stands. -/
def IsSettled (c : Char) : Prop := lowerChar c = [c] ∧ c ≠ '\u03a3'

/-- A code point whose character stays as it is in lower case. -/
def settlesAt (n : Nat) : Bool :=
  if n < 0x80 then n < 65 || 90 < n
  else n != 0x130 && n != 0x3a3 && (casePartner? lowerRuns n).isNone

/-! ### The table of case pairs -/

/-- The code points of a run. -/
def CaseRun.codes (r : CaseRun) : List Nat :=
  ((List.range (r.last - r.first + 1)).filter (· % r.step == 0)).map (r.first + ·)

/-- The partner of a code point of a run. -/
def CaseRun.partner (r : CaseRun) (n : Nat) : Nat := ((n : Int) + r.distance).toNat

/-- The number whose bits are set at some places. -/
def bits (places : List Nat) : Nat := places.foldl (fun b n => b ||| 1 <<< n) 0

theorem testBit_bits {places : List Nat} {n : Nat} (h : n ∈ places) : (bits places).testBit n = true := by
  suffices ∀ b : Nat, (b.testBit n = true ∨ n ∈ places) →
      (places.foldl (fun b n => b ||| 1 <<< n) b).testBit n = true from this 0 (.inr h)
  clear h
  induction places with
  | nil => simp
  | cons m rest ih =>
    intro b hb
    rw [List.foldl_cons]
    apply ih
    rw [Nat.testBit_or, Nat.one_shiftLeft, Nat.testBit_two_pow]
    rcases hb with hb | hb
    · simp [hb]
    · rcases List.mem_cons.1 hb with rfl | hb
      · simp
      · exact .inr hb

/-- No partner has a partner itself.  The two sets are compared as numbers, bit by bit. -/
theorem partners_disjoint : bits (lowerRuns.flatMap CaseRun.codes) &&&
    bits (lowerRuns.flatMap fun r => r.codes.map r.partner) = 0 := by
  decide +kernel

theorem partners_settle_apart : ∀ n ∈ lowerRuns.flatMap (fun r => r.codes.map r.partner),
    if n < 0x80 then n < 65 ∨ 90 < n else n ≠ 0x130 ∧ n ≠ 0x3a3 := by
  decide +kernel

/-- A code point with a partner is one of a run, and so is the partner one of its partners. -/
theorem exists_run_of_casePartner? {runs : List CaseRun} {n m : Nat} (h : casePartner? runs n = some m) :
    ∃ r ∈ runs, n ∈ r.codes ∧ m = r.partner n := by
  unfold casePartner? at h
  obtain ⟨r, hfound, rfl⟩ := Option.map_eq_some_iff.1 h
  have hin := List.find?_some hfound
  simp only [Bool.and_eq_true, decide_eq_true_eq, beq_iff_eq] at hin
  obtain ⟨⟨hfirst, hlast⟩, hstep⟩ := hin
  refine ⟨r, List.mem_of_find?_eq_some hfound, List.mem_map.2 ⟨n - r.first, ?_, ?_⟩, rfl⟩
  · rw [List.mem_filter, List.mem_range, beq_iff_eq]
    exact ⟨by omega, hstep⟩
  · rw [Nat.add_sub_cancel' hfirst]

theorem settlesAt_of_casePartner? {n m : Nat} (h : casePartner? lowerRuns n = some m) :
    settlesAt m = true := by
  obtain ⟨r, hr, hn, rfl⟩ := exists_run_of_casePartner? h
  have hpartner : r.partner n ∈ lowerRuns.flatMap fun r => r.codes.map r.partner :=
    List.mem_flatMap.2 ⟨r, hr, List.mem_map_of_mem hn⟩
  have hnone : casePartner? lowerRuns (r.partner n) = none := by
    rw [Option.eq_none_iff_forall_ne_some]
    intro k hk
    obtain ⟨q, hq, hcode, -⟩ := exists_run_of_casePartner? hk
    have hboth : (0 : Nat).testBit (r.partner n) = true := by
      rw [← partners_disjoint, Nat.testBit_and, testBit_bits hpartner,
        testBit_bits (List.mem_flatMap.2 ⟨q, hq, hcode⟩)]
      rfl
    rw [Nat.zero_testBit] at hboth
    cases hboth
  have hapart := partners_settle_apart _ hpartner
  unfold settlesAt
  by_cases hascii : r.partner n < 0x80
  · rw [if_pos hascii] at hapart ⊢
    simpa using hapart
  · rw [if_neg hascii] at hapart ⊢
    simpa [hnone] using hapart

/-! ### Characters and texts -/

theorem ascii_settles : ∀ n < 0x80, lowerChar (Char.ofNat n) = [(Char.ofNat n).toLower] ∧
    settlesAt (Char.ofNat n).toLower.toNat = true ∧
      (settlesAt n = true → (Char.ofNat n).toLower = Char.ofNat n) := by
  decide +kernel

theorem isSettled_of_settlesAt {c : Char} (h : settlesAt c.toNat = true) : IsSettled c := by
  by_cases hascii : c.toNat < 0x80
  · have hlower := ascii_settles c.toNat hascii
    rw [Char.ofNat_toNat] at hlower
    refine ⟨by rw [hlower.1, hlower.2.2 h], ?_⟩
    rintro rfl
    exact absurd hascii (by decide)
  · rw [settlesAt, if_neg hascii] at h
    simp only [Bool.and_eq_true, bne_iff_ne, Option.isNone_iff_eq_none] at h
    obtain ⟨⟨hdotted, hsigma⟩, hpartner⟩ := h
    refine ⟨?_, fun hc => hsigma (congrArg Char.toNat hc)⟩
    have hne : ¬(c == '\u0130') = true := fun hc => hdotted (congrArg Char.toNat (eq_of_beq hc))
    rw [lowerChar, if_neg hascii, if_neg hne, hpartner]
    rfl

/-- The lower case of a character other than the sigma is settled. -/
theorem isSettled_of_mem_lowerChar {c d : Char} (hc : c ≠ '\u03a3') (hd : d ∈ lowerChar c) :
    IsSettled d := by
  apply isSettled_of_settlesAt
  by_cases hascii : c.toNat < 0x80
  · have hlower := ascii_settles c.toNat hascii
    rw [Char.ofNat_toNat] at hlower
    rw [hlower.1, List.mem_singleton] at hd
    rw [hd]
    exact hlower.2.1
  · by_cases hdotted : c = '\u0130'
    · have hall : ((lowerChar '\u0130').all fun d => settlesAt d.toNat) = true := by decide +kernel
      rw [hdotted] at hd
      exact List.all_eq_true.1 hall d hd
    · rw [lowerChar, if_neg hascii, if_neg (by simpa using hdotted), List.mem_singleton] at hd
      subst hd
      rcases hpartner : casePartner? lowerRuns c.toNat with _ | m
      · have hnumbers : c.toNat ≠ 0x130 ∧ c.toNat ≠ 0x3a3 := by
          constructor <;> intro hn <;> rw [← Char.ofNat_toNat c, hn] at hdotted hc
          · exact hdotted rfl
          · exact hc rfl
        show settlesAt c.toNat = true
        rw [settlesAt, if_neg hascii, hpartner]
        simpa using hnumbers
      · have hsettles := settlesAt_of_casePartner? hpartner
        show settlesAt (Char.ofNat m).toNat = true
        -- A number that is no code point stands for the character zero.
        by_cases hvalid : m.isValidChar
        · rwa [Char.ofNat, dif_pos hvalid]
        · rw [Char.ofNat, dif_neg hvalid]
          rfl

theorem isSettled_of_mem_lowerFrom {before cs : List Char} :
    ∀ d ∈ lowerFrom before cs, IsSettled d := by
  induction cs generalizing before with
  | nil =>
    intro d hd
    cases hd
  | cons c rest ih =>
    intro d hd
    rw [lowerFrom] at hd
    by_cases hc : c = '\u03a3'
    · rw [if_pos (by simpa using hc)] at hd
      rcases List.mem_cons.1 hd with rfl | hd
      · apply isSettled_of_settlesAt
        split <;> decide +kernel
      · exact ih d hd
    · rw [if_neg (by simpa using hc)] at hd
      rcases List.mem_append.1 hd with hd | hd
      · exact isSettled_of_mem_lowerChar hc hd
      · exact ih d hd

/-- A text of settled characters is its own lower case. -/
theorem lowerFrom_eq_self {before cs : List Char} (h : ∀ c ∈ cs, IsSettled c) :
    lowerFrom before cs = cs := by
  induction cs generalizing before with
  | nil => rfl
  | cons c rest ih =>
    obtain ⟨⟨hlower, hsigma⟩, hrest⟩ := List.forall_mem_cons.1 h
    rw [lowerFrom, if_neg (by simpa using hsigma), hlower, ih hrest]
    rfl

/-- **A key is its own key.** -/
theorem normalizedKey_normalizedKey (s : String) :
    normalizedKey (normalizedKey s) = normalizedKey s := by
  have hsettled : ∀ c ∈ (lowerFrom [] s.toList).filter isAlphanumeric, IsSettled c := fun c hc =>
    isSettled_of_mem_lowerFrom c (List.mem_filter.1 hc).1
  unfold normalizedKey lower
  simp only [String.toList_ofList]
  rw [lowerFrom_eq_self hsettled, List.filter_filter]
  simp only [Bool.and_self]

end WebMigration.Text
