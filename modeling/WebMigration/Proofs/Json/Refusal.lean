import Mathlib.Data.List.TakeWhile
import WebMigration.Json.Parser

/-!
# Numbers that are too long

What a reader leaves is the end of the text that it was given.  A text whose reading stops at a whole
number of too many digits has a run of so many digits in it.
-/

namespace WebMigration.Json

variable {α β : Type} {cs cs' rest ds : List Char} {digits fuel : Nat}

/-- A run of digits that is too long for a whole number. -/
def HasRun (digits : Nat) (cs : List Char) : Prop :=
  digitLimit < digits ∧ ∃ ds, ds <:+: cs ∧ ds.length = digits ∧ ∀ c ∈ ds, c.isDigit = true

theorem HasRun.mono (h : HasRun digits cs) (hcs : cs <:+: cs') : HasRun digits cs' := by
  obtain ⟨hlimit, ds, hds, hlength, hdigits⟩ := h
  exact ⟨hlimit, ds, hds.trans hcs, hlength, hdigits⟩

/-- A reading leaves the end of the text, or stops at a number in it that is too long. -/
def Faithful (cs : List Char) : Except Misreading (α × List Char) → Prop
  | .ok (_, rest) => rest <:+ cs
  | .error .malformed => True
  | .error (.oversized digits) => HasRun digits cs

namespace Faithful

variable {r : Except Misreading (α × List Char)}

theorem mono (h : Faithful cs r) (hcs : cs <:+ cs') : Faithful cs' r := by
  match r, h with
  | .ok _, h => exact List.IsSuffix.trans h hcs
  | .error .malformed, _ => trivial
  | .error (.oversized _), h => exact HasRun.mono h hcs.isInfix

theorem bind {f : α × List Char → Except Misreading (β × List Char)} (h : Faithful cs r)
    (hf : ∀ a rest, rest <:+ cs → Faithful cs (f (a, rest))) : Faithful cs (r >>= f) := by
  match r, h with
  | .ok found, h => exact hf found.1 found.2 h
  | .error .malformed, _ => trivial
  | .error (.oversized _), h => exact h

theorem map {f : α → β} (h : Faithful cs r) :
    Faithful cs (r.map fun (a, rest) => (f a, rest)) := by
  match r, h with
  | .ok _, h => exact h
  | .error .malformed, _ => trivial
  | .error (.oversized _), h => exact h

theorem orMalformed {found : Option (α × List Char)} (h : ∀ a rest, found = some (a, rest) → rest <:+ cs) :
    Faithful cs (orMalformed found) := by
  cases found with
  | none => trivial
  | some found => exact h found.1 found.2 rfl

end Faithful

theorem skipBlanks_suffix (cs : List Char) : skipBlanks cs <:+ cs := List.dropWhile_suffix _

theorem suffix_of_skipBlanks {c : Char} {r : List Char} (h : skipBlanks rest = c :: r)
    (hrest : rest <:+ cs) : r <:+ cs := by
  have hr : c :: r <:+ rest := h ▸ skipBlanks_suffix rest
  exact (List.suffix_cons c r).trans (hr.trans hrest)

/-! ### Strings -/

theorem joinedHalves?_suffix {high : Nat} {c : Char} (h : joinedHalves? high cs = some (c, rest)) :
    rest <:+ cs := by
  unfold joinedHalves? at h
  split at h
  · obtain ⟨low, -, hlow⟩ := Option.bind_eq_some_iff.1 h
    obtain ⟨d, -, hd⟩ := Option.map_eq_some_iff.1 hlow
    cases hd
    exact List.suffix_append [_, _, _, _, _, _] _
  · cases h

theorem readUnit_suffix {c : Char} (h : readUnit cs = some (c, rest)) : rest <:+ cs := by
  unfold readUnit at h
  split at h
  · rename_i d₁ d₂ d₃ d₄ r
    obtain ⟨unit, -, hunit⟩ := Option.map_eq_some_iff.1 h
    have hr : r <:+ d₁ :: d₂ :: d₃ :: d₄ :: r := List.suffix_append [_, _, _, _] r
    cases hpair : joinedHalves? unit r with
    | none =>
      rw [hpair] at hunit
      cases hunit
      exact hr
    | some found =>
      rw [hpair] at hunit
      cases hunit
      exact (joinedHalves?_suffix hpair).trans hr
  · cases h

theorem readChar_suffix {c : Char} (h : readChar cs = some (c, rest)) : rest <:+ cs := by
  unfold readChar at h
  split at h
  · refine List.IsSuffix.trans ?_ (List.suffix_cons _ _)
    unfold readEscape at h
    split at h
    · exact (readUnit_suffix h).trans (List.suffix_cons _ _)
    · obtain ⟨d, -, hd⟩ := Option.map_eq_some_iff.1 h
      cases hd
      exact List.suffix_cons _ _
    · cases h
  · split at h
    · cases h
    · cases h
      exact List.suffix_cons _ _
  · cases h

theorem readStringUpTo_suffix {s : List Char} (h : readStringUpTo fuel cs = some (s, rest)) :
    rest <:+ cs := by
  induction fuel generalizing cs s with
  | zero => cases h
  | succ fuel ih =>
    unfold readStringUpTo at h
    split at h
    · cases h
      exact List.suffix_cons _ _
    · obtain ⟨⟨c, r⟩, hchar, h⟩ := Option.bind_eq_some_iff.1 h
      obtain ⟨⟨others, r'⟩, hothers, h⟩ := Option.bind_eq_some_iff.1 h
      cases h
      exact (ih hothers).trans (readChar_suffix hchar)

theorem readString_suffix {s : String} (h : readString cs = some (s, rest)) : rest <:+ cs := by
  obtain ⟨found, hfound, heq⟩ := Option.map_eq_some_iff.1 h
  cases heq
  exact readStringUpTo_suffix hfound

/-! ### Numbers and words -/

theorem readWhole_spec (h : readWhole cs = some (ds, rest)) :
    cs = ds ++ rest ∧ ∀ c ∈ ds, c.isDigit = true := by
  unfold readWhole at h
  split at h
  · cases h
    exact ⟨rfl, List.forall_mem_singleton.2 rfl⟩
  · split at h
    · cases h
      exact ⟨List.takeWhile_append_dropWhile.symm, fun c hc => List.mem_takeWhile_imp hc⟩
    · cases h
  · cases h

theorem readFraction_suffix (cs : List Char) : (readFraction cs).2 <:+ cs := by
  unfold readFraction
  split
  · split
    · exact (List.dropWhile_suffix _).trans (List.suffix_cons _ _)
    · exact List.suffix_rfl
  · exact List.suffix_rfl

theorem readSign_suffix (cs : List Char) : (readSign cs).2 <:+ cs := by
  unfold readSign
  split
  · exact List.suffix_cons _ _
  · exact List.suffix_cons _ _
  · exact List.suffix_rfl

theorem readExponent_suffix (cs : List Char) : (readExponent cs).2 <:+ cs := by
  unfold readExponent
  split
  · dsimp only
    split
    · exact ((List.dropWhile_suffix _).trans (readSign_suffix _)).trans (List.suffix_cons _ _)
    · exact List.suffix_rfl
  · exact List.suffix_rfl

theorem hasRun_of_numeral {negative : Bool} {fraction : Option (List Char)} {exponent : Option Int}
    (h : numeral negative ds fraction exponent = .error (.oversized digits))
    (hdigits : ∀ c ∈ ds, c.isDigit = true) : HasRun digits ds := by
  unfold numeral at h
  split at h
  · dsimp only at h
    split at h
    · rename_i hlimit
      cases h
      exact ⟨hlimit, ds, List.infix_rfl, rfl, hdigits⟩
    · cases h
  · cases h

/-- A number whose whole part is read is what its parts come to. -/
theorem readUnsigned_eq {negative : Bool} (h : readWhole cs = some (ds, rest)) :
    readUnsigned negative cs =
      (numeral negative ds (readFraction rest).1 (readExponent (readFraction rest).2).1).map
        fun v => (v, (readExponent (readFraction rest).2).2) := by
  simp only [readUnsigned, h, orMalformed]
  cases hnumeral : numeral negative ds (readFraction rest).1 (readExponent (readFraction rest).2).1 <;>
    simp [bind, Except.bind, hnumeral, Except.map, pure, Except.pure]

theorem faithful_readUnsigned (negative : Bool) (cs : List Char) :
    Faithful cs (readUnsigned negative cs) := by
  cases hwhole : readWhole cs with
  | none =>
    have hnone : readUnsigned negative cs = .error .malformed := by
      simp only [readUnsigned, hwhole, orMalformed]
      rfl
    rw [hnone]
    trivial
  | some found =>
    obtain ⟨ds, r⟩ := found
    obtain ⟨rfl, hdigits⟩ := readWhole_spec hwhole
    rw [readUnsigned_eq hwhole]
    cases hnumeral : numeral negative ds (readFraction r).1 (readExponent (readFraction r).2).1 with
    | ok v =>
      show (readExponent (readFraction r).2).2 <:+ ds ++ r
      exact (readExponent_suffix _).trans ((readFraction_suffix r).trans (List.suffix_append _ _))
    | error e =>
      cases e with
      | malformed => trivial
      | oversized digits =>
        exact (hasRun_of_numeral hnumeral hdigits).mono (List.prefix_append _ _).isInfix

theorem readWord_suffix {v : Json} (h : readWord cs = some (v, rest)) : rest <:+ cs := by
  obtain ⟨word, -, hword⟩ := Option.map_eq_some_iff.1 h
  cases hword
  exact List.drop_suffix _ _

/-! ### Values -/

mutual

theorem faithful_readValue (fuel : Nat) (cs : List Char) : Faithful cs (readValue fuel cs) := by
  match fuel with
  | 0 => trivial
  | fuel + 1 =>
    unfold readValue
    split
    · exact .map (.orMalformed fun s rest h => (readString_suffix h).trans (List.suffix_cons _ _))
    · rename_i r
      split
      · rename_i rest hskip
        exact suffix_of_skipBlanks hskip (List.suffix_cons _ r)
      · exact .map ((faithful_readItems fuel _).mono ((skipBlanks_suffix r).trans (List.suffix_cons _ r)))
    · rename_i r
      split
      · rename_i rest hskip
        exact suffix_of_skipBlanks hskip (List.suffix_cons _ r)
      · exact .map (f := fun fs => record (distinct fs))
          ((faithful_readFields fuel _).mono ((skipBlanks_suffix r).trans (List.suffix_cons _ r)))
    · split
      · rename_i found hword
        exact readWord_suffix hword
      · exact (faithful_readUnsigned true _).mono (List.suffix_cons _ _)
    · split
      · rename_i found hword
        exact readWord_suffix hword
      · exact faithful_readUnsigned false _

theorem faithful_readItems (fuel : Nat) (cs : List Char) : Faithful cs (readItems fuel cs) := by
  match fuel with
  | 0 => trivial
  | fuel + 1 =>
    unfold readItems
    refine .bind (faithful_readValue fuel cs) fun v rest hrest => ?_
    dsimp only
    split
    · rename_i r hskip
      have hr : skipBlanks r <:+ cs := (skipBlanks_suffix r).trans (suffix_of_skipBlanks hskip hrest)
      exact .bind ((faithful_readItems fuel _).mono hr) fun vs rest hvs => hvs
    · rename_i r hskip
      exact suffix_of_skipBlanks hskip hrest
    · trivial

theorem faithful_readFields (fuel : Nat) (cs : List Char) : Faithful cs (readFields fuel cs) := by
  match fuel with
  | 0 => trivial
  | fuel + 1 =>
    unfold readFields
    split
    · rename_i r
      refine .bind (.orMalformed fun s rest h => (readString_suffix h).trans (List.suffix_cons _ _))
        fun name rest hname => ?_
      dsimp only
      split
      · rename_i r' hcolon
        have hr' : skipBlanks r' <:+ '"' :: r :=
          (skipBlanks_suffix r').trans (suffix_of_skipBlanks hcolon hname)
        refine .bind ((faithful_readValue fuel _).mono hr') fun v rest hrest => ?_
        dsimp only
        split
        · rename_i r'' hskip
          have hr'' : skipBlanks r'' <:+ '"' :: r :=
            (skipBlanks_suffix r'').trans (suffix_of_skipBlanks hskip hrest)
          exact .bind ((faithful_readFields fuel _).mono hr'') fun fs rest hfs => hfs
        · rename_i r'' hskip
          exact suffix_of_skipBlanks hskip hrest
        · trivial
      · trivial
    · trivial

end

/-- A text whose reading stops at a number that is too long holds it. -/
theorem hasRun_of_parse {s : String} (h : parse s = .error (.oversized digits)) :
    HasRun digits s.toList := by
  have hfaithful := (faithful_readValue (s.toList.length + 1) (skipBlanks s.toList)).mono
    (skipBlanks_suffix s.toList)
  unfold parse at h
  cases hread : readValue (s.toList.length + 1) (skipBlanks s.toList) with
  | ok found =>
    simp only [hread, Bind.bind, Except.bind] at h
    split at h
    · cases h
    · cases h
  | error e =>
    rw [hread] at hfaithful
    simp only [hread, Bind.bind, Except.bind, Except.error.injEq] at h
    rwa [h] at hfaithful

end WebMigration.Json
