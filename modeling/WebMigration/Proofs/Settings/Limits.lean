import WebMigration.Settings.Basic

/-!
# Limits of accepted settings

A decoder that accepts a value vouches for it.  What is needed later is that the confidences of
accepted settings are from 0 to 100.
-/

namespace WebMigration

namespace Decoder

variable {α β : Type}

/-- A record is read when its parts are. -/
theorem seq_ok {f : Fields (α → β)} {a : Fields α} {fields : List (String × Json)} {b : β} :
    (f <*> a) fields = .ok b ↔ ∃ g x, f fields = .ok g ∧ a fields = .ok x ∧ g x = b := by
  show Decoded.apply (f fields) (a fields) = .ok b ↔ _
  rcases f fields with ps | g <;> rcases a fields with qs | x <;> simp [Decoded.apply]

theorem map_ok {f : α → β} {a : Fields α} {fields : List (String × Json)} {b : β} :
    (f <$> a) fields = .ok b ↔ ∃ x, a fields = .ok x ∧ f x = b := by
  show Decoded.apply (.ok f) (a fields) = .ok b ↔ _
  rcases a fields with qs | x <;> simp [Decoded.apply]

/-- What is read by the fields of a record is read from a record. -/
theorem model_ok {fields : Fields α} {v : Json} {a : α} (h : model fields v = .ok a) :
    ∃ fs, v = .record fs ∧ fields fs = .ok a := by
  unfold model at h
  split at h
  · exact ⟨_, rfl, h⟩
  · cases h

/-- A field has what its default has and what every value has that is read for it. -/
theorem field_ok {P : α → Prop} {spellings : List String} {default a : α} {item : Decoder α}
    {fields : List (String × Json)} (hd : P default) (hi : ∀ v x, item v = .ok x → P x)
    (h : field spellings default item fields = .ok a) : P a := by
  unfold field at h
  split at h
  · rename_i name v _
    rcases hv : item v with ps | x
    · rw [hv] at h
      cases h
    · rw [hv] at h
      obtain rfl := Except.ok.inj h
      exact hi v _ hv
  · cases h
    exact hd

/-- A number that is read with an upper bound is within it. -/
theorem atMost_ok {high n : Int} {item : Decoder Int} {v : Json} (h : atMost high item v = .ok n) :
    n ≤ high := by
  unfold atMost at h
  rcases hv : item v with ps | m
  · rw [hv] at h
    cases h
  · rw [hv] at h
    simp only [bind, Except.bind] at h
    split at h
    · cases h
    · obtain rfl := Except.ok.inj h
      omega

end Decoder

namespace Settings

open Decoder

theorem percentage_le {v : Json} {n : Nat} (h : percentage v = .ok n) : n ≤ 100 := by
  unfold percentage at h
  rcases hv : atMost 100 (atLeast 0 integer) v with ps | m
  · rw [hv] at h
    cases h
  · rw [hv] at h
    obtain rfl := Except.ok.inj h
    have := atMost_ok hv
    dsimp only
    omega

theorem percentageField_le {spellings : List String} {default n : Nat}
    {fields : List (String × Json)} (hd : default ≤ 100)
    (h : field spellings default percentage fields = .ok n) : n ≤ 100 :=
  field_ok (P := (· ≤ 100)) hd (fun _ _ => percentage_le) h

end Settings

namespace ScoringSettings

open Decoder

/-- The confidences are from 0 to 100. -/
structure InRange (s : ScoringSettings) : Prop where
  reviewThreshold : s.reviewThreshold ≤ 100
  skippedConfidence : s.skippedConfidence ≤ 100
  failedConfidence : s.failedConfidence ≤ 100

theorem inRange_default : InRange {} := ⟨by decide, by decide, by decide⟩

theorem decode_inRange {v : Json} {s : ScoringSettings} (h : decode v = .ok s) : s.InRange := by
  obtain ⟨fields, -, h₀⟩ := model_ok h
  obtain ⟨g₁, failed, h₁, hf, rfl⟩ := seq_ok.1 h₀
  obtain ⟨g₂, skipped, h₂, hs, rfl⟩ := seq_ok.1 h₁
  obtain ⟨threshold, ht, rfl⟩ := map_ok.1 h₂
  exact ⟨Settings.percentageField_le (by decide) ht, Settings.percentageField_le (by decide) hs,
    Settings.percentageField_le (by decide) hf⟩

end ScoringSettings

/-- Accepted settings have confidences from 0 to 100. -/
theorem Settings.inRange_of_ofDocument {document : Json} {s : Settings}
    (h : Settings.ofDocument document = .ok s) : s.scoring.InRange := by
  unfold Settings.ofDocument Settings.accept at h
  split at h
  · rename_i s' hs
    obtain rfl := Except.ok.inj h
    obtain ⟨fields, -, h₀⟩ := Decoder.model_ok hs
    obtain ⟨g₁, semantic, h₁, -, rfl⟩ := Decoder.seq_ok.1 h₀
    obtain ⟨g₂, backup, h₂, -, rfl⟩ := Decoder.seq_ok.1 h₁
    obtain ⟨g₃, scoring, h₃, hscoring, rfl⟩ := Decoder.seq_ok.1 h₂
    obtain ⟨g₄, equivalence, h₄, -, rfl⟩ := Decoder.seq_ok.1 h₃
    obtain ⟨g₅, recovery, h₅, -, rfl⟩ := Decoder.seq_ok.1 h₄
    obtain ⟨g₆, batch, h₆, -, rfl⟩ := Decoder.seq_ok.1 h₅
    obtain ⟨level, -, rfl⟩ := Decoder.map_ok.1 h₆
    exact Decoder.field_ok ScoringSettings.inRange_default
      (fun _ _ => ScoringSettings.decode_inRange) hscoring
  · cases h

end WebMigration
