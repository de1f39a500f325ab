import WebMigration.Proofs.Rewrite.Import
import WebMigration.Proofs.Text.Path

/-!
# The table of modules

A module has the name that its own entry gives to it, or else the entry with the longest key decides whose
stem is a directory above the module.  Other entries make no difference.
-/

namespace WebMigration.Rewrite

open Text

variable {mappings : Table String} {source key value : String}

/-! ### The entries above a module -/

/-- A key whose stem is not empty and has a slash and more behind it in the name of a module. -/
def Serves (key source : String) : Prop :=
  ∃ stem, Bare key stem ∧ stem ≠ "" ∧ startsWith (stem ++ "/") source = true

theorem serves_iff_covers (e : String × String) : Serves e.1 source ↔ covers source e = true := by
  simp only [Serves, covers, stemOf, bare_iff, exists_eq_left', Bool.and_eq_true, Bool.not_eq_true',
    ← Bool.not_eq_true, String.isEmpty_iff, ne_eq]

/-- A key never ends inside a segment of a module that it serves. -/
theorem serves_iff_segments : Serves key source ↔ ∃ stem more, Bare key stem ∧ stem ≠ "" ∧ more ≠ [] ∧
    Path.segments source = Path.segments stem ++ more := by
  constructor
  · rintro ⟨stem, hbare, hne, hstart⟩
    obtain ⟨rest, rfl⟩ := startsWith_iff.1 hstart
    exact ⟨stem, Path.segments rest, hbare, hne, Path.segments_ne_nil rest, Path.segments_append stem rest⟩
  · rintro ⟨stem, more, hbare, hne, hmore, hsegments⟩
    refine ⟨stem, hbare, hne, startsWith_iff.2 ⟨join "/" more, ?_⟩⟩
    rw [← Path.join_segments source, hsegments, Path.join_append (Path.segments_ne_nil stem) hmore,
      Path.join_segments]

/-- The entry that decides on a module without an entry of its own: it has the longest key of those
that serve the module, and it is the first of those with keys of this length. -/
structure Decides (mappings : Table String) (source key value : String) : Prop where
  serves : Serves key source
  longest : ∃ before after, mappings = before ++ (key, value) :: after ∧
    (∀ e ∈ before, Serves e.1 source → e.1.length < key.length) ∧
    ∀ e ∈ after, Serves e.1 source → e.1.length ≤ key.length

theorem mapsTo_iff {target : String} : MapsTo mappings source target ↔
    mappings.get? source = some target ∨ mappings.get? source = none ∧
      ∃ key value stem bare rest, Decides mappings source key value ∧ Bare key stem ∧ Bare value bare ∧
        source = stem ++ rest ∧ target = bare ++ rest := by
  have hserves (e : String × String) : (∃ rest, Covers e.1 source rest) ↔ Serves e.1 source := by
    rw [serves_iff_covers, covers_iff]
  constructor
  · rintro (h | ⟨hno, hmappings, hcovers, hbefore, hafter⟩)
    · exact .inl h
    · rename_i before key value rest after
      simp only [hserves] at hbefore hafter
      exact .inr ⟨hno, key, value, stemOf key, withoutTrailingSlashes value, rest,
        ⟨(hserves (key, value)).1 ⟨rest, hcovers⟩, before, after, hmappings, hbefore, hafter⟩,
        bare_withoutTrailingSlashes key, bare_withoutTrailingSlashes value, hcovers.2.1, rfl⟩
  · rintro (h | ⟨hno, key, value, stem, bare, rest, ⟨hserved, before, after, hmappings, hbefore, hafter⟩,
      hstem, hbare, hsource, rfl⟩)
    · exact .exact h
    · simp only [← hserves] at hbefore hafter
      obtain ⟨rest', hcovers⟩ := (hserves (key, value)).2 hserved
      have hrest : rest' = rest := by
        have hname := hcovers.2.1.symm.trans hsource
        rw [stemOf, bare_iff.1 hstem] at hname
        exact (String.append_right_inj stem).1 hname
      rw [← bare_iff.1 hbare]
      exact .covered hno hmappings (hrest ▸ hcovers) hbefore hafter

/-! ### Modules without an entry -/

theorem foldl_longerKey_some (entries : List (String × String)) (best : String × String) :
    ∃ e, entries.foldl longerKey (some best) = some e := by
  induction entries generalizing best with
  | nil => exact ⟨best, rfl⟩
  | cons a rest ih =>
    rw [List.foldl_cons, longerKey]
    split
    · exact ih a
    · exact ih best

theorem mapModule_eq_none_iff : mapModule source mappings = none ↔
    mappings.get? source = none ∧ ∀ e ∈ mappings, ¬ Serves e.1 source := by
  unfold mapModule
  cases mappings.get? source with
  | some target => simp
  | none =>
    simp only [serves_iff_covers, true_and, Option.map_eq_none_iff]
    cases hserving : mappings.filter (covers source) with
    | nil => simpa [List.filter_eq_nil_iff] using hserving
    | cons a rest =>
      obtain ⟨e, he⟩ := foldl_longerKey_some rest a
      have ha : a ∈ mappings.filter (covers source) := hserving ▸ List.mem_cons_self
      rw [List.foldl_cons, longerKey, he]
      simp only [reduceCtorEq, false_iff]
      intro hnone
      exact hnone a (List.mem_filter.1 ha).1 (List.mem_filter.1 ha).2

/-! ### Entries that make no difference -/

/-- A table is only asked for the entry of a module and for the entries that serve it. -/
theorem mapModule_congr {other : Table String} (hown : mappings.get? source = other.get? source)
    (hserving : mappings.filter (covers source) = other.filter (covers source)) :
    mapModule source mappings = mapModule source other := by
  rw [mapModule, mapModule, hown, hserving]

theorem mapModule_insert {before after : Table String} (hne : key ≠ source) (hno : ¬ Serves key source) :
    mapModule source (before ++ (key, value) :: after) = mapModule source (before ++ after) := by
  rw [serves_iff_covers (key, value)] at hno
  apply mapModule_congr
  · rw [Table.get?_append, Table.get?_append, Table.get?_cons, if_neg hne]
  · rw [List.filter_append, List.filter_append, List.filter_cons_of_neg hno]

theorem mapModule_put (hne : key ≠ source) (hno : ¬ Serves key source) :
    mapModule source (mappings.put key value) = mapModule source mappings := by
  apply mapModule_congr (Table.get?_put_of_ne mappings value hne)
  apply Table.filter_put
  intro b
  rwa [serves_iff_covers (key, b), Bool.not_eq_true] at hno

/-! ### The law -/

/-- A module has the name of its own entry.  Without one it keeps its name exactly if no entry serves it,
and else the entry that decides puts its value in place of the stem of its key.  An entry serves only
modules that have whole segments below its stem, and entries that neither belong to a module nor serve it
may come and go. -/
theorem mapModule_longestEntry (source : String) (mappings : Table String) :
    (∀ target, mapModule source mappings = some target ↔
      mappings.get? source = some target ∨ mappings.get? source = none ∧
        ∃ key value stem bare rest, Decides mappings source key value ∧ Bare key stem ∧ Bare value bare ∧
          source = stem ++ rest ∧ target = bare ++ rest) ∧
    (mapModule source mappings = none ↔
      mappings.get? source = none ∧ ∀ e ∈ mappings, ¬ Serves e.1 source) ∧
    (∀ key, Serves key source ↔ ∃ stem more, Bare key stem ∧ stem ≠ "" ∧ more ≠ [] ∧
      Path.segments source = Path.segments stem ++ more) ∧
    ∀ key value, key ≠ source → ¬ Serves key source →
      mapModule source (mappings.put key value) = mapModule source mappings ∧
      ∀ before after, mappings = before ++ after →
        mapModule source (before ++ (key, value) :: after) = mapModule source mappings := by
  refine ⟨?_, mapModule_eq_none_iff, fun key => serves_iff_segments, ?_⟩
  · intro target
    rw [mapModule_eq_some_iff, mapsTo_iff]
  · intro key value hne hno
    refine ⟨mapModule_put hne hno, ?_⟩
    rintro before after rfl
    exact mapModule_insert hne hno

/-- A key that is the module with a slash behind it serves only what is below the module, and a key that
ends inside a segment serves nothing there. -/
example : mapModule "lodash/fp" [("lodash", "lodash-es"), ("lodash/fp/", "fp-ts/")] = some "lodash-es/fp" ∧
    mapModule "lodash-es" [("lodash", "ramda")] = none := by
  decide +kernel

end WebMigration.Rewrite
