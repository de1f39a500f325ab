import Mathlib.Algebra.Order.BigOperators.Group.List
import Mathlib.Algebra.Order.Ring.Nat
import WebMigration.Module.Source
import WebMigration.Proofs.Text.Path
import WebMigration.Validation.Leftover

/-!
# Imports that do not belong to the target

A file may import what lies beside it, what stands behind an abbreviation of the target, and the modules
of the target; every other module is foreign.  Modules of the old framework are always reported.  A
foreign module is reported unless its name starts with the characters of an abbreviation, or with a dot:
where an abbreviation ends in a name is not looked at.
-/

namespace WebMigration.Validation

open Text
open WebMigration.Module (Reference Source)

variable {source target : FrameworkProfile} {name : String}

/-! ### Which modules belong to the target -/

/-- A module name is a path from the file that imports it. -/
def IsRelative (name : String) : Prop := ∃ first ∈ (Path.segments name).head?, first = "." ∨ first = ".."

/-- A module name is an abbreviation of the target or a path below one. -/
def IsAbbreviated (target : FrameworkProfile) (name : String) : Prop :=
  ∃ e ∈ target.pathAliases, name = e.2 ∨ startsWith (e.2 ++ "/") name = true

/-- A module lies neither beside the file nor behind an abbreviation, and the target does not accept it. -/
structure IsForeign (target : FrameworkProfile) (name : String) : Prop where
  relative : ¬IsRelative name
  root : startsWith "@/" name = false
  abbreviated : ¬IsAbbreviated target name
  valid : ∀ start ∈ target.validImports, startsWith start name = false

/-- A module belongs to the old framework. -/
def IsLegacy (source : FrameworkProfile) (name : String) : Prop :=
  ∃ start ∈ source.legacyPackages, startsWith start name = true

/-- A module name looks as if it belonged to the repository: it starts with a dot, or with the characters
of an abbreviation wherever this ends. -/
def LooksOwn (target : FrameworkProfile) (name : String) : Prop :=
  startsWith "." name = true ∨ ∃ e ∈ target.pathAliases, startsWith e.2 name = true

instance : Decidable (IsRelative name) := by unfold IsRelative; infer_instance

instance : Decidable (IsAbbreviated target name) := by unfold IsAbbreviated; infer_instance

instance : Decidable (IsForeign target name) :=
  decidable_of_iff (¬IsRelative name ∧ startsWith "@/" name = false ∧ ¬IsAbbreviated target name ∧
      ∀ start ∈ target.validImports, startsWith start name = false)
    ⟨fun ⟨h, h', h'', h'''⟩ => ⟨h, h', h'', h'''⟩, fun h => ⟨h.relative, h.root, h.abbreviated, h.valid⟩⟩

instance : Decidable (IsLegacy source name) := by unfold IsLegacy; infer_instance

instance : Decidable (LooksOwn target name) := by unfold LooksOwn; infer_instance

theorem startsWith_dot_of_isRelative (h : IsRelative name) : startsWith "." name = true := by
  obtain ⟨first, hfirst, hdots⟩ := h
  obtain ⟨rest, hrest⟩ := List.head?_eq_some_iff.1 hfirst
  obtain ⟨more, hmore⟩ := Path.exists_join_cons first rest
  rw [startsWith_iff, ← Path.join_segments name, hrest, hmore]
  rcases hdots with rfl | rfl
  · exact ⟨more, rfl⟩
  · exact ⟨"." ++ more, by rw [← String.append_assoc]; rfl⟩

theorem looksOwn_of_isAbbreviated (h : IsAbbreviated target name) : LooksOwn target name := by
  obtain ⟨e, he, hname⟩ := h
  refine .inr ⟨e, he, ?_⟩
  rcases hname with rfl | hname
  · exact startsWith_iff.2 ⟨"", (String.append_empty).symm⟩
  · obtain ⟨rest, rfl⟩ := startsWith_iff.1 hname
    exact startsWith_iff.2 ⟨"/" ++ rest, by rw [String.append_assoc]⟩

/-- What is not accepted is foreign and does not look as if it belonged to the repository. -/
theorem isAccepted_eq_false_iff (hvalid : target.validImports ≠ []) :
    isAccepted target name = false ↔ IsForeign target name ∧ ¬LooksOwn target name := by
  have hown : isOwn target name = false ↔ startsWith "@/" name = false ∧ ¬LooksOwn target name := by
    simp only [isOwn, startsWithAny, LooksOwn, List.any_cons, List.any_map, Bool.or_eq_false_iff,
      List.any_eq_false, Function.comp_apply, Bool.not_eq_true, not_or, not_exists, not_and]
    tauto
  have hforeign : IsForeign target name ∧ ¬LooksOwn target name ↔
      (startsWith "@/" name = false ∧ ¬LooksOwn target name) ∧
        ∀ start ∈ target.validImports, startsWith start name = false := by
    constructor
    · exact fun ⟨h, hlooks⟩ => ⟨⟨h.root, hlooks⟩, h.valid⟩
    · rintro ⟨⟨hroot, hlooks⟩, hstarts⟩
      exact ⟨⟨fun h => hlooks (.inl (startsWith_dot_of_isRelative h)), hroot,
        fun h => hlooks (looksOwn_of_isAbbreviated h), hstarts⟩, hlooks⟩
  have hempty : target.validImports.isEmpty = false := by simpa using hvalid
  rw [hforeign, ← hown, isAccepted, hempty, Bool.or_false, Bool.or_eq_false_iff]
  simp [startsWithAny]

/-! ### What is reported -/

/-- What is told of a module, as one of the old framework and as one that is foreign to the target. -/
def told (name : String) (legacy foreign : Prop) [Decidable legacy] [Decidable foreign] : List String :=
  (if legacy then [name ++ " (old framework import not transformed)"] else []) ++
    (if foreign then [name ++ " (invalid for target framework)"] else [])

/-- What should be told of the imports and re-exports of a file: every module of the old framework and
every foreign module, in the order of the file. -/
def owed (source target : FrameworkProfile) (references : List Reference) : List String :=
  (references.filter isDeclared).flatMap fun r =>
    told r.source (IsLegacy source r.source) (IsForeign target r.source)

theorem moduleProblems_eq (hvalid : target.validImports ≠ []) : moduleProblems source target name =
    told name (IsLegacy source name) (IsForeign target name ∧ ¬LooksOwn target name) := by
  have hlegacy : startsWithAny source.legacyPackages name = true ↔ IsLegacy source name :=
    List.any_eq_true
  unfold moduleProblems told
  simp only [hlegacy, ← isAccepted_eq_false_iff hvalid]
  cases isAccepted target name <;> rfl

/-- Problems are reported in the order of the references. -/
theorem importProblems_eq (hvalid : target.validImports ≠ []) (references : List Reference) :
    importProblems source target references = (references.filter isDeclared).flatMap fun r =>
      told r.source (IsLegacy source r.source) (IsForeign target r.source ∧ ¬LooksOwn target r.source) :=
  List.flatMap_congr fun _ _ => moduleProblems_eq hvalid

/-- Lists put in a row are the same when none is longer than the one in its place only if each is. -/
theorem flatMap_eq_iff_of_length_le {α β : Type} {f g : α → List β} {l : List α}
    (h : ∀ x ∈ l, (f x).length ≤ (g x).length) :
    l.flatMap f = l.flatMap g ↔ ∀ x ∈ l, f x = g x := by
  refine ⟨fun heq => ?_, fun heq => List.flatMap_congr heq⟩
  induction l with
  | nil => exact nofun
  | cons x rest ih =>
    obtain ⟨hx, hrest⟩ := List.forall_mem_cons.1 h
    have hle : (rest.flatMap f).length ≤ (rest.flatMap g).length := by
      rw [List.length_flatMap, List.length_flatMap]
      exact List.sum_le_sum hrest
    have hlength := congrArg List.length heq
    rw [List.flatMap_cons, List.flatMap_cons] at heq
    rw [List.flatMap_cons, List.flatMap_cons, List.length_append, List.length_append] at hlength
    obtain ⟨hfirst, hothers⟩ := List.append_inj heq (by omega)
    exact List.forall_mem_cons.2 ⟨hfirst, ih hrest hothers⟩

/-- **Exactly the foreign modules that look as if they belonged to the repository are overlooked.**  What
is reported is told in the order of the file; of modules of the old framework nothing is missing. -/
theorem foreign_reported_iff (hvalid : target.validImports ≠ []) (references : List Reference) :
    (importProblems source target references = (references.filter isDeclared).flatMap fun r =>
      told r.source (IsLegacy source r.source) (IsForeign target r.source ∧ ¬LooksOwn target r.source)) ∧
    (importProblems source target references = owed source target references ↔
      ∀ r ∈ references, isDeclared r = true → IsForeign target r.source → ¬LooksOwn target r.source) := by
  refine ⟨importProblems_eq hvalid references, ?_⟩
  have hlength (r : Reference) :
      (told r.source (IsLegacy source r.source)
        (IsForeign target r.source ∧ ¬LooksOwn target r.source)).length ≤
      (told r.source (IsLegacy source r.source) (IsForeign target r.source)).length := by
    by_cases hf : IsForeign target r.source <;> by_cases hl : LooksOwn target r.source <;>
      simp [told, hf, hl]
  have hsame (r : Reference) :
      told r.source (IsLegacy source r.source) (IsForeign target r.source ∧ ¬LooksOwn target r.source) =
        told r.source (IsLegacy source r.source) (IsForeign target r.source) ↔
      (IsForeign target r.source → ¬LooksOwn target r.source) := by
    by_cases hf : IsForeign target r.source <;> by_cases hl : LooksOwn target r.source <;>
      simp [told, hf, hl]
  rw [importProblems_eq hvalid, owed, flatMap_eq_iff_of_length_le fun r _ => hlength r]
  simp only [hsame, List.mem_filter, and_imp]

section

attribute [local instance] Module.Salvage.stopping

/-- A file with imports of a package, of a module of the old framework and of a file. -/
def mixedImports : Source :=
  Source.parse "import a from \"lodash\";\nimport b from \"react-router-dom\";\nimport c from \"./c\";\n"
    "a.tsx" none

theorem foreign_reported_mixedImports :
    importProblems .react .nextJs mixedImports.references =
      ["lodash (invalid for target framework)",
        "react-router-dom (old framework import not transformed)"] ∧
    importProblems .react .nextJs mixedImports.references =
      owed .react .nextJs mixedImports.references := by
  have hvalid : FrameworkProfile.nextJs.validImports ≠ [] := by decide
  have hnone : ∀ r ∈ mixedImports.references, isDeclared r = true → IsForeign .nextJs r.source →
      ¬LooksOwn .nextJs r.source := by
    decide +kernel
  exact ⟨by decide +kernel, (foreign_reported_iff hvalid _).2.2 hnone⟩

/-- A file with an import of a package whose scope starts with the characters of an abbreviation. -/
def scopedImport : Source := .parse "import a from \"@apple/a\";\n" "a.tsx" none

/-- The package is foreign, but it is not reported. -/
theorem scoped_package_overlooked : scopedImport.hasError = false ∧
    (∀ r ∈ scopedImport.references, isDeclared r = true ∧ r.source = "@apple/a" ∧
      IsForeign .nextJs r.source) ∧
    owed .react .nextJs scopedImport.references = ["@apple/a (invalid for target framework)"] ∧
    importProblems .react .nextJs scopedImport.references = [] := by
  decide +kernel

end

end WebMigration.Validation
