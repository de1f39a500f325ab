import WebMigration.Proofs.Engine.Sheets
import WebMigration.Proofs.Lane.AppRouter

/-!
# Where generated files come to stand

A file is created where no result is kept, and the configuration for merged style sheets comes to stand
at its path whatever is there.  That a file of the batch has the path does not matter.
-/

namespace WebMigration.Engine

open Lane.AppRouter (Adds IsGlobalSheet)

variable {σ : Type} {e : Engine σ} {spec : Specification} {changes : List FileChange}
  {files : Contents} {results : Results} {path : String}

/-! ### Created files and the configuration -/

/-- The result of a created file or of the configuration for merged style sheets, by its first note. -/
def IsGenerated (r : FileResult) : Prop :=
  r.success = true ∧ ∃ text, r.metadata.notes.head? = some ("Generated " ++ text)

/-- A generated file stands at a path. -/
def GeneratedAt (results : Results) (path : String) : Prop :=
  ∃ r, results.get? path = some r ∧ IsGenerated r

theorem IsGenerated.stamped {r : FileResult} (h : IsGenerated r) : Stamped 'G' r := by
  obtain ⟨hsuccess, text, hnote⟩ := h
  refine ⟨hsuccess, ?_⟩
  rw [initial, hnote]
  simp

/-- A change creates a file with content at a path. -/
def createsAt (path : String) (c : FileChange) : Bool :=
  c.action == .create && !(c.content.getD "").isEmpty && c.newPath == path

/-- The result of a created file. -/
def createdFile (spec : Specification) (c : FileChange) : FileResult :=
  .generated c.newPath (c.content.getD "") "" c.role spec.target.language spec (createdNotes c) []
    (some { c.summary with path := c.newPath })

theorem isGenerated_createdFile (c : FileChange) : IsGenerated (createdFile spec c) :=
  ⟨rfl, c.role ++ " file", by simp [createdFile, FileResult.generated, createdNotes, String.append_assoc]⟩

theorem createsAt_iff {c : FileChange} : createsAt path c = true ↔
    c.action = .create ∧ (c.content.getD "").isEmpty = false ∧ c.newPath = path := by
  simp [createsAt, and_assoc]

/-- One change creates a file where it says, unless something is there. -/
theorem get?_addCreated_eq (results : Results) (c : FileChange) :
    (addCreated spec results c).get? path = (results.get? path).or
      (if createsAt path c = true then some (createdFile spec c) else none) := by
  unfold addCreated
  dsimp only
  by_cases hcreates : createsAt path c = true
  · rw [if_pos hcreates]
    obtain ⟨haction, hcontent, rfl⟩ := createsAt_iff.1 hcreates
    cases hget : results.get? c.newPath with
    | none =>
      have hfree : results.has c.newPath = false := by
        rw [Table.has_eq_isSome, hget]
        rfl
      rw [if_neg (by simp [haction, hcontent, hfree]), Table.get?_put_self]
      rfl
    | some r =>
      rw [if_pos (by simp [Table.has_of_get? hget]), hget]
      rfl
  · rw [if_neg hcreates, Option.or_none]
    split
    · rfl
    · rename_i hactive
      refine Table.get?_put_of_ne _ _ fun hpath => hcreates (createsAt_iff.2 ?_)
      simp only [Bool.or_eq_true, bne_iff_ne, not_or, Bool.not_eq_true, Decidable.not_not] at hactive
      exact ⟨hactive.1.1, hactive.2, hpath⟩

/-- The first change that creates a file at a path does so, unless something is there. -/
theorem get?_withCreatedFiles_eq (results : Results) (changes : List FileChange) :
    (withCreatedFiles spec changes results).get? path = (results.get? path).or
      ((changes.find? (createsAt path)).map (createdFile spec)) := by
  unfold withCreatedFiles
  induction changes generalizing results with
  | nil => simp
  | cons c rest ih =>
    rw [List.foldl_cons, ih, get?_addCreated_eq, Option.or_assoc, List.find?_cons]
    congr 1
    cases createsAt path c <;> rfl

/-- The configuration for merged style sheets is a generated file. -/
theorem isGenerated_withStyleConfig {lanes : LaneRegistry} {merged : List String}
    (h : ∃ config ∈ styleConfig? lanes spec merged, config.1 = path) :
    GeneratedAt (withStyleConfig lanes spec merged results) path := by
  obtain ⟨⟨target, content⟩, hconfig, rfl⟩ := h
  unfold withStyleConfig
  rw [Option.mem_def.1 hconfig]
  exact ⟨_, Table.get?_put_self _ _ _, rfl, target, rfl⟩

/-- It changes nothing at other paths. -/
theorem get?_withStyleConfig_of_ne {lanes : LaneRegistry} {merged : List String}
    (h : ¬ ∃ config ∈ styleConfig? lanes spec merged, config.1 = path) :
    (withStyleConfig lanes spec merged results).get? path = results.get? path := by
  unfold withStyleConfig
  split
  · rfl
  · rename_i target content hconfig
    exact Table.get?_put_of_ne _ _ fun hpath => h ⟨_, hconfig, hpath⟩

namespace BatchTrace

variable {records : List FileRecord} {jobId : Option String} {s : Logged σ}
  (b : BatchTrace e records spec jobId s)

/-- The results before files are created. -/
def withSheets : Results :=
  withKeptSheets spec b.files b.changes
    (withMergedSheets e.lanes spec b.files b.changes (b.keptAfter b.outcomes))

/-- Before files are created no result is a generated one. -/
theorem not_isGenerated_withSheets {r : FileResult} (h : b.withSheets.get? path = some r) :
    ¬ IsGenerated r := by
  intro hr
  have hstamped := hr.stamped
  rw [withSheets, get?_withKeptSheets (hstamped.not_stamped (by decide)),
    get?_withMergedSheets (hstamped.not_stamped (by decide))] at h
  exact (b.ofFile_of_kept h.1).not_stamped (by decide) hstamped

/-- **Where generated files stand**: at the path of the configuration, and where a file is created and
nothing was before. -/
theorem generatedAt_iff : GeneratedAt b.results path ↔ b.Configures path ∨
    (b.withSheets.has path = false ∧ ∃ c ∈ b.changes, createsAt path c = true) := by
  unfold GeneratedAt results withGenerated
  by_cases hconfig : b.Configures path
  · exact iff_of_true (isGenerated_withStyleConfig hconfig) (.inl hconfig)
  rw [get?_withStyleConfig_of_ne hconfig, get?_withCreatedFiles_eq, or_iff_right hconfig]
  show (∃ r, (b.withSheets.get? path).or _ = some r ∧ IsGenerated r) ↔ _
  cases hsheets : b.withSheets.get? path with
  | some r =>
    refine iff_of_false ?_ fun h => ?_
    · rintro ⟨_, hr, hgenerated⟩
      obtain rfl := Option.some.inj hr
      exact b.not_isGenerated_withSheets hsheets hgenerated
    · rw [Table.has_of_get? hsheets] at h
      cases h.1
  | none =>
    have hfree : b.withSheets.has path = false := by
      rw [Table.has_eq_isSome, hsheets]
      rfl
    rw [and_iff_right hfree, Option.none_or]
    constructor
    · rintro ⟨r, hr, -⟩
      obtain ⟨c, hc, -⟩ := Option.map_eq_some_iff.1 hr
      exact ⟨c, List.mem_of_find?_eq_some hc, List.find?_some hc⟩
    · rintro ⟨c, hc, hcreates⟩
      have hfound : (b.changes.find? (createsAt path)).isSome = true :=
        List.find?_isSome.2 ⟨c, hc, hcreates⟩
      obtain ⟨d, hd⟩ := Option.isSome_iff_exists.1 hfound
      exact ⟨_, by rw [hd]; rfl, isGenerated_createdFile d⟩

end BatchTrace

/-! ### The built-in lanes and their plans -/

/-- The engine with the built-in lanes and with plans made by them. -/
def withBuiltIn (e : Engine σ) : Engine σ :=
  { e with lanes := .builtIn, plan := fun files spec => pure (Structure.plan .builtIn files.texts spec) }

theorem map_fst_texts (files : Contents) : files.texts.map (·.1) = files.map (·.1) := by
  rw [Contents.texts, List.map_map]
  rfl

/-- A style sheet is merged exactly when it is moved somewhere. -/
theorem mem_mergedPaths : path ∈ mergedPaths files changes ↔
    files.has path = true ∧
      ∃ c ∈ changes, c.role = "style" ∧ c.action = .move ∧ c.originalPath = path := by
  constructor
  · intro hpath
    obtain ⟨g, hg, hmem⟩ := List.mem_flatMap.1 hpath
    obtain ⟨c, hc, hmoves⟩ := mem_mergeGroups.1 ⟨g, hg, rfl, hmem⟩
    exact ⟨hmoves.listed, c, hc, hmoves.role, hmoves.action, hmoves.original⟩
  · rintro ⟨hlisted, c, hc, hrole, haction, horiginal⟩
    obtain ⟨g, hg, -, hmem⟩ :=
      mem_mergeGroups.2 ⟨c, hc, hrole, haction, horiginal, rfl, hlisted⟩
    exact List.mem_flatMap.2 ⟨g, hg, hmem⟩

/-- The configuration of the built-in lane is wanted once a style sheet is merged. -/
theorem styleConfig?_builtIn (merged : List String) :
    (∃ config ∈ styleConfig? .builtIn spec merged, config.1 = path) ↔
      LaneRegistry.builtIn.laneOf? spec = some Lane.appRouter ∧ merged ≠ [] ∧
        path = "tailwind.config.ts" := by
  unfold styleConfig?
  cases merged with
  | nil => simp
  | cons m rest =>
    rcases Lane.AppRouter.laneOf?_builtIn spec with hlane | hlane
    · have hconfig : ∃ content, Lane.appRouter.styleConfig (m :: rest) spec =
          some ("tailwind.config.ts", content) := by
        simp only [Lane.appRouter]
        exact ⟨_, rfl⟩
      obtain ⟨content, hconfig⟩ := hconfig
      rw [hlane]
      simp [hconfig, eq_comm]
    · rw [hlane]
      simp

namespace BatchTrace

variable {records : List FileRecord} {jobId : Option String} {s : Logged σ}
  (b : BatchTrace e.withBuiltIn records spec jobId s)

theorem changes_builtIn : b.changes = Structure.plan .builtIn b.files.texts spec := by
  have hplan : ∀ files t, e.withBuiltIn.plan files spec t =
      (.ok (Structure.plan .builtIn files.texts spec), t) := fun _ _ => Run.pure_ok.2 ⟨rfl, rfl⟩
  rw [b.changes_eq hplan]

/-- A file is created at a path: one that the layout needs and to which nothing is moved, while no result
of a file is kept there. -/
structure Scaffolds (path : String) : Prop where
  adds : Adds b.files.texts spec path
  free : (b.keptAfter b.outcomes).has path = false

/-- The configuration for merged style sheets comes to stand at a path: its own, once there is a style
sheet for the whole site. -/
structure Configured (path : String) : Prop where
  lane : LaneRegistry.builtIn.laneOf? spec = some Lane.appRouter
  path : path = "tailwind.config.ts"
  sheet : ∃ f ∈ b.files, IsGlobalSheet f.1

theorem configures_builtIn : b.Configures path ↔ b.Configured path := by
  show (∃ config ∈ styleConfig? .builtIn spec (mergedPaths b.files b.changes), config.1 = path) ↔ _
  rw [styleConfig?_builtIn]
  constructor
  · rintro ⟨hlane, hmerged, rfl⟩
    obtain ⟨source, hsource⟩ := List.exists_mem_of_ne_nil _ hmerged
    obtain ⟨-, hmove⟩ := mem_mergedPaths.1 hsource
    rw [changes_builtIn, Lane.AppRouter.exists_sheet_move_iff, map_fst_texts] at hmove
    obtain ⟨-, hfile, hglobal⟩ := hmove
    obtain ⟨f, hf, rfl⟩ := List.mem_map.1 hfile
    exact ⟨hlane, rfl, f, hf, hglobal⟩
  · rintro ⟨hlane, rfl, f, hf, hglobal⟩
    have hfile : f.1 ∈ b.files.map (·.1) := List.mem_map_of_mem hf
    refine ⟨hlane, List.ne_nil_of_mem (mem_mergedPaths.2
      ⟨List.any_eq_true.2 ⟨f, hf, beq_self_eq_true f.1⟩, ?_⟩), rfl⟩
    rw [changes_builtIn, Lane.AppRouter.exists_sheet_move_iff, map_fst_texts]
    exact ⟨hlane, hfile, hglobal⟩

/-- Before files are created, nothing stands where one is to be added unless the result of a file is kept
there. -/
theorem has_withSheets (h : Adds b.files.texts spec path) :
    b.withSheets.has path = (b.keptAfter b.outcomes).has path := by
  have hsheets : ∀ f ∈ b.files, Structure.isStyleSheet f.1 = true → f.1 ≠ path := by
    rintro f hf hsheet rfl
    have hfile : f.1 ∈ b.files.texts.map (·.1) := by
      rw [map_fst_texts]
      exact List.mem_map_of_mem hf
    rw [h.not_isStyleSheet hfile] at hsheet
    cases hsheet
  have hmerged : ¬ ∃ g ∈ mergeGroups b.files b.changes, g.1 = path := by
    rw [exists_group_iff]
    rintro ⟨c, hc, other, hmoves⟩
    rw [changes_builtIn] at hc
    exact h.not_moved hc hmoves.action hmoves.target
  rw [Bool.eq_iff_iff, withSheets, Table.has_eq_isSome, withKeptSheets,
    get?_foldl_keepSheet_of_ne hsheets, ← Table.has_eq_isSome, withMergedSheets,
    Table.has_foldl_put, or_iff_left hmerged]

end BatchTrace

/-- **Where generated files stand with the built-in lanes and their plans**: at the paths of files that
the layout needs, to which nothing is moved and where no result is kept, and at the path of the
configuration for merged style sheets.  So a file of the batch has its place taken exactly when its path
is one of these. -/
theorem generatedAt_builtIn {records : List FileRecord} {jobId : Option String} {s s' : Logged σ}
    {batch : BatchResult} (h : e.withBuiltIn.transformBatch records spec jobId s = (.ok batch, s')) :
    ∃ b : BatchTrace e.withBuiltIn records spec jobId s, batch = .ofResults b.results ∧
      (∀ path, GeneratedAt batch.results path ↔ b.Scaffolds path ∨ b.Configured path) ∧
      ((∀ file ∈ records, ¬ GeneratedAt batch.results file.path) ↔
        ∀ file ∈ records, ¬ b.Scaffolds file.path ∧ ¬ b.Configured file.path) := by
  obtain ⟨b, rfl⟩ := transformBatch_ok h
  have hgenerated : ∀ path, GeneratedAt b.results path ↔ b.Scaffolds path ∨ b.Configured path := by
    intro path
    rw [b.generatedAt_iff, b.configures_builtIn, or_comm]
    refine or_congr_left ?_
    simp only [createsAt_iff]
    rw [b.changes_builtIn, Lane.AppRouter.exists_created_iff]
    constructor
    · rintro ⟨hfree, hadds⟩
      rw [b.has_withSheets hadds] at hfree
      exact ⟨hadds, hfree⟩
    · rintro ⟨hadds, hfree⟩
      rw [b.has_withSheets hadds]
      exact ⟨hfree, hadds⟩
  refine ⟨b, rfl, hgenerated, forall₂_congr fun file _ => ?_⟩
  rw [← not_or]
  exact not_congr (hgenerated file.path)

/-- A script with the path of the configuration, and a style sheet for the whole site. -/
def styledSite : List FileRecord := [⟨"tailwind.config.ts", some "f()\n"⟩, ⟨"index.css", some "a \x7b\x7d\n"⟩]

/-- A migration that keeps the names of such scripts. -/
def kebabCased : Specification :=
  { target := { componentConventions := { fileExtension := ".ts", namingConvention := "kebab-case" } } }

/-- A batch with the built-in lanes and their plans answers. -/
theorem withBuiltIn_total (e : Engine σ) (records : List FileRecord) (spec : Specification) :
    Run.Total (e.withBuiltIn.transformBatch records spec none) :=
  transformBatch_total (fun _ => .pure _) records

section

attribute [local instance] Module.Salvage.stopping

/-- Where generated files stand in a small site. -/
theorem generatedAt_builtIn_styled :
    ∃ batch s', plain.withBuiltIn.transformBatch styledSite kebabCased none ⟨(), []⟩ =
        (.ok batch, s') ∧
      ∃ b : BatchTrace plain.withBuiltIn styledSite kebabCased none ⟨(), []⟩,
        batch = .ofResults b.results ∧
        (∀ path, GeneratedAt batch.results path ↔ b.Scaffolds path ∨ b.Configured path) ∧
        ((∀ file ∈ styledSite, ¬ GeneratedAt batch.results file.path) ↔
          ∀ file ∈ styledSite, ¬ b.Scaffolds file.path ∧ ¬ b.Configured file.path) := by
  obtain ⟨batch, s', h⟩ := plain.withBuiltIn_total styledSite kebabCased ⟨(), []⟩
  exact ⟨batch, s', h, generatedAt_builtIn h⟩

/-- The configuration for merged style sheets takes the place of a script that has its path and keeps
it. -/
theorem styled_site_overtaken :
    ∃ batch s', plain.withBuiltIn.transformBatch styledSite kebabCased none ⟨(), []⟩ =
        (.ok batch, s') ∧
      ∃ file ∈ styledSite, Structure.placed file.path kebabCased = file.path ∧
        GeneratedAt batch.results file.path := by
  obtain ⟨batch, s', h⟩ := plain.withBuiltIn_total styledSite kebabCased ⟨(), []⟩
  obtain ⟨b, rfl⟩ := transformBatch_ok h
  refine ⟨_, s', h, ⟨"tailwind.config.ts", some "f()\n"⟩, List.mem_cons_self, by decide +kernel,
    b.generatedAt_iff.2 (.inl (b.configures_builtIn.2 ⟨?_, rfl, ?_⟩))⟩
  · have applies : (LaneRegistry.builtIn.laneOf? kebabCased).isSome = true := by decide +kernel
    refine (Lane.AppRouter.laneOf?_builtIn kebabCased).resolve_right fun hnone => ?_
    rw [hnone] at applies
    cases applies
  · have hanswer : (⟨"index.css", some "a \x7b\x7d\n"⟩, .ok (some "a \x7b\x7d\n")) ∈ b.answers :=
      b.mem_answers (List.mem_cons_of_mem _ List.mem_cons_self) rfl
    have hfile := b.get?_files (by decide) hanswer
    exact ⟨_, Table.mem_of_get? hfile, by constructor <;> decide +kernel⟩

end

end WebMigration.Engine
