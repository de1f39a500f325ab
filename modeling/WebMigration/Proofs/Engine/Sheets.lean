import WebMigration.Proofs.Engine.Keeping
import WebMigration.Proofs.Style.Merging

/-!
# What becomes of style sheets

A style sheet is merged where a plan moves it, and kept as it is where nothing is planned for it and
its path is free.  A sheet for which something else is planned is neither.
-/

namespace WebMigration.Engine

variable {σ : Type} {e : Engine σ} {spec : Specification} {changes : List FileChange}
  {files : Contents}

/-! ### Groups of merged style sheets -/

/-- The groups with one more style sheet. -/
def addToGroup (groups : Table (List String)) (c : FileChange) : Table (List String) :=
  groups.put c.newPath ((groups.get? c.newPath).getD [] ++ [c.originalPath])

theorem mergeGroups_eq (files : Contents) (changes : List FileChange) :
    mergeGroups files changes = (changes.filter (movesStyle files)).foldl addToGroup [] := rfl

/-- A group has the style sheets that are moved to its path. -/
theorem mem_get?_foldl_addToGroup {moves : List FileChange} {groups : Table (List String)}
    {key path : String} :
    path ∈ ((moves.foldl addToGroup groups).get? key).getD [] ↔
      path ∈ (groups.get? key).getD [] ∨ ∃ c ∈ moves, c.newPath = key ∧ c.originalPath = path := by
  induction moves generalizing groups with
  | nil => simp
  | cons c rest ih =>
    rw [List.foldl_cons, ih, addToGroup, Table.get?_put]
    by_cases hkey : c.newPath = key
    · subst hkey
      simp [or_assoc, eq_comm]
    · simp [hkey]

theorem nodup_mergeGroups (files : Contents) (changes : List FileChange) :
    ((mergeGroups files changes).map (·.1)).Nodup :=
  List.foldlRecOn (motive := fun groups : Table (List String) => (groups.map (·.1)).Nodup) _ _
    (by simp) fun _ h _ _ => Table.nodup_put h _ _

/-- A plan moves a style sheet of the repository from one path to another. -/
structure Moves (files : Contents) (c : FileChange) (path newPath : String) : Prop where
  role : c.role = "style"
  action : c.action = .move
  original : c.originalPath = path
  target : c.newPath = newPath
  listed : files.has path = true

theorem movesStyle_iff {c : FileChange} {path newPath : String} :
    (movesStyle files c = true ∧ c.newPath = newPath ∧ c.originalPath = path) ↔
      Moves files c path newPath := by
  unfold movesStyle
  simp only [Bool.and_eq_true, beq_iff_eq]
  constructor
  · rintro ⟨⟨⟨hrole, haction⟩, hlisted⟩, htarget, rfl⟩
    exact ⟨hrole, haction, rfl, htarget, hlisted⟩
  · rintro ⟨hrole, haction, rfl, htarget, hlisted⟩
    exact ⟨⟨⟨hrole, haction⟩, hlisted⟩, htarget, rfl⟩

/-- A style sheet is in the group of a path exactly when it is moved there. -/
theorem mem_mergeGroups {path newPath : String} :
    (∃ g ∈ mergeGroups files changes, g.1 = newPath ∧ path ∈ g.2) ↔
      ∃ c ∈ changes, Moves files c path newPath := by
  have hfound : path ∈ ((mergeGroups files changes).get? newPath).getD [] ↔
      ∃ c ∈ changes, Moves files c path newPath := by
    rw [mergeGroups_eq, mem_get?_foldl_addToGroup]
    simp [List.mem_filter, ← movesStyle_iff, and_assoc]
  rw [← hfound]
  constructor
  · rintro ⟨⟨_, sources⟩, hg, rfl, hpath⟩
    rw [Table.get?_of_mem (nodup_mergeGroups files changes) hg]
    exact hpath
  · intro hpath
    cases hget : (mergeGroups files changes).get? newPath with
    | none =>
      rw [hget] at hpath
      cases hpath
    | some sources =>
      rw [hget] at hpath
      exact ⟨_, Table.mem_of_get? hget, rfl, hpath⟩

/-- There is a group for a path exactly when a style sheet is moved there. -/
theorem exists_group_iff {newPath : String} :
    (∃ g ∈ mergeGroups files changes, g.1 = newPath) ↔
      ∃ c ∈ changes, ∃ path, Moves files c path newPath := by
  constructor
  · rintro ⟨g, hg, rfl⟩
    suffices h : ∀ g ∈ mergeGroups files changes, ∃ c ∈ changes, ∃ path, Moves files c path g.1 from
      h g hg
    refine List.foldlRecOn (motive := fun groups : Table (List String) =>
      ∀ g ∈ groups, ∃ c ∈ changes, ∃ path, Moves files c path g.1) _ _
      (fun g hg => nomatch hg) fun groups h c hc g hg => ?_
    obtain ⟨hmem, hmoves⟩ := List.mem_filter.1 hc
    rcases Table.mem_put hg with rfl | hg
    · exact ⟨c, hmem, c.originalPath, movesStyle_iff.1 ⟨hmoves, rfl, rfl⟩⟩
    · exact h g hg
  · rintro ⟨c, hc, path, hmoves⟩
    obtain ⟨g, hg, hpath, -⟩ := mem_mergeGroups.2 ⟨c, hc, hmoves⟩
    exact ⟨g, hg, hpath⟩

/-! ### Entries of style sheets -/

section Entries

variable {lanes : LaneRegistry} {results : Results} {path : String} {content : Option String}

/-- The result of a style sheet that stays as it is. -/
def keptSheet (spec : Specification) (path : String) (content : Option String) : FileResult :=
  .generated path content content "style" "css" spec ["Style sheet kept unchanged"]

theorem stamped_keptSheet : Stamped 'S' (keptSheet spec path content) := stamped_generated (by simp)

/-- Only style sheets are kept, and at no path but their own. -/
theorem get?_foldl_keepSheet_of_ne {others : Contents}
    (h : ∀ f ∈ others, Structure.isStyleSheet f.1 = true → f.1 ≠ path) :
    (others.foldl (keepSheet spec changes) results).get? path = results.get? path := by
  refine List.foldlRecOn (motive := fun t : Results => t.get? path = results.get? path) _ _ rfl
    fun t ht f hf => ?_
  unfold keepSheet
  split
  · rename_i hkept
    simp only [Bool.and_eq_true] at hkept
    rw [Table.get?_put_of_ne _ _ (h f hf hkept.1.1.1), ht]
  · exact ht

/-- A style sheet stays as it is where nothing is planned for it and its path is free. -/
theorem get?_keepSheet_self (hsheet : Structure.isStyleSheet path = true)
    (hdeletes : deletes changes path = false) :
    (keepSheet spec changes results (path, content)).get? path = some (keptSheet spec path content) ↔
      results.get? path = some (keptSheet spec path content) ∨
        (changesStyle changes path = false ∧ results.has path = false) := by
  unfold keepSheet
  dsimp only
  rw [hsheet, hdeletes]
  split
  · rename_i hkept
    exact iff_of_true (Table.get?_put_self _ _ _) (.inr (by simpa using hkept))
  · rename_i hleft
    exact (or_iff_left (by simpa using hleft)).symm

/-- Of all files only the style sheet itself decides whether it stays. -/
theorem get?_withKeptSheets_self (hn : (files.map (·.1)).Nodup) (hfile : (path, content) ∈ files)
    (hsheet : Structure.isStyleSheet path = true) (hdeletes : deletes changes path = false) :
    (withKeptSheets spec files changes results).get? path = some (keptSheet spec path content) ↔
      results.get? path = some (keptSheet spec path content) ∨
        (changesStyle changes path = false ∧ results.has path = false) := by
  obtain ⟨before, after, rfl⟩ := List.append_of_mem hfile
  rw [List.map_append, List.map_cons, List.nodup_append, List.nodup_cons] at hn
  have hbefore : ∀ f ∈ before, Structure.isStyleSheet f.1 = true → f.1 ≠ path := fun f hf _ =>
    hn.2.2 _ (List.mem_map_of_mem hf) _ List.mem_cons_self
  have hafter : ∀ f ∈ after, Structure.isStyleSheet f.1 = true → f.1 ≠ path := fun f hf _ hpath =>
    hn.2.1.1 (List.mem_map.2 ⟨f, hf, hpath⟩)
  have hstart : (before.foldl (keepSheet spec changes) results).get? path = results.get? path :=
    get?_foldl_keepSheet_of_ne hbefore
  rw [withKeptSheets, List.foldl_append, List.foldl_cons, get?_foldl_keepSheet_of_ne hafter,
    get?_keepSheet_self hsheet hdeletes, Table.has_eq_isSome, hstart, ← Table.has_eq_isSome]

end Entries

/-! ### The style sheets of a batch -/

/-- A style sheet is accounted for among results: with its content under its own path, or in a merged
one that names it and holds it. -/
def Survives (results : Results) (path : String) (content : Option String) : Prop :=
  (∃ r, results.get? path = some r ∧ r.code = content) ∨
    ∃ key r code sources, results.get? key = some r ∧ r.code = some code ∧ path ∈ sources ∧
      "Merged from: " ++ Text.join ", " sources ∈ r.metadata.notes ∧
      Style.Holds code (content.getD "").toList

namespace BatchTrace

variable {records : List FileRecord} {jobId : Option String} {s : Logged σ}
  (b : BatchTrace e records spec jobId s) {path : String} {content : Option String}

/-- The style configuration is put at a path. -/
def Configures (path : String) : Prop :=
  ∃ config ∈ styleConfig? e.lanes spec (mergedPaths b.files b.changes), config.1 = path

/-- A style sheet is moved to a path where the merged one stays. -/
def Merges (path : String) : Prop :=
  ∃ newPath, (∃ c ∈ b.changes, Moves b.files c path newPath) ∧ ¬ b.Configures newPath

/-- A style sheet stays at its path: nothing is planned for it, and nothing else comes there. -/
structure Stays (path : String) : Prop where
  unplanned : changesStyle b.changes path = false
  free : (b.keptAfter b.outcomes).has path = false
  unmerged : ¬ ∃ c ∈ b.changes, ∃ other, Moves b.files c other path
  unconfigured : ¬ b.Configures path

/-- A style sheet has an entry: in the merged one of its group, or its own. -/
inductive Listed (path : String) (content : Option String) : Prop
  | merged {g} : g ∈ mergeGroups b.files b.changes → path ∈ g.2 →
      b.results.get? g.1 = some (mergedSheet e.lanes spec b.files g.1 g.2) → Listed path content
  | kept : b.results.get? path = some (keptSheet spec path content) → Listed path content

theorem unconfigured_iff : (∀ config ∈ styleConfig? e.lanes spec (mergedPaths b.files b.changes),
    config.1 ≠ path) ↔ ¬ b.Configures path := by
  simp only [Configures, not_exists, not_and]

theorem ofFile_of_kept {key : String} {r : FileResult}
    (h : (b.keptAfter b.outcomes).get? key = some r) : OfFile r := by
  have hall : (b.keptAfter b.outcomes).All OfFile := by
    refine b.all_kept (fun _ _ => .inl rfl) ?_
    rintro f r ⟨t, u, hrun⟩
    exact (course_of_transformFor hrun).ofFile
  exact hall _ (Table.mem_of_get? h)

/-- The merged style sheet of a group is there unless the configuration replaces it. -/
theorem get?_results_mergedSheet {g : String × List String}
    (hg : g ∈ mergeGroups b.files b.changes) :
    b.results.get? g.1 = some (mergedSheet e.lanes spec b.files g.1 g.2) ↔
      ¬ b.Configures g.1 := by
  have hstamped : Stamped 'M' (mergedSheet e.lanes spec b.files g.1 g.2) :=
    stamped_mergedSheet _ _
  have hmerged : (withMergedSheets e.lanes spec b.files b.changes (b.keptAfter b.outcomes)).get? g.1 =
      some (mergedSheet e.lanes spec b.files g.1 g.2) :=
    Table.get?_foldl_put_of_mem (nodup_mergeGroups _ _) hg
  rw [results, withGenerated, get?_withStyleConfig (hstamped.not_stamped (by decide)),
    get?_withCreatedFiles (hstamped.not_stamped (by decide)),
    get?_withKeptSheets (hstamped.not_stamped (by decide)), unconfigured_iff]
  exact and_iff_right hmerged

/-- A style sheet has its own entry exactly when it stays at its path. -/
theorem get?_results_keptSheet (hfile : (path, content) ∈ b.files)
    (hsheet : Structure.isStyleSheet path = true) (hdeletes : deletes b.changes path = false) :
    b.results.get? path = some (keptSheet spec path content) ↔ b.Stays path := by
  have hstamped : Stamped 'S' (keptSheet spec path content) := stamped_keptSheet
  -- Before style sheets are kept, only results of files and merged sheets are there.
  have hfresh : (withMergedSheets e.lanes spec b.files b.changes (b.keptAfter b.outcomes)).get? path ≠
      some (keptSheet spec path content) := by
    rw [Ne, get?_withMergedSheets (hstamped.not_stamped (by decide))]
    exact fun h => (b.ofFile_of_kept h.1).not_stamped (by decide) hstamped
  have hfree : (withMergedSheets e.lanes spec b.files b.changes (b.keptAfter b.outcomes)).has path =
      false ↔ (b.keptAfter b.outcomes).has path = false ∧
        ¬ ∃ c ∈ b.changes, ∃ other, Moves b.files c other path := by
    rw [← Bool.not_eq_true, withMergedSheets, Table.has_foldl_put, exists_group_iff, not_or,
      Bool.not_eq_true]
  rw [results, withGenerated, get?_withStyleConfig (hstamped.not_stamped (by decide)),
    get?_withCreatedFiles (hstamped.not_stamped (by decide)),
    get?_withKeptSheets_self b.nodup_files hfile hsheet hdeletes, or_iff_right hfresh, hfree,
    unconfigured_iff]
  constructor
  · rintro ⟨⟨hplanned, hkept, hmerged⟩, hconfig⟩
    exact ⟨hplanned, hkept, hmerged, hconfig⟩
  · rintro ⟨hplanned, hkept, hmerged, hconfig⟩
    exact ⟨⟨hplanned, hkept, hmerged⟩, hconfig⟩

/-- Exactly the style sheets that are merged or stay have an entry. -/
theorem listed_iff (hfile : (path, content) ∈ b.files)
    (hsheet : Structure.isStyleSheet path = true) (hdeletes : deletes b.changes path = false) :
    b.Listed path content ↔ b.Merges path ∨ b.Stays path := by
  constructor
  · rintro (⟨hg, hpath, hentry⟩ | hentry)
    · exact .inl ⟨_, mem_mergeGroups.1 ⟨_, hg, rfl, hpath⟩, (b.get?_results_mergedSheet hg).1 hentry⟩
    · exact .inr ((b.get?_results_keptSheet hfile hsheet hdeletes).1 hentry)
  · rintro (⟨newPath, hmoves, hconfig⟩ | hstays)
    · obtain ⟨g, hg, rfl, hpath⟩ := mem_mergeGroups.2 hmoves
      exact .merged hg hpath ((b.get?_results_mergedSheet hg).2 hconfig)
    · exact .kept ((b.get?_results_keptSheet hfile hsheet hdeletes).2 hstays)

/-- An entry of a style sheet accounts for it. -/
theorem survives_of_listed (hfile : b.files.get? path = some content) (h : b.Listed path content) :
    Survives b.results path content := by
  cases h with
  | kept hentry => exact .inl ⟨_, hentry, rfl⟩
  | @merged g _ hpath hentry =>
    refine .inr ⟨g.1, _, _, g.2, hentry, rfl, hpath, List.mem_cons_self, ?_⟩
    have hsheet : (path, content.getD "") ∈
        Contents.texts (g.2.map fun source => (source, (b.files.get? source).join)) := by
      refine List.mem_map.2 ⟨(path, content), List.mem_map.2 ⟨path, hpath, ?_⟩, rfl⟩
      rw [hfile]
      rfl
    exact Style.holds_merge hsheet _

end BatchTrace

/-- **Which style sheets a batch accounts for.**  In a batch of files with distinct paths, a style sheet
whose content was obtained and that the plan does not delete has an entry exactly when it is moved to
where the merged one stays, or stays at its own path; and then it is accounted for. -/
theorem sheet_listed_iff {records : List FileRecord} {jobId : Option String} {s s' : Logged σ}
    {batch : BatchResult} (hn : (records.map (·.path)).Nodup)
    (h : e.transformBatch records spec jobId s = (.ok batch, s')) :
    ∃ b : BatchTrace e records spec jobId s, batch = .ofResults b.results ∧
      ∀ file content, (file, .ok content) ∈ b.answers → Structure.isStyleSheet file.path = true →
        deletes b.changes file.path = false →
        (b.Listed file.path content ↔ b.Merges file.path ∨ b.Stays file.path) ∧
        (b.Listed file.path content → Survives batch.results file.path content) := by
  obtain ⟨b, rfl⟩ := transformBatch_ok h
  refine ⟨b, rfl, fun file content hanswer hsheet hdeletes => ?_⟩
  have hfile := b.get?_files hn hanswer
  exact ⟨b.listed_iff (Table.mem_of_get? hfile) hsheet hdeletes, b.survives_of_listed hfile⟩

section

attribute [local instance] Module.Salvage.stopping

/-- A style sheet with one rule. -/
def smallSheet : FileRecord := ⟨"a.css", some "a \x7b\x7d\n"⟩

/-- The change that gives a small style sheet a new name. -/
def renameSheet : FileChange := ⟨"a.css", "b.css", .rename, "style", none, false, none, false, false, false⟩

/-- An engine that plans to rename a small style sheet. -/
def renamer : Engine Unit := { plain with plan := fun _ _ => pure [renameSheet] }

/-- A style sheet that is to be renamed is not accounted for: it is not merged, since it is not moved,
and it does not stay, since something is planned for it. -/
theorem renamed_sheet_lost :
    ([smallSheet].map (·.path)).Nodup ∧ Structure.isStyleSheet smallSheet.path = true ∧
    (∀ files spec s, renamer.plan files spec s = (.ok [renameSheet], s)) ∧
    deletes [renameSheet] smallSheet.path = false ∧
    ∃ batch s', renamer.transformBatch [smallSheet] laneless none ⟨(), []⟩ = (.ok batch, s') ∧
      ¬ Survives batch.results smallSheet.path smallSheet.content := by
  have lost : ((renamer.transformBatch [smallSheet] laneless none ⟨(), []⟩).1.toOption.any
      fun batch => batch.results.isEmpty) = true := by decide +kernel
  obtain ⟨batch, s', h, hempty⟩ := Run.ok_of_any lost
  refine ⟨by decide, by decide +kernel, fun _ _ _ => rfl, by decide, batch, s', h, ?_⟩
  rw [List.isEmpty_iff.1 hempty]
  rintro (⟨r, ⟨⟩, -⟩ | ⟨key, r, code, sources, ⟨⟩, -⟩)

/-- A style sheet for the whole site. -/
def siteSheet : FileRecord := ⟨"site.css", some "p \x7b\x7d\n"⟩

/-- The change that moves it to where it is merged. -/
def moveSheet : FileChange :=
  ⟨"site.css", "all.css", .move, "style", none, false, none, false, false, false⟩

/-- An engine that plans to rename one style sheet and to merge the other. -/
def restyler : Engine Unit := { plain with plan := fun _ _ => pure [renameSheet, moveSheet] }

/-- Of two style sheets the one that is merged has an entry and is accounted for, and the one that is
renamed has none. -/
theorem sheet_listed_iff_restyler :
    ([smallSheet, siteSheet].map (·.path)).Nodup ∧
    ∃ batch s', restyler.transformBatch [smallSheet, siteSheet] laneless none ⟨(), []⟩ =
        (.ok batch, s') ∧
      ∃ b : BatchTrace restyler [smallSheet, siteSheet] laneless none ⟨(), []⟩,
        batch = .ofResults b.results ∧
        (b.Merges siteSheet.path ∧ b.Listed siteSheet.path siteSheet.content ∧
          Survives batch.results siteSheet.path siteSheet.content) ∧
        ¬ b.Merges smallSheet.path ∧ ¬ b.Stays smallSheet.path ∧
          ¬ b.Listed smallSheet.path smallSheet.content := by
  have hn : ([smallSheet, siteSheet].map (·.path)).Nodup := by decide
  have htotal : Run.Total (restyler.transformBatch [smallSheet, siteSheet] laneless none) :=
    transformBatch_total (fun _ => .pure _) _
  obtain ⟨batch, s', h⟩ := htotal ⟨(), []⟩
  obtain ⟨b, hb, hsheets⟩ := sheet_listed_iff hn h
  have hchanges : b.changes = [renameSheet, moveSheet] :=
    b.changes_eq (fun _ _ => rfl : ∀ files t, restyler.plan files laneless t = (.ok _, t))
  have hunconfigured : ¬ b.Configures "all.css" := by
    have hnone : styleConfig? restyler.lanes laneless (mergedPaths b.files b.changes) = none := by
      rw [styleConfig?, show restyler.lanes = .builtIn from rfl, laneOf?_laneless, Option.bind_none,
        ite_self]
    rw [BatchTrace.Configures, hnone]
    rintro ⟨config, ⟨⟩, -⟩
  refine ⟨hn, batch, s', h, b, hb, ?_, ?_⟩
  · have hanswer : (siteSheet, .ok siteSheet.content) ∈ b.answers :=
      b.mem_answers (List.mem_cons_of_mem _ List.mem_cons_self) rfl
    obtain ⟨hlisted, hsurvives⟩ :=
      hsheets siteSheet _ hanswer (by decide +kernel) (by rw [hchanges]; decide)
    have hmoves : Moves b.files moveSheet siteSheet.path "all.css" :=
      ⟨rfl, rfl, rfl, rfl, Table.has_of_get? (b.get?_files hn hanswer)⟩
    have hmerges : b.Merges siteSheet.path :=
      ⟨_, ⟨moveSheet, by simp [hchanges], hmoves⟩, hunconfigured⟩
    have hentry := hlisted.2 (.inl hmerges)
    exact ⟨hmerges, hentry, hsurvives hentry⟩
  · have hanswer : (smallSheet, .ok smallSheet.content) ∈ b.answers :=
      b.mem_answers List.mem_cons_self rfl
    obtain ⟨hlisted, -⟩ :=
      hsheets smallSheet _ hanswer (by decide +kernel) (by rw [hchanges]; decide)
    have hmerges : ¬ b.Merges smallSheet.path := by
      rintro ⟨path, ⟨c, hc, hmoves⟩, -⟩
      rw [hchanges] at hc
      obtain rfl | rfl : c = renameSheet ∨ c = moveSheet := by simpa using hc
      · exact absurd hmoves.action (by decide)
      · exact absurd hmoves.original (by decide)
    have hstays : ¬ b.Stays smallSheet.path := by
      intro h
      have hunplanned := h.unplanned
      rw [hchanges] at hunplanned
      exact absurd hunplanned (by decide)
    exact ⟨hmerges, hstays, fun h => (hlisted.1 h).elim hmerges hstays⟩

end

end WebMigration.Engine
