import Mathlib.Data.List.Nodup
import WebMigration.Proofs.Engine.Batch

/-!
# Which results of a batch are kept

The result of a file is kept under its new path, or under its own path if the new one is taken.  Its
own path may be taken too; then what is kept there is replaced.  So are results at the paths of
merged style sheets and of the style configuration.  This is told apart exactly: a result is lost
when one of these replaces it, and in no other way.
-/

namespace WebMigration.Engine

variable {σ : Type} {e : Engine σ} {job : Job} {spec : Specification} {changes : List FileChange}

/-! ### Keys -/

/-- The path at which a result should be kept. -/
def wanted (r : FileResult) : String := if r.newPath.isEmpty then r.path else r.newPath

/-- A result is put in place of what is kept at a key. -/
def Replaces (results : Results) (key : String) (r : FileResult) : Prop :=
  r.path = key ∧ results.has (wanted r) = true

/-- A result is kept at a taken key exactly when it replaces what is there. -/
theorem keyOf_eq_iff {results : Results} {key : String} {r : FileResult}
    (hkey : results.has key = true) : keyOf results r = key ↔ Replaces results key r := by
  show (if results.has (wanted r) then r.path else wanted r) = key ↔ _
  unfold Replaces
  split
  · rename_i h
    simp [h]
  · rename_i h
    refine iff_of_false ?_ fun hr => h hr.2
    rintro rfl
    exact h hkey

/-- The result of a file that is not moved is kept under the path of the file, taken or not. -/
theorem keyOf_of_own {results : Results} {r : FileResult} (h : r.newPath = r.path) :
    keyOf results r = r.path := by
  unfold keyOf
  rw [h, ite_self]
  exact ite_self _

/-! ### Keeping results one after the other -/

/-- A result that is not there does not come back while others are kept. -/
theorem get?_foldl_keep_ne {outcomes : List FileResult} {results : Results} {key : String}
    {r : FileResult} (h : results.get? key ≠ some r) (hne : ∀ x ∈ outcomes, x ≠ r) :
    (outcomes.foldl keep results).get? key ≠ some r := by
  refine List.foldlRecOn (motive := fun t : Results => t.get? key ≠ some r) _ _ h
    fun t ht x hx hget => ?_
  exact ht ((Table.get?_put_eq_some_of_ne t (hne x hx)).1 hget).1

/-- What holds at every place of a longer list holds at its head and at every place of its tail. -/
theorem forall_split_cons {α : Type} {x : α} {xs : List α} {P : List α → α → Prop} :
    (∀ before a after, x :: xs = before ++ a :: after → P before a) ↔
      P [] x ∧ ∀ before a after, xs = before ++ a :: after → P (x :: before) a := by
  constructor
  · intro h
    refine ⟨h [] x xs rfl, fun before a after hs => h (x :: before) a after ?_⟩
    rw [hs]
    rfl
  · rintro ⟨hx, hxs⟩ before a after hs
    cases before with
    | nil =>
      obtain ⟨rfl, -⟩ := List.cons.inj hs
      exact hx
    | cons y before =>
      obtain ⟨rfl, htail⟩ := List.cons.inj hs
      exact hxs before a after htail

/-- A result stays while others are kept exactly when none of them replaces it. -/
theorem get?_foldl_keep {outcomes : List FileResult} {results : Results} {key : String}
    {r : FileResult} (h : results.get? key = some r) (hne : ∀ x ∈ outcomes, x ≠ r) :
    (outcomes.foldl keep results).get? key = some r ↔
      ∀ before x after, outcomes = before ++ x :: after →
        ¬ Replaces (before.foldl keep results) key x := by
  -- On the results that follow; those kept before them are in the table.
  induction outcomes generalizing results with
  | nil => simp [h]
  | cons x rest ih =>
    have hrest : ∀ y ∈ rest, y ≠ r := fun y hy => hne y (List.mem_cons_of_mem _ hy)
    rw [forall_split_cons (P := fun before y => ¬ Replaces (before.foldl keep results) key y)]
    by_cases hx : keyOf results x = key
    · have hreplaces := (keyOf_eq_iff (Table.has_of_get? h)).1 hx
      refine iff_of_false ?_ fun hall => hall.1 hreplaces
      have hlost : (keep results x).get? key ≠ some r := by
        rw [keep, hx, Table.get?_put_self]
        exact fun hr => hne x List.mem_cons_self (Option.some.inj hr)
      rw [List.foldl_cons]
      exact get?_foldl_keep_ne hlost hrest
    · have hstays : (keep results x).get? key = some r := by
        rw [keep, Table.get?_put_of_ne _ _ hx]
        exact h
      rw [List.foldl_cons, ih hstays hrest]
      exact (and_iff_right (mt (keyOf_eq_iff (Table.has_of_get? h)).2 hx)).symm

/-! ### Results of files and generated results -/

/-- The first letter of the notes on a result. -/
def initial (r : FileResult) : Option Char := r.metadata.notes.head?.bind (·.toList.head?)

/-- The result is that of a file: without success, or with notes that start with the syntax pass. -/
def OfFile (r : FileResult) : Prop := r.success = false ∨ initial r = some 'A'

theorem initial_notes {w : Rewriting} {settings : ScoringSettings} {o : ValidationOutcome}
    {c : Int} : initial (w.result settings spec o c) = some 'A' := by
  show (w.notes spec).head?.bind (·.toList.head?) = some 'A'
  unfold Rewriting.notes passNote
  dsimp only
  split <;> simp

theorem Course.ofFile {file : FileRecord} {planned : Option String} {s s' : Logged σ}
    {r : FileResult} (h : Course e job file planned s r s') : OfFile r := by
  cases h with
  | unreadable => exact .inl rfl
  | failed => exact .inl rfl
  | concluded _ ht =>
    obtain ⟨w, o, c, -, -, -, rfl⟩ := transformContent_result ht
    exact .inr initial_notes

/-- A result of success with notes that start with a letter, as those on a generated file do. -/
def Stamped (letter : Char) (r : FileResult) : Prop := r.success = true ∧ initial r = some letter

theorem stamped_generated {letter : Char} {path : String} {code original : Option String}
    {role language note : String} {notes added : List String} {change : Option ChangeSummary}
    (hnote : note.toList.head? = some letter) :
    Stamped letter
      (.generated path code original role language spec (note :: notes) added change) :=
  ⟨rfl, hnote⟩

theorem Stamped.not_stamped {letter other : Char} {r : FileResult} (h : Stamped letter r)
    (hne : letter ≠ other) : ¬ Stamped other r :=
  fun h' => hne (Option.some.inj (h.2.symm.trans h'.2))

theorem Stamped.ne {letter : Char} {r r' : FileResult} (h : Stamped letter r)
    (h' : ¬ Stamped letter r') : r ≠ r' := by
  rintro rfl
  exact h' h

/-- The result of a file is not a generated one. -/
theorem OfFile.not_stamped {letter : Char} {r : FileResult} (hr : OfFile r) (hletter : letter ≠ 'A') :
    ¬ Stamped letter r := by
  rintro ⟨hsuccess, hinitial⟩
  rcases hr with hr | hr
  · rw [hr] at hsuccess
    cases hsuccess
  · exact hletter (Option.some.inj (hinitial.symm.trans hr))

/-! ### Generating files -/

section Generating

variable {lanes : LaneRegistry} {files : Contents} {results : Results} {key : String}
  {r : FileResult}

theorem stamped_mergedSheet (path : String) (sources : List String) :
    Stamped 'M' (mergedSheet lanes spec files path sources) :=
  stamped_generated (by simp)

/-- Merged style sheets replace what is at their paths. -/
theorem get?_withMergedSheets (hr : ¬ Stamped 'M' r) :
    (withMergedSheets lanes spec files changes results).get? key = some r ↔
      results.get? key = some r ∧ ∀ g ∈ mergeGroups files changes, g.1 ≠ key :=
  Table.get?_foldl_put fun _ _ => (stamped_mergedSheet _ _).ne hr

/-- A style sheet that stays as it is replaces nothing. -/
theorem get?_keepSheet {file : String × Option String} (hr : ¬ Stamped 'S' r) :
    (keepSheet spec changes results file).get? key = some r ↔ results.get? key = some r := by
  unfold keepSheet
  split
  · rename_i hfree
    rw [Table.get?_put_eq_some_of_ne _ ((stamped_generated (by simp)).ne hr)]
    refine and_iff_left_of_imp fun hget hfile => ?_
    subst hfile
    simp [Table.has_of_get? hget] at hfree
  · exact Iff.rfl

theorem get?_withKeptSheets (hr : ¬ Stamped 'S' r) :
    (withKeptSheets spec files changes results).get? key = some r ↔ results.get? key = some r :=
  List.foldlRecOn (motive := fun t : Results => t.get? key = some r ↔ results.get? key = some r) _ _
    Iff.rfl fun _ ht _ _ => (get?_keepSheet hr).trans ht

/-- A created file replaces nothing. -/
theorem get?_addCreated {c : FileChange} (hr : ¬ Stamped 'G' r) :
    (addCreated spec results c).get? key = some r ↔ results.get? key = some r := by
  unfold addCreated
  dsimp only
  split
  · exact Iff.rfl
  · rename_i hfree
    rw [createdNotes, List.cons_append, List.cons_append,
      Table.get?_put_eq_some_of_ne _ ((stamped_generated (by simp)).ne hr)]
    refine and_iff_left_of_imp fun hget hc => ?_
    subst hc
    simp [Table.has_of_get? hget] at hfree

theorem get?_withCreatedFiles (hr : ¬ Stamped 'G' r) :
    (withCreatedFiles spec changes results).get? key = some r ↔ results.get? key = some r :=
  List.foldlRecOn (motive := fun t : Results => t.get? key = some r ↔ results.get? key = some r) _ _
    Iff.rfl fun _ ht _ _ => (get?_addCreated hr).trans ht

/-- The style configuration replaces what is at its path. -/
theorem get?_withStyleConfig {merged : List String} (hr : ¬ Stamped 'G' r) :
    (withStyleConfig lanes spec merged results).get? key = some r ↔
      results.get? key = some r ∧ ∀ config ∈ styleConfig? lanes spec merged, config.1 ≠ key := by
  unfold withStyleConfig
  split
  · rename_i hnone
    simp [hnone]
  · rename_i path content hconfig
    rw [Table.get?_put_eq_some_of_ne _ ((stamped_generated (by simp)).ne hr), hconfig]
    simp

end Generating

/-- Generated files keep a result of a file, unless a merged style sheet or the style configuration
replaces it. -/
theorem get?_withGenerated {lanes : LaneRegistry} {files : Contents} {results : Results}
    {key : String} {r : FileResult} (hr : OfFile r) :
    (withGenerated lanes spec files changes results).get? key = some r ↔
      results.get? key = some r ∧ (∀ g ∈ mergeGroups files changes, g.1 ≠ key) ∧
        ∀ config ∈ styleConfig? lanes spec (mergedPaths files changes), config.1 ≠ key := by
  rw [withGenerated, get?_withStyleConfig (hr.not_stamped (by decide)),
    get?_withCreatedFiles (hr.not_stamped (by decide)),
    get?_withKeptSheets (hr.not_stamped (by decide)),
    get?_withMergedSheets (hr.not_stamped (by decide)), and_assoc]

/-! ### The results of a batch -/

namespace BatchTrace

variable {records : List FileRecord} {jobId : Option String} {s : Logged σ}
  (b : BatchTrace e records spec jobId s)

/-- Nothing replaces a result after it is kept: no later file whose own path is its key and whose
new path is taken, no merged style sheet and no style configuration. -/
structure Undisturbed (before : List FileResult) (r : FileResult) (after : List FileResult) :
    Prop where
  kept : ∀ between x rest, after = between ++ x :: rest →
    ¬ Replaces (b.keptAfter (before ++ r :: between)) (keyOf (b.keptAfter before) r) x
  merged : ∀ g ∈ mergeGroups b.files b.changes, g.1 ≠ keyOf (b.keptAfter before) r
  config : ∀ c ∈ styleConfig? e.lanes spec (mergedPaths b.files b.changes),
    c.1 ≠ keyOf (b.keptAfter before) r

theorem keptAfter_append (before between : List FileResult) (r : FileResult) :
    b.keptAfter (before ++ r :: between) = between.foldl keep (keep (b.keptAfter before) r) := by
  unfold keptAfter
  rw [List.foldl_append, List.foldl_cons]

/-- A result is found at the end at the key where it was kept, if nothing replaced it. -/
theorem get?_results {before after : List FileResult} {r : FileResult} {key : String}
    (ho : b.outcomes = before ++ r :: after) (hr : OfFile r)
    (hbefore : ∀ k, (b.keptAfter before).get? k ≠ some r) (hafter : ∀ x ∈ after, x ≠ r) :
    b.results.get? key = some r ↔
      key = keyOf (b.keptAfter before) r ∧ b.Undisturbed before r after := by
  unfold results
  rw [get?_withGenerated hr, ho, keptAfter_append]
  by_cases hkey : key = keyOf (b.keptAfter before) r
  · have hput : (keep (b.keptAfter before) r).get? key = some r := by
      rw [hkey, keep, Table.get?_put_self]
    rw [get?_foldl_keep hput hafter, hkey]
    constructor
    · rintro ⟨hkept, hmerged, hconfig⟩
      refine ⟨rfl, fun between x rest hs => ?_, hmerged, hconfig⟩
      rw [keptAfter_append]
      exact hkept between x rest hs
    · rintro ⟨-, hkept, hmerged, hconfig⟩
      refine ⟨fun between x rest hs => ?_, hmerged, hconfig⟩
      rw [← keptAfter_append]
      exact hkept between x rest hs
  · have hput : (keep (b.keptAfter before) r).get? key ≠ some r := by
      rw [keep, Table.get?_put_of_ne _ _ (Ne.symm hkey)]
      exact hbefore key
    exact iff_of_false (fun h => get?_foldl_keep_ne hput hafter h.1) fun h => hkey h.1

/-! ### Files with distinct paths -/

theorem nodup_files : (b.files.map (·.1)).Nodup := by
  suffices h : ∀ (answers : List Answer) (files : Contents), (files.map (·.1)).Nodup →
      ((answers.foldl addContent files).map (·.1)).Nodup from h b.answers [] List.nodup_nil
  intro answers
  induction answers with
  | nil => exact fun _ hfiles => hfiles
  | cons a rest ih =>
    intro files hfiles
    refine ih _ ?_
    unfold addContent
    split
    · exact Table.nodup_put hfiles _ _
    · exact hfiles

/-- A result of a file that could not be read is under the path of one that failed to answer. -/
theorem exists_of_mem_unread {x : String × FileResult} (hx : x ∈ b.unread) :
    ∃ a ∈ b.answers, ∃ fault, a.2 = .error fault ∧
      x = (a.1.path, unreadable spec a.1.path fault) := by
  suffices h : ∀ x ∈ b.unread, ∃ a ∈ b.answers, ∃ fault, a.2 = .error fault ∧
    x = (a.1.path, unreadable spec a.1.path fault) from h x hx
  refine List.foldlRecOn (motive := fun results : Results =>
    ∀ x ∈ results, ∃ a ∈ b.answers, ∃ fault, a.2 = .error fault ∧
      x = (a.1.path, unreadable spec a.1.path fault)) _ _
    (fun x hx => nomatch hx) fun results h a ha x hx => ?_
  unfold addUnreadable at hx
  split at hx
  · exact h x hx
  · rename_i fault hfault
    rcases Table.mem_put hx with rfl | hx
    · exact ⟨a, ha, fault, hfault, Prod.ext (keyOf_of_own rfl) rfl⟩
    · exact h x hx

/-- The outcomes are about the files that were transformed, in order. -/
theorem outcomes_paths :
    b.outcomes.map (·.path) = (queue b.files b.changes).map (·.1) :=
  map_path_of_produces b.produced

theorem nodup_outcomes : (b.outcomes.map (·.path)).Nodup := by
  rw [outcomes_paths]
  exact b.nodup_files.sublist (List.filter_sublist.map _)

/-- A file that was transformed is another one than those before and after it. -/
theorem outcome_ne {before after : List FileResult} {r : FileResult}
    (ho : b.outcomes = before ++ r :: after) : (∀ x ∈ before, x ≠ r) ∧ ∀ x ∈ after, x ≠ r := by
  have hnodup := b.nodup_outcomes
  rw [ho, List.map_append, List.map_cons, List.nodup_append, List.nodup_cons] at hnodup
  constructor
  · rintro x hx rfl
    exact hnodup.2.2 _ (List.mem_map_of_mem hx) _ List.mem_cons_self rfl
  · rintro x hx rfl
    exact hnodup.2.1.1 (List.mem_map_of_mem hx)

section

variable (hn : (records.map (·.path)).Nodup)

include hn

theorem nodup_answers : (b.answers.map (·.1.path)).Nodup := by
  have hpaths := congrArg (List.map (·.path)) b.answers_fst
  rw [List.map_map] at hpaths
  exact hpaths ▸ hn

/-- A content that was obtained is listed. -/
theorem get?_files {file : FileRecord} {content : Option String}
    (h : (file, .ok content) ∈ b.answers) : b.files.get? file.path = some content := by
  have hnodup := b.nodup_answers hn
  obtain ⟨before, after, hsplit⟩ := List.append_of_mem h
  unfold files obtained
  rw [hsplit, List.foldl_append, List.foldl_cons]
  rw [hsplit, List.map_append, List.map_cons, List.nodup_append, List.nodup_cons] at hnodup
  refine List.foldlRecOn (motive := fun files : Contents => files.get? file.path = some content) _ _
    (Table.get?_put_self ..) fun files hget a ha => ?_
  unfold addContent
  split
  · have hne : a.1.path ≠ file.path := by
      intro hpath
      exact hnodup.2.1.1 (List.mem_map.2 ⟨a, ha, hpath⟩)
    rw [Table.get?_put_of_ne _ _ hne]
    exact hget
  · exact hget

/-- The result of a file is not kept before the file is transformed. -/
theorem get?_keptAfter_ne {before after : List FileResult} {r : FileResult}
    (ho : b.outcomes = before ++ r :: after) {file : FileRecord} {content : Option String}
    (h : (file, .ok content) ∈ b.answers) (hr : r.path = file.path) (key : String) :
    (b.keptAfter before).get? key ≠ some r := by
  refine get?_foldl_keep_ne (fun hget => ?_) (b.outcome_ne ho).1
  obtain ⟨a, ha, fault, hfault, hx⟩ := b.exists_of_mem_unread (Table.mem_of_get? hget)
  obtain ⟨-, rfl⟩ := Prod.mk.inj hx
  have : a = (file, .ok content) := List.inj_on_of_nodup_map (b.nodup_answers hn) ha h hr
  rw [this] at hfault
  cases hfault

end

end BatchTrace

/-- **A file keeps its entry exactly when nothing replaces it.**  In a batch of files with distinct
paths, every file whose content was obtained, that is no style sheet and that the plan does not
delete has an outcome.  The outcome is found among the results exactly when it is undisturbed, and
then at the one key where it was kept. -/
theorem own_entry_iff {records : List FileRecord} {jobId : Option String} {s s' : Logged σ}
    {batch : BatchResult} (hn : (records.map (·.path)).Nodup)
    (h : e.transformBatch records spec jobId s = (.ok batch, s')) :
    ∃ b : BatchTrace e records spec jobId s, batch = .ofResults b.results ∧
      ∀ file content, (file, .ok content) ∈ b.answers → Structure.isStyleSheet file.path = false →
        deletes b.changes file.path = false →
        ∃ before r after, b.outcomes = before ++ r :: after ∧ r.path = file.path ∧
          Produces e (e.jobOf spec jobId) b.changes (file.path, content) r ∧
          ((∃ key, batch.results.get? key = some r) ↔ b.Undisturbed before r after) ∧
          ∀ key, batch.results.get? key = some r → key = keyOf (b.keptAfter before) r := by
  obtain ⟨b, rfl⟩ := transformBatch_ok h
  refine ⟨b, rfl, fun file content hfile hstyle hdelete => ?_⟩
  have hqueue : (file.path, content) ∈ queue b.files b.changes := by
    refine List.mem_filter.2 ⟨Table.mem_of_get? (b.get?_files hn hfile), ?_⟩
    simp [hstyle, hdelete]
  obtain ⟨before, r, after, ho, hproduces⟩ := exists_split_of_mem_left b.produced hqueue
  obtain ⟨t, u, hrun⟩ := hproduces
  have course := course_of_transformFor hrun
  have hbefore := b.get?_keptAfter_ne hn ho hfile course.path_eq
  have hget : ∀ key, b.results.get? key = some r ↔
      key = keyOf (b.keptAfter before) r ∧ b.Undisturbed before r after :=
    fun _ => b.get?_results ho course.ofFile hbefore (b.outcome_ne ho).2
  refine ⟨before, r, after, ho, course.path_eq, ⟨t, u, hrun⟩, ?_,
    fun key hkey => ((hget key).1 hkey).1⟩
  constructor
  · rintro ⟨key, hkey⟩
    exact ((hget key).1 hkey).2
  · exact fun hundisturbed => ⟨_, (hget _).2 ⟨rfl, hundisturbed⟩⟩

theorem laneOf?_laneless : LaneRegistry.builtIn.laneOf? laneless = none := by
  rw [← Option.isNone_iff_eq_none]
  decide +kernel

section

attribute [local instance] Module.Salvage.stopping

/-- Without a lane nothing is planned. -/
theorem plan_laneless (files : Contents) (s : Logged Unit) :
    plain.plan files laneless s = (.ok [], s) := by
  show (Except.ok (Structure.plan .builtIn files.texts laneless), s) = _
  rw [Structure.plan, laneOf?_laneless]

/-- Two scripts of which the first is moved to the path of the second. -/
def colliding : List FileRecord := [⟨"foo-bar.js", some "f()\n"⟩, ⟨"FooBar.tsx", some "g()\n"⟩]

/-- The batch of the two scripts answers with nothing about the first. -/
theorem exists_colliding_batch :
    ∃ batch s', plain.transformBatch colliding laneless none ⟨(), []⟩ = (.ok batch, s') ∧
      ∀ x ∈ batch.results, x.2.path ≠ "foo-bar.js" := by
  have lost : ((plain.transformBatch colliding laneless none ⟨(), []⟩).1.toOption.any
      fun batch => batch.results.all fun x => x.2.path != "foo-bar.js") = true := by decide +kernel
  obtain ⟨batch, s', h, hall⟩ := Run.ok_of_any lost
  refine ⟨batch, s', h, fun x hx => ?_⟩
  simpa using List.all_eq_true.1 hall x hx

/-- The first of two colliding scripts has no entry: the second one replaces it, since its own path
is the new path of the first. -/
theorem colliding_entry_lost :
    (colliding.map (·.path)).Nodup ∧
    colliding.all (fun file => !Structure.isStyleSheet file.path) = true ∧
    (∀ files s, plain.plan files laneless s = (.ok [], s)) ∧
    ∃ batch s', plain.transformBatch colliding laneless none ⟨(), []⟩ = (.ok batch, s') ∧
      ∀ x ∈ batch.results, x.2.path ≠ "foo-bar.js" :=
  ⟨by decide, by decide +kernel, plan_laneless, exists_colliding_batch⟩

/-- Nothing comes after the second of two colliding scripts. -/
theorem eq_nil_of_colliding {jobId : Option String} {s : Logged Unit}
    (b : BatchTrace plain colliding laneless jobId s) {before after : List FileResult}
    {r : FileResult} (ho : b.outcomes = before ++ r :: after) (hr : r.path = "FooBar.tsx") :
    after = [] := by
  have hchanges : b.changes = [] := b.changes_eq plan_laneless
  have hfiles : b.files = [("foo-bar.js", some "f()\n"), ("FooBar.tsx", some "g()\n")] := by
    rw [BatchTrace.files, b.answers_eq (by decide)]
    decide +kernel
  have hpaths := b.outcomes_paths
  rw [ho, hchanges, hfiles, List.map_append, List.map_cons, hr] at hpaths
  have hpaths : before.map (·.path) ++ "FooBar.tsx" :: after.map (·.path) =
      ["foo-bar.js", "FooBar.tsx"] := hpaths.trans (by decide +kernel)
  rcases before with _ | ⟨x, _ | ⟨y, before⟩⟩
  · simp at hpaths
  · have hends : x.path = "foo-bar.js" ∧ after = [] := by simpa using hpaths
    exact hends.2
  · simp at hpaths

/-- The entry of the first of two colliding scripts is replaced by that of the second one, which stays. -/
theorem own_entry_iff_colliding :
    (colliding.map (·.path)).Nodup ∧
    ∃ batch s', plain.transformBatch colliding laneless none ⟨(), []⟩ = (.ok batch, s') ∧
      ∃ b : BatchTrace plain colliding laneless none ⟨(), []⟩, batch = .ofResults b.results ∧
        (∃ before r after, b.outcomes = before ++ r :: after ∧ r.path = "foo-bar.js" ∧
          (¬ ∃ key, batch.results.get? key = some r) ∧ ¬ b.Undisturbed before r after) ∧
        ∃ before r after, b.outcomes = before ++ r :: after ∧ r.path = "FooBar.tsx" ∧
          (∃ key, batch.results.get? key = some r) ∧ b.Undisturbed before r after := by
  have hn : (colliding.map (·.path)).Nodup := by decide
  obtain ⟨batch, s', h, hlost⟩ := exists_colliding_batch
  obtain ⟨b, hb, hentry⟩ := own_entry_iff hn h
  have hchanges : b.changes = [] := b.changes_eq plan_laneless
  have hdeletes : ∀ path, deletes b.changes path = false := fun path => by rw [hchanges]; rfl
  refine ⟨hn, batch, s', h, b, hb, ?_, ?_⟩
  · obtain ⟨before, r, after, ho, hpath, -, hiff, -⟩ := hentry ⟨"foo-bar.js", some "f()\n"⟩ _
      (b.mem_answers List.mem_cons_self rfl) (by decide +kernel) (hdeletes _)
    have hno : ¬ ∃ key, batch.results.get? key = some r := by
      rintro ⟨key, hkey⟩
      exact hlost _ (Table.mem_of_get? hkey) hpath
    exact ⟨before, r, after, ho, hpath, hno, mt hiff.2 hno⟩
  · obtain ⟨before, r, after, ho, hpath, -, hiff, -⟩ := hentry ⟨"FooBar.tsx", some "g()\n"⟩ _
      (b.mem_answers (List.mem_cons_of_mem _ List.mem_cons_self) rfl) (by decide +kernel) (hdeletes _)
    obtain rfl := eq_nil_of_colliding b ho hpath
    have hstays : b.Undisturbed before r [] := by
      refine ⟨fun between x rest hs => ?_, fun g hg => ?_, fun c hc => ?_⟩
      · simp at hs
      · rw [hchanges] at hg
        cases hg
      · rw [hchanges] at hc
        cases hc
    exact ⟨before, r, [], ho, hpath, hiff.2 hstays, hstays⟩

end

end WebMigration.Engine
