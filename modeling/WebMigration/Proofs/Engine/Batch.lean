import Mathlib.Data.List.Forall2
import WebMigration.Engine.Batch
import WebMigration.Proofs.Engine.File
import WebMigration.Proofs.Table

/-!
# How a batch comes to its results

The run of a batch that answers is taken apart into what the files answered when they were read,
the changes that were planned, and one outcome for each file that was transformed.  The results are
made of these and of nothing else.
-/

namespace WebMigration.Engine

variable {σ : Type} {e : Engine σ} {spec : Specification} {job : Job} {changes : List FileChange}

/-! ### Reading the files -/

/-- What came of asking for the content of a file. -/
abbrev Answer := FileRecord × Except Fault (Option String)

/-- The contents with that of a file that could be read. -/
def addContent (files : Contents) (a : Answer) : Contents :=
  match a.2 with
  | .ok content => files.put a.1.path content
  | .error _ => files

/-- The result of a file that cannot be read. -/
def unreadable (spec : Specification) (path : String) (fault : Fault) : FileResult :=
  .failed path (some "") spec ("Batch transformation failed: " ++ fault.report.message)
    ("Critical error in batch: " ++ fault.report.message)

/-- The results with that of a file that could not be read. -/
def addUnreadable (spec : Specification) (results : Results) (a : Answer) : Results :=
  match a.2 with
  | .ok _ => results
  | .error fault => keep results (unreadable spec a.1.path fault)

/-- The contents that were obtained. -/
def obtained (answers : List Answer) : Contents := answers.foldl addContent []

/-- The results of the files that could not be read. -/
def unreadIn (spec : Specification) (answers : List Answer) : Results :=
  answers.foldl (addUnreadable spec) []

/-- Of an engine, reading the files depends on how it asks for a content. -/
theorem collect_congr (e e' : Engine σ) (h : e.contentOf = e'.contentOf) (spec : Specification)
    (records : List FileRecord) (files : Contents) (results : Results) :
    e.collect spec records files results = e'.collect spec records files results := by
  induction records generalizing files results with
  | nil => rfl
  | cons file rest ih =>
    rw [collect, collect, h]
    simp only [ih]

/-- Every file is asked once, in order; its answer decides where it is listed. -/
theorem collect_ok {records : List FileRecord} {files files' : Contents}
    {results results' : Results} {s s' : Logged σ}
    (h : e.collect spec records files results s = (.ok (files', results'), s')) :
    ∃ answers : List Answer, answers.map (·.1) = records ∧
      (∀ a ∈ answers, ∃ t u, e.contentOf a.1 t = (a.2, u)) ∧
      files' = answers.foldl addContent files ∧
      results' = answers.foldl (addUnreadable spec) results := by
  induction records generalizing files results s with
  | nil =>
    obtain ⟨hpair, -⟩ := Run.pure_ok.1 h
    obtain ⟨rfl, rfl⟩ := Prod.mk.inj hpair
    exact ⟨[], rfl, by simp, rfl, rfl⟩
  | cons file rest ih =>
    rw [collect, Run.bind_of_ok Run.attempt_eq] at h
    rcases hc : e.contentOf file s with ⟨fault | content, t⟩ <;>
      rw [hc] at h <;> dsimp only at h
    · obtain ⟨report, u, hr, h⟩ := Run.bind_ok.1 h
      have hreport : report = fault.report := by
        obtain ⟨-, _, -, hp⟩ := Run.bind_ok.1 hr
        exact (Run.pure_ok.1 hp).1.symm
      subst hreport
      obtain ⟨answers, rfl, hall, hfiles, hresults⟩ := ih h
      exact ⟨(file, .error fault) :: answers, rfl, by
        rintro a (_ | ⟨_, ha⟩)
        · exact ⟨s, t, hc⟩
        · exact hall a ha, hfiles, hresults⟩
    · obtain ⟨answers, rfl, hall, hfiles, hresults⟩ := ih h
      exact ⟨(file, .ok content) :: answers, rfl, by
        rintro a (_ | ⟨_, ha⟩)
        · exact ⟨s, t, hc⟩
        · exact hall a ha, hfiles, hresults⟩

/-! ### Transforming the files -/

/-- A file has a result as the outcome of its transformation. -/
def Produces (e : Engine σ) (job : Job) (changes : List FileChange) (f : String × Option String)
    (r : FileResult) : Prop :=
  ∃ t u, e.transformFor job ⟨f.1, f.2⟩ (plannedPath? changes f.1) t = (.ok r, u)

/-- What is related to a list elementwise has a partner for each of its elements. -/
theorem exists_of_mem_right {α β : Type} {R : α → β → Prop} {l₁ : List α} {l₂ : List β}
    (h : List.Forall₂ R l₁ l₂) {b : β} (hb : b ∈ l₂) : ∃ a ∈ l₁, R a b := by
  induction h with
  | nil => cases hb
  | cons hr _ ih =>
    rcases List.mem_cons.1 hb with rfl | hb
    · exact ⟨_, List.mem_cons_self, hr⟩
    · obtain ⟨a, ha, hab⟩ := ih hb
      exact ⟨a, List.mem_cons_of_mem _ ha, hab⟩

/-- The partner of an element, and what stands before and after it. -/
theorem exists_split_of_mem_left {α β : Type} {R : α → β → Prop} {l₁ : List α} {l₂ : List β}
    (h : List.Forall₂ R l₁ l₂) {a : α} (ha : a ∈ l₁) :
    ∃ before b after, l₂ = before ++ b :: after ∧ R a b := by
  induction h with
  | nil => cases ha
  | cons hr _ ih =>
    rcases List.mem_cons.1 ha with rfl | ha
    · exact ⟨[], _, _, rfl, hr⟩
    · obtain ⟨before, b, after, rfl, hab⟩ := ih ha
      exact ⟨_ :: before, b, after, rfl, hab⟩

theorem transformGroup_ok {files : Contents} {outcomes : List FileResult} {s s' : Logged σ}
    (h : e.transformGroup job changes files s = (.ok outcomes, s')) :
    List.Forall₂ (Produces e job changes) files outcomes := by
  induction files generalizing outcomes s s' with
  | nil =>
    rw [← (Run.pure_ok.1 h).1]
    exact .nil
  | cons f rest ih =>
    obtain ⟨r, t, hr, h⟩ := Run.bind_ok.1 h
    obtain ⟨rs, u, hrs, h⟩ := Run.bind_ok.1 h
    rw [← (Run.pure_ok.1 h).1]
    exact .cons ⟨s, t, hr⟩ (ih hrs)

/-- The outcomes are about the files that were transformed, in order. -/
theorem map_path_of_produces {files : Contents} {outcomes : List FileResult}
    (h : List.Forall₂ (Produces e job changes) files outcomes) :
    outcomes.map (·.path) = files.map (·.1) := by
  induction h with
  | nil => rfl
  | cons hr _ ih =>
    obtain ⟨t, u, hr⟩ := hr
    rw [List.map_cons, List.map_cons, ih, (course_of_transformFor hr).path_eq]

theorem keepGroup_ok {total done : Nat} {outcomes : List FileResult} {results results' : Results}
    {s s' : Logged σ} (h : e.keepGroup job total done outcomes results s = (.ok results', s')) :
    results' = outcomes.foldl keep results := by
  induction outcomes generalizing done results s with
  | nil => exact (Run.pure_ok.1 h).1.symm
  | cons r rest ih =>
    obtain ⟨-, t, -, h⟩ := Run.bind_ok.1 h
    exact ih h

theorem transformGroups_ok {total done : Nat} {groups : List Contents} {results results' : Results}
    {s s' : Logged σ}
    (h : e.transformGroups job changes total done groups results s = (.ok results', s')) :
    ∃ outcomes, List.Forall₂ (Produces e job changes) groups.flatten outcomes ∧
      results' = outcomes.foldl keep results := by
  induction groups generalizing done results s with
  | nil =>
    exact ⟨[], .nil, (Run.pure_ok.1 h).1.symm⟩
  | cons group rest ih =>
    obtain ⟨-, t, -, h⟩ := Run.bind_ok.1 h
    obtain ⟨outcomes, u, ho, h⟩ := Run.bind_ok.1 h
    obtain ⟨kept, v, hk, h⟩ := Run.bind_ok.1 h
    obtain ⟨others, hothers, rfl⟩ := ih h
    refine ⟨outcomes ++ others, ?_, ?_⟩
    · exact List.rel_append (transformGroup_ok ho) hothers
    · rw [List.foldl_append, keepGroup_ok hk]

/-- Groups of at least one item, and enough of them, hold all items. -/
theorem flatten_groupsUpTo {α : Type} {size fuel : Nat} {items : List α} (hs : 1 ≤ size)
    (hf : items.length ≤ fuel) : (groupsUpTo size fuel items).flatten = items := by
  induction fuel generalizing items with
  | zero =>
    rw [List.length_eq_zero_iff.1 (Nat.le_zero.1 hf)]
    rfl
  | succ fuel ih =>
    rw [groupsUpTo]
    split
    · rename_i h
      rw [List.isEmpty_iff.1 h]
      rfl
    · have : (items.drop size).length ≤ fuel := by
        rw [List.length_drop]
        omega
      rw [List.flatten_cons, ih this, List.take_append_drop]

theorem flatten_groups {α : Type} (size : Nat) (items : List α) :
    (groups size items).flatten = items :=
  flatten_groupsUpTo (Nat.le_max_left 1 size) (Nat.le_refl _)

/-! ### Generated files -/

/-- What putting a generated file at its path preserves is true after all files were generated. -/
theorem withGenerated_induction {T : Results → Prop} {lanes : LaneRegistry} {files : Contents}
    {results : Results}
    (hput : ∀ t path code original role language notes added change, T t →
      T (t.put path (.generated path code original role language spec notes added change)))
    (h : T results) : T (withGenerated lanes spec files changes results) := by
  have hmerged : T (withMergedSheets lanes spec files changes results) :=
    List.foldlRecOn (motive := T) _ _ h fun t ht g _ => hput _ _ _ _ _ _ _ _ _ ht
  have hsheets : ∀ t, T t → T (withKeptSheets spec files changes t) := by
    refine fun t ht => List.foldlRecOn (motive := T) _ _ ht fun t ht f _ => ?_
    unfold keepSheet
    split
    · exact hput _ _ _ _ _ _ _ _ _ ht
    · exact ht
  have hcreated : ∀ t, T t → T (withCreatedFiles spec changes t) := by
    refine fun t ht => List.foldlRecOn (motive := T) _ _ ht fun t ht c _ => ?_
    unfold addCreated
    dsimp only
    split
    · exact ht
    · exact hput _ _ _ _ _ _ _ _ _ ht
  unfold withGenerated withStyleConfig
  split
  · exact hcreated _ (hsheets _ hmerged)
  · exact hput _ _ _ _ _ _ _ _ _ (hcreated _ (hsheets _ hmerged))

/-! ### The batch -/

/-- What a batch that is started in a state is made of. -/
structure BatchTrace (e : Engine σ) (records : List FileRecord) (spec : Specification)
    (jobId : Option String) (s : Logged σ) where
  /-- What the files answered. -/
  answers : List Answer
  /-- The planned changes. -/
  changes : List FileChange
  /-- The results of the files that were transformed. -/
  outcomes : List FileResult
  answers_fst : answers.map (·.1) = records
  answered : ∀ a ∈ answers, ∃ t u, e.contentOf a.1 t = (a.2, u)
  produced : List.Forall₂ (Produces e (e.jobOf spec jobId) changes)
    (queue (obtained answers) changes) outcomes
  /-- The files were read, the changes were planned and the files were transformed one after the
  other. -/
  ran : ∃ t₁ t₂ t₃ t₄,
    e.collect spec records [] [] s = (.ok (obtained answers, unreadIn spec answers), t₁) ∧
    e.report jobId (planningReport (obtained answers).length) t₁ = (.ok (), t₂) ∧
    e.plan (obtained answers) spec t₂ = (.ok changes, t₃) ∧
    e.transformGroups (e.jobOf spec jobId) changes (queue (obtained answers) changes).length 0
      (groups e.settings.batch.size (queue (obtained answers) changes)) (unreadIn spec answers) t₃ =
        (.ok (outcomes.foldl keep (unreadIn spec answers)), t₄)

namespace BatchTrace

variable {records : List FileRecord} {jobId : Option String} {s : Logged σ}
  (b : BatchTrace e records spec jobId s)

/-- The contents that were obtained. -/
def files : Contents := obtained b.answers

/-- The results of the files that could not be read. -/
def unread : Results := unreadIn spec b.answers

/-- The results after some files were transformed. -/
def keptAfter (outcomes : List FileResult) : Results := outcomes.foldl keep b.unread

/-- All results. -/
def results : Results := withGenerated e.lanes spec b.files b.changes (b.keptAfter b.outcomes)

/-- A plan that depends on the contents alone is what was planned. -/
theorem changes_eq {plan : Contents → List FileChange}
    (hplan : ∀ files t, e.plan files spec t = (.ok (plan files), t)) : b.changes = plan b.files := by
  obtain ⟨t₁, t₂, t₃, t₄, -, -, hplanned, -⟩ := b.ran
  rw [hplan] at hplanned
  exact (Except.ok.inj (Prod.mk.inj hplanned).1).symm

/-- A file that comes with its content has answered with it. -/
theorem answer_eq {a : Answer} (ha : a ∈ b.answers) {text : String}
    (htext : a.1.content = some text) : a = (a.1, .ok (some text)) := by
  obtain ⟨t, u, hrun⟩ := b.answered a ha
  have hcontent : e.contentOf a.1 t = (.ok (some text), t) := by
    unfold contentOf
    rw [htext]
    rfl
  rw [hcontent, Run.end_inj] at hrun
  exact Prod.ext rfl hrun.1.symm

theorem mem_answers {file : FileRecord} {text : String} (hfile : file ∈ records)
    (htext : file.content = some text) : (file, .ok (some text)) ∈ b.answers := by
  obtain ⟨a, ha, rfl⟩ := List.mem_map.1 (b.answers_fst ▸ hfile)
  exact b.answer_eq ha htext ▸ ha

/-- Where all files come with their contents, these are the answers. -/
theorem answers_eq (h : ∀ file ∈ records, file.content.isSome = true) :
    b.answers = records.map fun file => (file, .ok file.content) := by
  have heach : ∀ a ∈ b.answers, (a.1, .ok a.1.content) = a := by
    intro a ha
    have hfile : a.1 ∈ records := b.answers_fst ▸ List.mem_map_of_mem ha
    obtain ⟨text, htext⟩ := Option.isSome_iff_exists.1 (h a.1 hfile)
    rw [htext]
    exact (b.answer_eq ha htext).symm
  calc b.answers
    _ = b.answers.map fun a => (a.1, .ok a.1.content) := by
        rw [List.map_congr_left heach, List.map_id']
    _ = (b.answers.map (·.1)).map fun file => (file, .ok file.content) := by
        rw [List.map_map]
        rfl
    _ = records.map fun file => (file, .ok file.content) := by rw [b.answers_fst]

/-- What holds of unreadable files and of transformed files holds of all results before others are
generated. -/
theorem all_kept {P : FileResult → Prop}
    (hunreadable : ∀ path fault, P (unreadable spec path fault))
    (hproduced : ∀ f r, Produces e (e.jobOf spec jobId) b.changes f r → P r) :
    (b.keptAfter b.outcomes).All P := by
  have hunread : b.unread.All P := by
    refine List.foldlRecOn (motive := Table.All P) _ _ (Table.all_nil P) fun results h a _ => ?_
    unfold addUnreadable
    split
    · exact h
    · exact h.put _ (hunreadable _ _)
  refine List.foldlRecOn (motive := Table.All P) _ _ hunread fun results h r hr => ?_
  obtain ⟨f, -, hf⟩ := exists_of_mem_right b.produced hr
  exact h.put _ (hproduced f r hf)

/-- What holds of unreadable files, of transformed files and of generated files holds of all
results. -/
theorem all_results {P : FileResult → Prop}
    (hunreadable : ∀ path fault, P (unreadable spec path fault))
    (hproduced : ∀ f r, Produces e (e.jobOf spec jobId) b.changes f r → P r)
    (hgenerated : ∀ path code original role language notes added change,
      P (.generated path code original role language spec notes added change)) :
    b.results.All P :=
  withGenerated_induction (T := Table.All P)
    (fun _ _ _ _ _ _ _ _ _ h => h.put _ (hgenerated ..)) (b.all_kept hunreadable hproduced)

end BatchTrace

/-! ### Batches that answer -/

/-- Collecting contents does not fail: a file that cannot be read has a result. -/
theorem collect_total (e : Engine σ) (spec : Specification) (records : List FileRecord)
    (files : Contents) (results : Results) : Run.Total (e.collect spec records files results) := by
  induction records generalizing files results with
  | nil => exact .pure _
  | cons file rest ih =>
    refine (Run.Total.attempt _).bind fun answer => ?_
    cases answer with
    | ok content => exact ih _ _
    | error fault =>
      have hreported : Run.Total (σ := σ) (reported fault) := fun s => ⟨_, _, rfl⟩
      exact hreported.bind fun _ => ih _ _

/-- Telling an observer does not fail, whether the observer does or not. -/
theorem tellObserver_total (e : Engine σ) (r : Progress.Report) : Run.Total (e.tellObserver r) := by
  unfold tellObserver
  split
  · exact (Run.Total.attempt _).bind fun _ => .pure ()
  · exact .pure ()

/-- Without a job only the observer is told. -/
theorem report_total (e : Engine σ) (r : Progress.Report) : Run.Total (e.report none r) := by
  refine (e.tellObserver_total r).bind fun _ => ?_
  unfold emit
  cases e.sink <;> exact .pure ()

theorem transformGroup_total (e : Engine σ) (job : Job) (changes : List FileChange)
    (files : Contents) : Run.Total (e.transformGroup job changes files) := by
  induction files with
  | nil => exact .pure []
  | cons f rest ih =>
    have hfile : Run.Total (e.transformFor job ⟨f.1, f.2⟩ (plannedPath? changes f.1)) := fun s =>
      have ⟨r, t, h, _⟩ := e.transformFor_course job ⟨f.1, f.2⟩ (plannedPath? changes f.1) s
      ⟨r, t, h⟩
    exact hfile.bind fun _ => ih.bind fun _ => .pure _

section Jobless

variable (hjob : job.id = none)

include hjob

theorem keepGroup_total (e : Engine σ) (total done : Nat) (outcomes : List FileResult)
    (results : Results) : Run.Total (e.keepGroup job total done outcomes results) := by
  induction outcomes generalizing done results with
  | nil => exact .pure results
  | cons r rest ih =>
    rw [keepGroup, hjob]
    exact (report_total e _).bind fun _ => ih _ _

theorem transformGroups_total (e : Engine σ) (changes : List FileChange) (total done : Nat)
    (groups : List Contents) (results : Results) :
    Run.Total (e.transformGroups job changes total done groups results) := by
  induction groups generalizing done results with
  | nil => exact .pure results
  | cons group rest ih =>
    rw [transformGroups, hjob]
    exact (report_total e _).bind fun _ => (transformGroup_total e job changes group).bind fun _ =>
      (keepGroup_total hjob e _ _ _ _).bind fun _ => ih _ _

end Jobless

/-- **Without a job a batch fails at most with its planning.** -/
theorem transformBatch_total (hplan : ∀ files, Run.Total (e.plan files spec))
    (records : List FileRecord) : Run.Total (e.transformBatch records spec none) := by
  unfold transformBatch
  refine (collect_total e spec records [] []).bind fun collected => ?_
  refine (report_total e _).bind fun _ => (hplan _).bind fun changes => ?_
  refine (transformGroups_total rfl e changes _ 0 _ _).bind fun transformed => ?_
  refine (report_total e _).bind fun _ => (report_total e _).bind fun _ => ?_
  refine Run.Total.bind ?_ fun _ => .pure _
  unfold emit
  cases e.sink <;> exact .pure ()

/-! ### The results of a batch that answers -/

/-- **A batch that answers has the results of its trace.** -/
theorem transformBatch_ok {records : List FileRecord} {jobId : Option String} {s s' : Logged σ}
    {batch : BatchResult} (h : e.transformBatch records spec jobId s = (.ok batch, s')) :
    ∃ b : BatchTrace e records spec jobId s, batch = .ofResults b.results := by
  unfold transformBatch at h
  obtain ⟨⟨files, unread⟩, t₁, hcollect, h⟩ := Run.bind_ok.1 h
  obtain ⟨⟨⟩, t₂, hreport, h⟩ := Run.bind_ok.1 h
  obtain ⟨changes, t₃, hplan, h⟩ := Run.bind_ok.1 h
  obtain ⟨transformed, t₄, hgroups, h⟩ := Run.bind_ok.1 h
  obtain ⟨-, t₅, -, h⟩ := Run.bind_ok.1 h
  obtain ⟨-, t₆, -, h⟩ := Run.bind_ok.1 h
  obtain ⟨-, t₇, -, h⟩ := Run.bind_ok.1 h
  obtain ⟨answers, hrecords, hanswers, rfl, rfl⟩ := collect_ok hcollect
  obtain ⟨outcomes, houtcomes, rfl⟩ := transformGroups_ok hgroups
  rw [flatten_groups] at houtcomes
  exact ⟨⟨answers, changes, outcomes, hrecords, hanswers, houtcomes,
    t₁, t₂, t₃, t₄, hcollect, hreport, hplan, hgroups⟩, (Run.pure_ok.1 h).1.symm⟩

end WebMigration.Engine
