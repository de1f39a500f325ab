import WebMigration.Proofs.Engine.Grouping

/-!
# What is told about the progress of a batch

The reports of a batch follow from the files that it works on: they start with the planning, raise
the count of files done by one for each file, and end when all are done.  Whoever is told keeps a
book; a run that returns has added exactly these reports to it, whether those who were told failed
or not.

The results do not depend on who is told.  Everyone else works on a part of the state that observers
and sinks leave alone, so that two runs with different audiences go through the same parts.
-/

namespace WebMigration.Engine

open Progress (Report Message)
open Run (Keeps Alike DependsOn)

variable {σ τ : Type}

/-! ### The reports of a batch -/

/-- Told before a group of files is transformed. -/
def groupReport (total done : ℕ) (names : List String) : Report :=
  ⟨.transforming, done, total, "Transforming " ++ Text.join ", " names⟩

/-- Told after a file was transformed, with the number of files before it. -/
def fileReport (total : ℕ) (file : String × ℕ) : Report :=
  ⟨.transforming, file.2 + 1, total, "Transformed " ++ file.1⟩

/-- What is told about files one after the other. -/
def fileReports (total done : ℕ) (names : List String) : List Report :=
  (names.zipIdx done).map (fileReport total)

/-- What is told about groups of files. -/
def groupReports (total : ℕ) : ℕ → List (List String) → List Report
  | _, [] => []
  | done, names :: rest =>
      groupReport total done names :: fileReports total done names ++
        groupReports total (done + names.length) rest

/-- Told before files are generated. -/
def generatingReport (total : ℕ) : Report :=
  ⟨.postProcessing, total, total, "Merging style sheets and generating scaffolds"⟩

/-- Told when all results are there. -/
def completeReport (total : ℕ) : Report :=
  ⟨.complete, total, total, "Transformed " ++ fileCount total⟩

/-- What is told about a batch. -/
def batchReports (files : ℕ) (groups : List (List String)) (total : ℕ) : List Report :=
  planningReport files :: groupReports total 0 groups ++
    [generatingReport total, completeReport total]

/-- The reports that raise the count of files done, each with the count before it. -/
def raising : ℕ → List Report → List (ℕ × Report)
  | _, [] => []
  | last, r :: rest =>
      if last < r.current then (last, r) :: raising r.current rest else raising r.current rest

/-- What the reports of a batch keep to that transforms some files. -/
structure Protocol (names : List String) (reports : List Report) : Prop where
  starts : ∃ r ∈ reports.head?, r.stage = .planning ∧ r.current = 0
  bounded : ∀ r ∈ reports, r.current ≤ r.total
  monotone : reports.Pairwise fun r r' => r.current ≤ r'.current
  /-- Each file has one report that raises the count, and it raises it by one. -/
  advances : raising 0 reports =
    names.zipIdx.map fun file => (file.2, fileReport names.length file)
  ends : ∃ r ∈ reports.getLast?,
    r.stage = .complete ∧ r.current = names.length ∧ r.total = names.length

section Reports

variable {total done : ℕ} {names : List String} {groups : List (List String)} {r : Report}
  {more : List Report}

theorem mem_fileReports (h : r ∈ fileReports total done names) :
    done < r.current ∧ r.current ≤ done + names.length ∧ r.total = total := by
  obtain ⟨file, hfile, rfl⟩ := List.mem_map.1 h
  obtain ⟨hlow, hhigh, -⟩ := List.mem_zipIdx hfile
  exact ⟨Nat.lt_succ_of_le hlow, hhigh, rfl⟩

theorem mem_groupReports (h : r ∈ groupReports total done groups) :
    done ≤ r.current ∧ r.current ≤ done + groups.flatten.length ∧ r.total = total := by
  induction groups generalizing done with
  | nil => cases h
  | cons names rest ih =>
    rw [List.flatten_cons, List.length_append]
    rcases List.mem_append.1 h with h | h
    · rcases List.mem_cons.1 h with rfl | h
      · exact ⟨Nat.le_refl _, Nat.le_add_right _ _, rfl⟩
      · obtain ⟨hlow, hhigh, htotal⟩ := mem_fileReports h
        exact ⟨by omega, by omega, htotal⟩
    · obtain ⟨hlow, hhigh, htotal⟩ := ih h
      exact ⟨by omega, by omega, htotal⟩

theorem fileReports_cons (name : String) :
    fileReports total done (name :: names) =
      fileReport total (name, done) :: fileReports total (done + 1) names := rfl

theorem pairwise_fileReports :
    (fileReports total done names).Pairwise fun r r' => r.current ≤ r'.current := by
  induction names generalizing done with
  | nil => exact .nil
  | cons name rest ih => exact .cons (fun r hr => Nat.le_of_lt (mem_fileReports hr).1) ih

theorem pairwise_groupReports :
    (groupReports total done groups).Pairwise fun r r' => r.current ≤ r'.current := by
  induction groups generalizing done with
  | nil => exact .nil
  | cons names rest ih =>
    have bounds : ∀ r ∈ groupReport total done names :: fileReports total done names,
        done ≤ r.current ∧ r.current ≤ done + names.length := by
      rintro r (_ | ⟨_, hr⟩)
      · exact ⟨Nat.le_refl _, Nat.le_add_right _ _⟩
      · exact ⟨Nat.le_of_lt (mem_fileReports hr).1, (mem_fileReports hr).2.1⟩
    refine List.pairwise_append.2 ⟨?_, ih, fun r hr r' hr' => ?_⟩
    · exact .cons (fun r hr => (bounds r (List.mem_cons_of_mem _ hr)).1) pairwise_fileReports
    · exact Nat.le_trans (bounds r hr).2 (mem_groupReports hr').1

/-- A report that does not raise the count is passed over. -/
theorem raising_cons_of_eq {last : ℕ} (h : r.current = last) :
    raising last (r :: more) = raising last more := by
  rw [raising, h, if_neg (Nat.lt_irrefl last)]

theorem raising_fileReports : raising done (fileReports total done names ++ more) =
    (names.zipIdx done).map (fun file => (file.2, fileReport total file)) ++
      raising (done + names.length) more := by
  induction names generalizing done with
  | nil => rfl
  | cons name rest ih =>
    have raised : done < (fileReport total (name, done)).current := Nat.lt_succ_self done
    have next := @ih (done + 1)
    rw [Nat.add_right_comm, Nat.add_assoc] at next
    rw [fileReports_cons, List.cons_append, raising, if_pos raised]
    exact congrArg _ next

theorem raising_groupReports : raising done (groupReports total done groups ++ more) =
    (groups.flatten.zipIdx done).map (fun file => (file.2, fileReport total file)) ++
      raising (done + groups.flatten.length) more := by
  induction groups generalizing done with
  | nil => rfl
  | cons names rest ih =>
    have passed : (groupReport total done names).current = done := rfl
    rw [groupReports, List.cons_append, List.cons_append, raising_cons_of_eq passed,
      List.append_assoc, raising_fileReports, ih, List.flatten_cons, List.zipIdx_append,
      List.map_append, List.length_append, List.append_assoc, Nat.add_assoc]

/-- The reports of a batch keep to the protocol for the files in its groups. -/
theorem batchReports_protocol (files : ℕ) (groups : List (List String)) :
    Protocol groups.flatten (batchReports files groups groups.flatten.length) where
  starts := ⟨_, rfl, rfl, rfl⟩
  bounded := by
    intro r hr
    rcases List.mem_cons.1 hr with rfl | hr
    · exact Nat.zero_le _
    · rcases List.mem_append.1 hr with hr | hr
      · obtain ⟨-, hhigh, htotal⟩ := mem_groupReports hr
        omega
      · simp only [List.mem_cons, List.not_mem_nil, or_false] at hr
        rcases hr with rfl | rfl
        · exact Nat.le_refl _
        · exact Nat.le_refl _
  monotone := by
    refine .cons (fun _ _ => Nat.zero_le _) (List.pairwise_append.2 ⟨pairwise_groupReports, ?_, ?_⟩)
    · exact .cons (by simp [generatingReport, completeReport]) (.cons (by simp) .nil)
    · intro r hr r' hr'
      obtain ⟨-, hhigh, -⟩ := mem_groupReports hr
      rw [Nat.zero_add] at hhigh
      simp only [List.mem_cons, List.not_mem_nil, or_false] at hr'
      rcases hr' with rfl | rfl
      · exact hhigh
      · exact hhigh
  advances := by
    have planned : (planningReport files).current = 0 := rfl
    rw [batchReports, List.cons_append, raising_cons_of_eq planned, raising_groupReports,
      Nat.zero_add, raising_cons_of_eq (by rfl), raising_cons_of_eq (by rfl), raising,
      List.append_nil]
  ends := ⟨completeReport _, by rw [batchReports, List.getLast?_append]; rfl, rfl, rfl, rfl⟩

end Reports

/-! ### Those who are told -/

/-- Those who are told about a batch, and the clock that they are told the time from. -/
structure Audience (σ : Type) where
  observer : Option (Report → Run σ Unit) := none
  sink : Option (String → Message → Run σ Unit) := none
  clock : Run σ Int := pure 0

/-- The engine with other ones to tell. -/
def withAudience (e : Engine σ) (a : Audience σ) : Engine σ :=
  { e with observer := a.observer, sink := a.sink, clock := a.clock }

/-- What observer and sink were given. -/
structure Book where
  told : List Report := []
  sent : List (String × Message) := []

namespace Audience

variable {a : Audience σ} {book : σ → Book} {part : σ → τ} {jobId : Option String}

/-- Whatever observer and sink are given is in the book, also when they fail. -/
structure Records (a : Audience σ) (book : σ → Book) : Prop where
  observer : ∀ observer ∈ a.observer, ∀ r s,
    book (observer r s).2.state = { book s.state with told := (book s.state).told ++ [r] }
  sink : ∀ sink ∈ a.sink, ∀ id m s,
    book (sink id m s).2.state = { book s.state with sent := (book s.state).sent ++ [(id, m)] }
  clock : Keeps book _ a.clock

/-- Observer and sink leave a part of the state alone, and the clock can be read. -/
structure Apart (a : Audience σ) (part : σ → τ) : Prop where
  observer : ∀ observer ∈ a.observer, ∀ r, Keeps part _ (observer r)
  sink : ∀ sink ∈ a.sink, ∀ id m, Keeps part _ (sink id m)
  clock : Keeps part _ a.clock
  readable : Run.Total a.clock

/-- Whether the events of a job reach someone. -/
def reaches (a : Audience σ) (jobId : Option String) : Bool :=
  a.sink.isSome && jobId.any fun id => !id.isEmpty

/-- The event that a report is sent as. -/
def Announces (jobId : Option String) (r : Report) (sent : String × Message) : Prop :=
  jobId = some sent.1 ∧ ∃ time, sent.2 = .about "progress" sent.1 r.text time r.data

/-- Reports that someone hears or no one. -/
def heard (present : Bool) (reports : List Report) : List Report :=
  if present then reports else []

theorem heard_append (present : Bool) (reports reports' : List Report) :
    heard present (reports ++ reports') = heard present reports ++ heard present reports' := by
  cases present <;> rfl

/-- A book with some reports more than another. -/
structure Adds (a : Audience σ) (jobId : Option String) (reports : List Report) (b b' : Book) :
    Prop where
  told : b'.told = b.told ++ heard a.observer.isSome reports
  sent : ∃ sent, List.Forall₂ (Announces jobId) (heard (a.reaches jobId) reports) sent ∧
    b'.sent = b.sent ++ sent

namespace Adds

variable {reports reports' : List Report} {b b' b'' : Book}

theorem of_eq (h : b' = b) : a.Adds jobId [] b b' := by
  subst h
  have none (present : Bool) : heard present [] = [] := ite_self _
  exact ⟨by rw [none, List.append_nil], [], by rw [none]; exact .nil, (List.append_nil _).symm⟩

theorem append (h : a.Adds jobId reports b b') (h' : a.Adds jobId reports' b' b'') :
    a.Adds jobId (reports ++ reports') b b'' := by
  obtain ⟨sent, hsent, hb⟩ := h.sent
  obtain ⟨sent', hsent', hb'⟩ := h'.sent
  refine ⟨?_, sent ++ sent', ?_, ?_⟩
  · rw [h'.told, h.told, heard_append, List.append_assoc]
  · rw [heard_append]
    exact List.rel_append hsent hsent'
  · rw [hb', hb, List.append_assoc]

end Adds

end Audience

section Told

open Audience

variable {e : Engine σ} {a : Audience σ} {book : σ → Book} {jobId : Option String}
  {s s' : Logged σ} (ha : a.Records book)

include ha

theorem tellObserver_records {r : Report}
    (h : (e.withAudience a).tellObserver r s = (.ok (), s')) :
    book s'.state =
      { book s.state with told := (book s.state).told ++ heard a.observer.isSome [r] } := by
  unfold tellObserver withAudience at h
  rcases hobserver : a.observer with - | observer <;> rw [hobserver] at h
  · rw [(Run.pure_ok.1 h).2]
    exact (congrArg (Book.mk · _) (List.append_nil _)).symm
  · obtain ⟨answer, t, hattempt, h⟩ := Run.bind_ok.1 h
    rw [Run.attempt_eq] at hattempt
    rw [← (Run.pure_ok.1 h).2, ← (Run.end_inj.1 hattempt).2]
    exact ha.observer observer hobserver r s

/-- Either an event reaches no one and nothing happens, or it is sent. -/
theorem emit_records {message : String → Int → Message}
    (h : (e.withAudience a).emit jobId message s = (.ok (), s')) :
    (a.reaches jobId = false ∧ s' = s) ∨ ∃ id time, a.reaches jobId = true ∧ jobId = some id ∧
      book s'.state =
        { book s.state with sent := (book s.state).sent ++ [(id, message id time)] } := by
  unfold emit withAudience at h
  rcases hsink : a.sink with - | sink <;> rw [hsink] at h
  · exact .inl ⟨by rw [reaches, hsink]; rfl, (Run.pure_ok.1 h).2.symm⟩
  rcases jobId with - | id
  · exact .inl ⟨by rw [reaches, hsink]; rfl, (Run.pure_ok.1 h).2.symm⟩
  have hreaches : a.reaches (some id) = !id.isEmpty := by rw [reaches, hsink]; rfl
  dsimp only at h
  split at h
  · rename_i hempty
    exact .inl ⟨by rw [hreaches, hempty]; rfl, (Run.pure_ok.1 h).2.symm⟩
  · rename_i hid
    obtain ⟨time, t, htime, h⟩ := Run.bind_ok.1 h
    obtain ⟨answer, u, hattempt, h⟩ := Run.bind_ok.1 h
    rw [Run.attempt_eq] at hattempt
    refine .inr ⟨id, time, by rw [hreaches, Bool.eq_false_iff.2 hid]; rfl, rfl, ?_⟩
    rw [← (Run.pure_ok.1 h).2, ← (Run.end_inj.1 hattempt).2, ha.sink sink hsink,
      ha.clock.of_eq htime]

/-- A report is added to the book. -/
theorem report_adds {r : Report} (h : (e.withAudience a).report jobId r s = (.ok (), s')) :
    a.Adds jobId [r] (book s.state) (book s'.state) := by
  obtain ⟨⟨⟩, t, htell, h⟩ := Run.bind_ok.1 h
  have told := tellObserver_records ha htell
  obtain ⟨hreaches, rfl⟩ | ⟨id, time, hreaches, rfl, sent⟩ := emit_records ha h
  · rw [told]
    exact ⟨rfl, [], by rw [hreaches]; exact .nil, (List.append_nil _).symm⟩
  · rw [sent, told]
    refine ⟨rfl, _, ?_, rfl⟩
    rw [hreaches]
    exact .cons ⟨rfl, time, rfl⟩ .nil

/-- Every result of a group is reported when it is kept. -/
theorem keepGroup_adds {job : Job} {total done : ℕ} {outcomes : List FileResult}
    {results results' : Results}
    (h : (e.withAudience a).keepGroup job total done outcomes results s = (.ok results', s')) :
    a.Adds job.id (fileReports total done (outcomes.map (·.path))) (book s.state)
      (book s'.state) := by
  induction outcomes generalizing done results s with
  | nil => exact .of_eq (congrArg (fun t => book t.state) (Run.pure_ok.1 h).2.symm)
  | cons r rest ih =>
    obtain ⟨⟨⟩, t, hreport, h⟩ := Run.bind_ok.1 h
    exact (report_adds ha hreport).append (ih h)

end Told

/-! ### Everyone else -/

/-- The collaborators of an engine, those aside who are told about a batch, are of two kinds. -/
structure WorkedBy (e : Engine σ) (P : Run.Kind σ) (W : Run.Kind (Work σ)) : Prop
    extends MadeOf e P W where
  plan : ∀ files spec, P _ (e.plan files spec)

theorem MadeOf.withAudience {e : Engine σ} {P : Run.Kind σ} {W : Run.Kind (Work σ)}
    (h : e.MadeOf P W) (a : Audience σ) : (e.withAudience a).MadeOf P W :=
  { isReady := h.isReady
    transform := h.transform
    semanticRecovery := h.semanticRecovery
    rewrite := h.rewrite
    judge := h.judge
    fetch := h.fetch
    rewriteRecovery := h.rewriteRecovery }

section Reported

open Audience

variable {e : Engine σ} {a : Audience σ} {book : σ → Book} {s s' : Logged σ}
  (ha : a.Records book) (he : e.WorkedBy (Keeps book) (Keeps (book ∘ Work.outside)))

include ha he

/-- The names of a group, and of the files in it that were transformed, are reported. -/
theorem transformGroups_adds {job : Job} {changes : List FileChange} {total done : ℕ}
    {groups : List Contents} {results results' : Results}
    (h : (e.withAudience a).transformGroups job changes total done groups results s =
      (.ok results', s')) :
    a.Adds job.id (groupReports total done (groups.map fun group => group.map (·.1)))
      (book s.state) (book s'.state) := by
  induction groups generalizing done results s with
  | nil => exact .of_eq (congrArg (fun t => book t.state) (Run.pure_ok.1 h).2.symm)
  | cons group rest ih =>
    obtain ⟨⟨⟩, t, hreport, h⟩ := Run.bind_ok.1 h
    obtain ⟨outcomes, u, htransform, h⟩ := Run.bind_ok.1 h
    obtain ⟨kept, v, hkeep, h⟩ := Run.bind_ok.1 h
    have names : outcomes.map (·.path) = group.map (·.1) :=
      map_path_of_produces (transformGroup_ok htransform)
    have silent : book u.state = book t.state :=
      (transformGroup_closed (keeps_paired book) (he.toMadeOf.withAudience a) _ _ _).of_eq
        htransform
    have told := report_adds ha hreport
    have kept := keepGroup_adds ha hkeep
    rw [names, silent] at kept
    have later := ih h
    rw [List.map_cons, groupReports, List.length_map]
    exact (told.append kept).append later

/-- A batch that answers has told its reports, and then that it is complete. -/
theorem transformBatch_adds {records : List FileRecord} {spec : Specification}
    {jobId : Option String} {batch : BatchResult}
    (h : (e.withAudience a).transformBatch records spec jobId s = (.ok batch, s')) :
    ∃ b : BatchTrace (e.withAudience a) records spec jobId s, batch = .ofResults b.results ∧
      ∃ reports, Protocol ((queue b.files b.changes).map (·.1)) reports ∧
        ∃ t, a.Adds jobId reports (book s.state) (book t) ∧
          ((a.reaches jobId = false ∧ s'.state = t) ∨
            ∃ id time, a.reaches jobId = true ∧ jobId = some id ∧ book s'.state = { book t with
              sent := (book t).sent ++ [(id, completion batch.statistics id time)] }) := by
  obtain ⟨b, hbatch⟩ := transformBatch_ok h
  refine ⟨b, hbatch, ?_⟩
  unfold transformBatch at h
  obtain ⟨⟨files, unread⟩, t₁, hcollect, h⟩ := Run.bind_ok.1 h
  obtain ⟨⟨⟩, t₂, hplanning, h⟩ := Run.bind_ok.1 h
  obtain ⟨changes, t₃, hplan, h⟩ := Run.bind_ok.1 h
  obtain ⟨transformed, t₄, hgroups, h⟩ := Run.bind_ok.1 h
  obtain ⟨⟨⟩, t₅, hgenerating, h⟩ := Run.bind_ok.1 h
  obtain ⟨⟨⟩, t₆, hcomplete, h⟩ := Run.bind_ok.1 h
  obtain ⟨⟨⟩, t₇, hcompletion, h⟩ := Run.bind_ok.1 h
  obtain ⟨rfl, rfl⟩ := Run.pure_ok.1 h
  -- The run is the one that the trace tells of.
  obtain ⟨u₁, u₂, u₃, u₄, hcollect', hplanning', hplan', -⟩ := b.ran
  obtain ⟨hcollected, rfl⟩ := Run.answer_unique hcollect hcollect'
  obtain ⟨rfl, rfl⟩ := Prod.mk.inj hcollected
  obtain ⟨-, rfl⟩ := Run.answer_unique hplanning hplanning'
  obtain ⟨rfl, rfl⟩ := Run.answer_unique hplan hplan'
  have hnames : ((groups e.settings.batch.size (queue b.files b.changes)).map
      fun group => group.map (·.1)).flatten = (queue b.files b.changes).map (·.1) := by
    rw [← List.map_flatten, flatten_groups]
  have protocol := batchReports_protocol b.files.length
    ((groups e.settings.batch.size (queue b.files b.changes)).map fun group => group.map (·.1))
  have collected : book t₁.state = book s.state :=
    (collect_closed (keeps_paired book) (he.toMadeOf.withAudience a) _ _ _ _).of_eq hcollect
  have planned : book t₃.state = book t₂.state := (he.plan _ _).of_eq hplan
  have told := report_adds ha hplanning
  have grouped := transformGroups_adds ha he hgroups
  rw [collected] at told
  rw [planned] at grouped
  rw [hnames, List.length_map] at protocol
  refine ⟨_, protocol, t₆.state, ?_, ?_⟩
  · exact (told.append grouped).append
      ((report_adds ha hgenerating).append (report_adds ha hcomplete))
  · exact (emit_records ha hcompletion).imp_left fun h => ⟨h.1, congrArg Logged.state h.2⟩

end Reported

/-! ### Other ones to tell -/

theorem transformFor_withAudience (e : Engine σ) (a : Audience σ) (job : Job) (file : FileRecord)
    (planned : Option String) :
    (e.withAudience a).transformFor job file planned = e.transformFor job file planned := rfl

theorem transformGroup_withAudience (e : Engine σ) (a : Audience σ) (job : Job)
    (changes : List FileChange) (files : Contents) :
    (e.withAudience a).transformGroup job changes files = e.transformGroup job changes files := by
  induction files with
  | nil => rfl
  | cons f rest ih => rw [transformGroup, transformGroup, ih, transformFor_withAudience]

section Audiences

variable {e : Engine σ} {a a' : Audience σ} {part : σ → τ} (ha : a.Apart part) (ha' : a'.Apart part)

theorem emit_total (hclock : Run.Total e.clock) (jobId : Option String)
    (message : String → Int → Message) : Run.Total (e.emit jobId message) := by
  unfold emit
  split
  · split
    · exact .pure ()
    · exact hclock.bind fun _ => (Run.Total.attempt _).bind fun _ => .pure ()
  · exact .pure ()

theorem report_total_of_clock (hclock : Run.Total e.clock) (jobId : Option String) (r : Report) :
    Run.Total (e.report jobId r) :=
  (e.tellObserver_total r).bind fun _ => emit_total hclock _ _

include ha in
theorem Audience.Apart.heardBy : (e.withAudience a).HeardBy (Keeps part) :=
  ⟨ha.observer, ha.sink, ha.clock⟩

include ha ha'

/-- Whoever is sent an event, the rest goes on in the same way. -/
theorem emit_alike (jobId : Option String) (message message' : String → Int → Message) :
    Alike part ((e.withAudience a).emit jobId message)
      ((e.withAudience a').emit jobId message') :=
  .of_keeps (emit_total ha.readable _ _) (emit_total ha'.readable _ _)
    (emit_closed (keeps_paired part) ha.heardBy _ _)
    (emit_closed (keeps_paired part) ha'.heardBy _ _)

theorem report_alike (jobId : Option String) (r : Report) :
    Alike part ((e.withAudience a).report jobId r) ((e.withAudience a').report jobId r) :=
  .of_keeps (report_total_of_clock ha.readable _ _) (report_total_of_clock ha'.readable _ _)
    (report_closed (keeps_paired part) ha.heardBy _ _)
    (report_closed (keeps_paired part) ha'.heardBy _ _)

theorem keepGroup_alike (job : Job) (total done : ℕ) (outcomes : List FileResult)
    (results : Results) :
    Alike part ((e.withAudience a).keepGroup job total done outcomes results)
      ((e.withAudience a').keepGroup job total done outcomes results) := by
  induction outcomes generalizing done results with
  | nil => exact (Run.dependsOn_closed part).pure results
  | cons r rest ih => exact (report_alike ha ha' _ _).bind fun _ => ih _ _

variable
  (he : e.WorkedBy (DependsOn part) (DependsOn fun w : Work σ => (w.context, part w.outside)))

include he

theorem transformGroups_alike (job : Job) (changes : List FileChange) (total done : ℕ)
    (groups : List Contents) (results : Results) :
    Alike part ((e.withAudience a).transformGroups job changes total done groups results)
      ((e.withAudience a').transformGroups job changes total done groups results) := by
  induction groups generalizing done results with
  | nil => exact (Run.dependsOn_closed part).pure results
  | cons group rest ih =>
    have transformed : Alike part ((e.withAudience a).transformGroup job changes group)
        ((e.withAudience a').transformGroup job changes group) := by
      rw [transformGroup_withAudience, transformGroup_withAudience]
      exact transformGroup_closed (dependsOn_paired part) he.toMadeOf job changes group
    exact (report_alike ha ha' _ _).bind fun _ => transformed.bind fun _ =>
      (keepGroup_alike ha ha' _ _ _ _ _).bind fun _ => ih _ _

/-- Whoever is told about a batch, it answers the same. -/
theorem transformBatch_alike (records : List FileRecord) (spec : Specification)
    (jobId : Option String) :
    Alike part ((e.withAudience a).transformBatch records spec jobId)
      ((e.withAudience a').transformBatch records spec jobId) := by
  have collected : Alike part ((e.withAudience a).collect spec records [] [])
      ((e.withAudience a').collect spec records [] []) := by
    rw [collect_congr (e.withAudience a) e rfl, collect_congr (e.withAudience a') e rfl]
    exact collect_closed (dependsOn_paired part) he.toMadeOf spec records [] []
  refine collected.bind fun _ => (report_alike ha ha' _ _).bind fun _ => ?_
  refine Alike.bind (he.plan _ _) fun changes => ?_
  refine (transformGroups_alike ha ha' he _ _ _ _ _ _).bind fun _ => ?_
  refine (report_alike ha ha' _ _).bind fun _ => (report_alike ha ha' _ _).bind fun _ => ?_
  exact (emit_alike ha ha' _ _ _).bind fun _ => (Run.dependsOn_closed part).pure _

end Audiences

/-! ### The protocol -/

/-- **Progress is told by a protocol, and telling it has no influence.**  The collaborators of an
engine work on a part of the state; observer and sink leave that part alone, write down all that
they are given, and may fail at any call.  A batch that answers has told the observer reports that
keep to the protocol for the files of its queue, and has sent the sink the same reports in the same
order and then the one event of its completion.  Whoever else is told, or no one, the batch answers
the same. -/
theorem batch_progress {e : Engine σ} {a : Audience σ} {part : σ → τ} {book : σ → Book}
    (he : e.WorkedBy (DependsOn part) (DependsOn fun w : Work σ => (w.context, part w.outside)))
    (hbook : e.WorkedBy (Keeps book) (Keeps (book ∘ Work.outside)))
    (ha : a.Apart part) (hrecords : a.Records book) (records : List FileRecord)
    (spec : Specification) (jobId : Option String) :
    (∀ s batch s', (e.withAudience a).transformBatch records spec jobId s = (.ok batch, s') →
      ∃ b : BatchTrace (e.withAudience a) records spec jobId s, batch = .ofResults b.results ∧
      ∃ reports, Protocol ((queue b.files b.changes).map (·.1)) reports ∧
        (a.observer.isSome → (book s'.state).told = (book s.state).told ++ reports) ∧
        ∀ id, jobId = some id → a.reaches jobId →
          ∃ sent time, List.Forall₂ (Audience.Announces jobId) reports sent ∧
            (book s'.state).sent =
              (book s.state).sent ++ sent ++ [(id, completion batch.statistics id time)]) ∧
    ∀ a' : Audience σ, a'.Apart part → ∀ s s', part s.state = part s'.state →
      ((e.withAudience a).transformBatch records spec jobId s).1 =
        ((e.withAudience a').transformBatch records spec jobId s').1 := by
  refine ⟨fun s batch s' h => ?_, fun a' ha' s s' hpart =>
    (transformBatch_alike ha ha' he records spec jobId s s' hpart).1⟩
  obtain ⟨b, hbatch, reports, protocol, t, added, complete⟩ :=
    transformBatch_adds hrecords hbook h
  obtain ⟨told, sent, hsent, htold⟩ := added
  refine ⟨b, hbatch, reports, protocol, fun hobserver => ?_, fun id hid hreaches => ?_⟩
  · rw [hobserver] at told
    obtain ⟨-, rfl⟩ | ⟨id, time, -, -, complete⟩ := complete
    · exact told
    · rw [complete]
      exact told
  · rw [hreaches] at hsent
    obtain ⟨hunreached, -⟩ | ⟨id', time, -, hid', complete⟩ := complete
    · exact absurd hreaches (by rw [hunreached]; exact Bool.false_ne_true)
    · obtain rfl := Option.some.inj (hid.symm.trans hid')
      exact ⟨sent, time, hsent, by rw [complete, htold]⟩

/-- The syntax pass works on the context of a file alone. -/
theorem syntaxPass_dependsOn [Module.Salvage] (part : σ → τ) (lanes : LaneRegistry)
    (code : String) (spec : Specification) :
    DependsOn (fun w : Work σ => (w.context, part w.outside)) _ (syntaxPass lanes code spec) := by
  rintro ⟨⟨context, outside⟩, log⟩ ⟨⟨context', outside'⟩, log'⟩ hpart
  obtain ⟨rfl, hpart⟩ := Prod.mk.inj hpart
  exact ⟨rfl, Prod.ext rfl hpart⟩

section

attribute [local instance] Module.Salvage.stopping

/-- An engine that plans no changes, and fails to fetch what it is not given. -/
def unplanned : Engine Book :=
  { (standard {} .builtIn : Engine Book) with
    plan := fun _ _ => pure []
    fetch := some fun path => Run.fail (.hosting path 404 none none) }

/-- An observer and a sink that write down what they are given, and then refuse it. -/
def refusing : Audience Book where
  observer := some fun r => do
    Run.update fun b => { b with told := b.told ++ [r] }
    Run.fail (.transaction "refused")
  sink := some fun id m => do
    Run.update fun b => { b with sent := b.sent ++ [(id, m)] }
    Run.fail (.transaction "refused")

theorem unplanned_workedBy {P : Run.Kind Book} {W : Run.Kind (Work Book)} (h : Paired P W)
    (hrewrite : ∀ code spec, W _ (syntaxPass .builtIn code spec)) : unplanned.WorkedBy P W where
  isReady := by
    rintro t ⟨⟩
  transform := by
    rintro t ⟨⟩
  semanticRecovery := Recovery.Manager.standard_given h.inner _
  rewrite := hrewrite
  judge _ _ _ := h.outer.pure _
  fetch := by
    rintro fetch ⟨⟩ path
    exact h.outer.fail _
  rewriteRecovery := Recovery.Manager.standard_given h.inner _
  plan _ _ := h.outer.pure _

theorem refusing_records : refusing.Records id where
  observer := by
    rintro observer ⟨⟩ r s
    rfl
  sink := by
    rintro sink ⟨⟩ id m s
    rfl
  clock _ := rfl

/-- A script, and one that cannot be fetched. -/
def halfReadable : List FileRecord := [smallScript, ⟨"b.js", none⟩]

/-- A batch is told to those who refuse every report and every event, and answers as with no one. -/
theorem batch_progress_refusing :
    ∃ batch s', (unplanned.withAudience refusing).transformBatch halfReadable laneless (some "j")
        ⟨{}, []⟩ = (.ok batch, s') ∧ batch.results.length = 2 ∧
      (∃ b : BatchTrace (unplanned.withAudience refusing) halfReadable laneless (some "j")
          ⟨{}, []⟩, batch = .ofResults b.results ∧
        ∃ reports, Protocol ((queue b.files b.changes).map (·.1)) reports ∧
          s'.state.told = reports ∧ ∃ sent time,
            List.Forall₂ (Audience.Announces (some "j")) reports sent ∧
            s'.state.sent = sent ++ [("j", completion batch.statistics "j" time)]) ∧
      ((unplanned.withAudience {}).transformBatch halfReadable laneless (some "j")
        ⟨{}, []⟩).1 = .ok batch := by
  have apart {a : Audience Book} (h : Run.Total a.clock) : a.Apart fun _ => () :=
    ⟨fun _ _ _ _ => rfl, fun _ _ _ _ _ => rfl, fun _ => rfl, h⟩
  obtain ⟨hrun, hsame⟩ := batch_progress
    (unplanned_workedBy (dependsOn_paired fun _ => ()) (syntaxPass_dependsOn (fun _ => ()) _))
    (unplanned_workedBy (keeps_paired id) fun _ _ _ => rfl)
    (apart (.pure 0)) refusing_records halfReadable laneless (some "j")
  have answers : (((unplanned.withAudience refusing).transformBatch halfReadable laneless
      (some "j") ⟨{}, []⟩).1.toOption.any fun batch => batch.results.length == 2) = true := by
    decide +kernel
  obtain ⟨batch, s', hbatch, hlength⟩ := Run.ok_of_any answers
  obtain ⟨b, hb, reports, protocol, told, sent⟩ := hrun _ _ _ hbatch
  obtain ⟨sent, time, hsent, hbook⟩ := sent "j" rfl (by decide)
  refine ⟨batch, s', hbatch, eq_of_beq hlength,
    ⟨b, hb, reports, protocol, told rfl, sent, time, hsent, hbook⟩, ?_⟩
  rw [← hsame {} (apart (.pure 0)) ⟨{}, []⟩ ⟨{}, []⟩ rfl, hbatch]

end

end WebMigration.Engine
