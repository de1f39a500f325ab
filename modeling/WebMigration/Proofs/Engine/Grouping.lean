import WebMigration.Proofs.Engine.Closed
import WebMigration.Proofs.Engine.Keeping

/-!
# Groups and neighbours do not matter

When the services that an engine calls answer by what they are asked alone, the result of a file is
the same from every state.  So it does not matter in which group the file is transformed, what was
transformed before it, or whether it is transformed on its own.
-/

namespace WebMigration.Engine

open Run (Kind Answers Steady)

variable {σ : Type}

/-! ### Steady passes over a file -/

/-- A pass whose answer, and the context that it leaves, depend on the context alone. -/
def ContextSteady : Kind (Work σ) := fun _ r =>
  ∀ context, ∃ x after, ∀ outside log, ∃ outside' log',
    r ⟨⟨context, outside⟩, log⟩ = (x, ⟨⟨after, outside'⟩, log'⟩)

theorem contextSteady_closed : (ContextSteady : Kind (Work σ)).Closed where
  pure a context := ⟨.ok a, context, fun outside log => ⟨outside, log, rfl⟩⟩
  raise fault context := ⟨.error fault, context, fun outside log => ⟨outside, log, rfl⟩⟩
  bind := by
    intro α β r f hr hf context
    obtain ⟨x, after, hx⟩ := hr context
    cases x with
    | error fault =>
      refine ⟨.error fault, after, fun outside log => ?_⟩
      obtain ⟨outside', log', h⟩ := hx outside log
      exact ⟨outside', log', Run.bind_of_error h⟩
    | ok a =>
      obtain ⟨y, after', hy⟩ := hf a after
      refine ⟨y, after', fun outside log => ?_⟩
      obtain ⟨outside', log', h⟩ := hx outside log
      obtain ⟨outside'', log'', h'⟩ := hy outside' log'
      exact ⟨outside'', log'', (Run.bind_of_ok h).trans h'⟩
  attempt := by
    intro α r hr context
    obtain ⟨x, after, hx⟩ := hr context
    refine ⟨.ok x, after, fun outside log => ?_⟩
    obtain ⟨outside', log', h⟩ := hx outside log
    exact ⟨outside', log', by rw [Run.attempt_eq, h]⟩
  write l context := ⟨.ok (), context, fun outside log => ⟨outside, l :: log, rfl⟩⟩

theorem steady_paired : Paired (Steady : Kind σ) ContextSteady where
  outer := Run.steady_closed
  inner := contextSteady_closed
  elsewhere := by
    rintro α r ⟨x, hx⟩ context
    refine ⟨x, context, fun outside log => ?_⟩
    obtain ⟨s', h⟩ := hx ⟨outside, log⟩
    exact ⟨s'.state, s'.log, by rw [Work.elsewhere, Run.onPart, h]⟩
  begin := by
    intro α r context hr
    obtain ⟨x, after, hx⟩ := hr context
    refine ⟨x.map fun a => (a, after), fun s => ?_⟩
    obtain ⟨outside', log', h⟩ := hx s.state s.log
    refine ⟨⟨outside', log'⟩, ?_⟩
    rw [Work.begin, h]
    cases x <;> rfl
  context hf context := hf context context

/-- The syntax pass looks at nothing but the context. -/
theorem syntaxPass_steady [Module.Salvage] (lanes : LaneRegistry) (code : String)
    (spec : Specification) :
    ContextSteady _ (syntaxPass lanes code spec : Run (Work σ) _) := by
  intro context
  refine ⟨(Rewrite.pass lanes code spec context).1.map some,
    (Rewrite.pass lanes code spec context).2, fun outside log => ⟨outside, log, ?_⟩⟩
  rfl

/-! ### Services -/

/-- The services answer as functions of what they are asked.  Nothing is asked of those who are told
about the progress, and the clock may tell any time. -/
structure Services.Functional (v : Services σ) : Prop where
  isReady : ∀ t ∈ v.semantic, Steady _ t.isReady
  transform : ∀ t ∈ v.semantic, ∀ code spec context, Steady _ (t.transform code spec context)
  fetch : ∀ fetch ∈ v.fetch, ∀ path, Steady _ (fetch path)
  plan : ∀ files spec, Steady _ (v.plan files spec)
  clock : ∀ s, ∃ time s', v.clock s = (.ok time, s')

/-- The engine with groups of a size. -/
def inGroupsOf (e : Engine σ) (size : Nat) : Engine σ :=
  { e with settings := { e.settings with batch := { e.settings.batch with size } } }

section Answers

variable [Module.Salvage] {v : Services σ} (hv : v.Functional) {settings : Settings}
  {lanes : LaneRegistry}

include hv

theorem madeOf_steady (settings : Settings) (lanes : LaneRegistry) :
    (v.engine settings lanes).MadeOf Steady ContextSteady where
  rewrite := syntaxPass_steady lanes
  isReady := hv.isReady
  transform := hv.transform
  judge _ _ _ := Run.steady_closed.pure _
  fetch := hv.fetch
  rewriteRecovery := Recovery.Manager.standard_given contextSteady_closed _
  semanticRecovery := Recovery.Manager.standard_given contextSteady_closed _

theorem emit_answers (jobId : Option String) (message : String → Int → Progress.Message) :
    Answers ((v.engine settings lanes).emit jobId message) (.ok ()) := by
  unfold emit
  split
  · split
    · exact .pure ()
    · intro s
      obtain ⟨time, t, htime⟩ : ∃ time t, (v.engine settings lanes).clock s = (.ok time, t) :=
        hv.clock s
      rw [Run.bind_of_ok htime, Run.bind_of_ok Run.attempt_eq]
      exact ⟨_, rfl⟩
  · exact .pure ()

omit hv in
theorem tellObserver_answers (r : Progress.Report) :
    Answers ((v.engine settings lanes).tellObserver r) (.ok ()) := by
  unfold tellObserver
  split
  · intro s
    rw [Run.bind_of_ok Run.attempt_eq]
    exact ⟨_, rfl⟩
  · exact .pure ()

/-- A report goes out, whatever those make of it who are told. -/
theorem report_answers (jobId : Option String) (r : Progress.Report) :
    Answers ((v.engine settings lanes).report jobId r) (.ok ()) :=
  (tellObserver_answers r).bind_ok (emit_answers hv _ _)

/-- A file has the same result from every state. -/
theorem transformFor_answers (settings : Settings) (lanes : LaneRegistry) (s : Logged σ)
    (job : Job) (file : FileRecord) (planned : Option String) :
    ∃ r, Answers ((v.engine settings lanes).transformFor job file planned) (.ok r) := by
  obtain ⟨x, hx⟩ :=
    transformFor_closed steady_paired (madeOf_steady hv settings lanes) job file planned
  obtain ⟨r, s', hr, -⟩ := (v.engine settings lanes).transformFor_course job file planned s
  obtain rfl := hx.unique hr
  exact ⟨r, hx⟩

end Answers

/-! ### Groups -/

section Groups

variable {e : Engine σ} {job : Job} {changes : List FileChange}
  {outcome : String × Option String → FileResult}
  (hreport : ∀ jobId r, Answers (e.report jobId r) (.ok ()))
  (houtcome : ∀ f : String × Option String,
    Answers (e.transformFor job ⟨f.1, f.2⟩ (plannedPath? changes f.1)) (.ok (outcome f)))

include houtcome in
theorem transformGroup_answers (files : Contents) :
    Answers (e.transformGroup job changes files) (.ok (files.map outcome)) := by
  induction files with
  | nil => exact .pure []
  | cons f rest ih => exact (houtcome f).bind_ok (ih.bind_ok (.pure _))

include hreport in
theorem keepGroup_answers (total done : Nat) (outcomes : List FileResult) (results : Results) :
    Answers (e.keepGroup job total done outcomes results) (.ok (outcomes.foldl keep results)) := by
  induction outcomes generalizing done results with
  | nil => exact .pure results
  | cons r rest ih => exact (hreport _ _).bind_ok (ih _ _)

variable (changes) in
include hreport houtcome in
/-- Groups of files answer with the results of all files, one after the other. -/
theorem transformGroups_answers (total done : Nat) (groups : List Contents) (results : Results) :
    Answers (e.transformGroups job changes total done groups results)
      (.ok ((groups.flatten.map outcome).foldl keep results)) := by
  induction groups generalizing done results with
  | nil => exact .pure results
  | cons group rest ih =>
    rw [List.flatten_cons, List.map_append, List.foldl_append]
    refine (hreport _ _).bind_ok ?_
    refine (transformGroup_answers houtcome group).bind_ok ?_
    exact (keepGroup_answers hreport _ _ _ _).bind_ok (ih _ _)

end Groups

/-- A batch answers the same from every state and with groups of every size. -/
theorem transformBatch_answers [Module.Salvage] {v : Services σ} (hv : v.Functional) (settings : Settings)
    (lanes : LaneRegistry) (records : List FileRecord) (spec : Specification)
    (jobId : Option String) (s : Logged σ) :
    ∃ x, ∀ size, Answers
      (((v.engine settings lanes).inGroupsOf size).transformBatch records spec jobId) x := by
  have hmade := madeOf_steady hv settings lanes
  have hreport : ∀ size jobId r,
      Answers (((v.engine settings lanes).inGroupsOf size).report jobId r) (.ok ()) :=
    fun _ jobId r => report_answers hv jobId r
  obtain ⟨x, hcollect⟩ := collect_closed steady_paired hmade spec records [] []
  have hcollect : ∀ size,
      Answers (((v.engine settings lanes).inGroupsOf size).collect spec records [] []) x := by
    intro size
    rw [collect_congr ((v.engine settings lanes).inGroupsOf size) (v.engine settings lanes) rfl]
    exact hcollect
  cases x with
  | error fault => exact ⟨.error fault, fun size => (hcollect size).bind_error⟩
  | ok collected =>
    obtain ⟨files, unread⟩ := collected
    obtain ⟨y, hplan⟩ := hv.plan files spec
    cases y with
    | error fault =>
      refine ⟨.error fault, fun size => (hcollect size).bind_ok ((hreport size _ _).bind_ok ?_)⟩
      exact Answers.bind_error hplan
    | ok changes =>
      choose outcome houtcome using fun f : String × Option String =>
        transformFor_answers hv settings lanes s
          ((v.engine settings lanes).jobOf spec jobId) ⟨f.1, f.2⟩ (plannedPath? changes f.1)
      refine ⟨.ok (.ofResults (withGenerated lanes spec files changes
        (((queue files changes).map outcome).foldl keep unread))), fun size => ?_⟩
      refine (hcollect size).bind_ok ((hreport size _ _).bind_ok ?_)
      refine Answers.bind_ok (a := changes) hplan ?_
      have hgroups := transformGroups_answers changes (hreport size) houtcome
        (queue files changes).length 0 (groups size (queue files changes)) unread
      rw [flatten_groups] at hgroups
      refine hgroups.bind_ok ?_
      exact (hreport size _ _).bind_ok ((hreport size _ _).bind_ok
        ((emit_answers hv _ _).bind_ok (.pure _)))

/-! ### Files on their own -/

/-- A listed content is what a file answered. -/
theorem mem_obtained {answers : List Answer} {f : String × Option String}
    (h : f ∈ obtained answers) : ∃ a ∈ answers, a.1.path = f.1 ∧ a.2 = .ok f.2 := by
  refine List.foldlRecOn (motive := fun files : Contents =>
    ∀ f ∈ files, ∃ a ∈ answers, a.1.path = f.1 ∧ a.2 = .ok f.2) answers addContent
    (fun f hf => by cases hf) (fun files ih a ha f hf => ?_) f h
  unfold addContent at hf
  split at hf
  · rename_i content hcontent
    rcases Table.mem_put hf with rfl | hf
    · exact ⟨a, ha, rfl, hcontent⟩
    · exact ih f hf
  · exact ih f hf

section Alone

variable [Module.Salvage] {v : Services σ} (hv : v.Functional) {settings : Settings}
  {lanes : LaneRegistry}

include hv

/-- A file that answered with a content once has that content from every state, and so has the file
that is listed with it. -/
theorem contentOf_answers {file : FileRecord} {content : Option String} {s s' : Logged σ}
    (h : (v.engine settings lanes).contentOf file s = (.ok content, s')) :
    Answers ((v.engine settings lanes).contentOf file) (.ok content) ∧
      Answers ((v.engine settings lanes).contentOf ⟨file.path, content⟩) (.ok content) := by
  obtain ⟨x, hx⟩ := contentOf_closed steady_paired (madeOf_steady hv settings lanes) file
  obtain rfl := hx.unique h
  refine ⟨hx, ?_⟩
  cases content with
  | some text => exact .pure (some text)
  | none =>
    -- A file that is listed without a text had none itself, so it is asked for again.
    have hfile : file.content = none := by
      rcases hown : file.content with _ | text
      · rfl
      · rw [contentOf, hown] at h
        cases (Run.pure_ok.1 h).1
    obtain ⟨path, own⟩ := file
    dsimp only at hfile
    subst hfile
    exact hx

/-- What becomes of a file depends on its path and its content only. -/
theorem transformFor_congr {job : Job} {file other : FileRecord} {content planned : Option String}
    {r : FileResult} (hpath : other.path = file.path)
    (hfile : Answers ((v.engine settings lanes).contentOf file) (.ok content))
    (hother : Answers ((v.engine settings lanes).contentOf other) (.ok content))
    (h : Answers ((v.engine settings lanes).transformFor job file planned) (.ok r)) :
    Answers ((v.engine settings lanes).transformFor job other planned) (.ok r) := by
  obtain ⟨x, hx⟩ := transformContent_closed steady_paired
    (madeOf_steady hv settings lanes) job file.path content planned
  -- Both ways go on with the same content at the same path.
  obtain ⟨y, hfile, hother⟩ : ∃ y, Answers ((v.engine settings lanes).transformFor job file planned) y ∧
      Answers ((v.engine settings lanes).transformFor job other planned) y := by
    cases x with
    | error fault =>
      obtain ⟨y, hy⟩ := giveUp_closed steady_paired job file.path content fault
      refine ⟨y, hfile.attempt.bind_ok (hx.attempt.bind_ok hy), ?_⟩
      rw [← hpath] at hx hy
      exact hother.attempt.bind_ok (hx.attempt.bind_ok hy)
    | ok result =>
      obtain ⟨y, hy⟩ := Run.steady_closed.pure result
      refine ⟨y, hfile.attempt.bind_ok (hx.attempt.bind_ok hy), ?_⟩
      rw [← hpath] at hx
      exact hother.attempt.bind_ok (hx.attempt.bind_ok hy)
  intro s
  obtain ⟨t, ht⟩ := h s
  obtain rfl := hfile.unique ht
  exact hother s

/-- The result that a file has in a batch is the one that it has on its own. -/
theorem produces_alone {records : List FileRecord} {spec : Specification} {jobId : Option String}
    {s : Logged σ} (b : BatchTrace (v.engine settings lanes) records spec jobId s)
    {f : String × Option String} (hf : f ∈ queue b.files b.changes) {r : FileResult}
    (h : Produces (v.engine settings lanes) ((v.engine settings lanes).jobOf spec jobId)
      b.changes f r) :
    ∃ file ∈ records, file.path = f.1 ∧ Answers
      ((v.engine settings lanes).transform file spec (plannedPath? b.changes f.1) jobId)
      (.ok r) := by
  obtain ⟨a, ha, hpath, hanswer⟩ := mem_obtained (List.mem_filter.1 hf).1
  obtain ⟨t, u, hcontent⟩ := b.answered a ha
  rw [hanswer] at hcontent
  obtain ⟨hown, hlisted⟩ := contentOf_answers hv hcontent
  rw [hpath] at hlisted
  obtain ⟨t, u, hproduced⟩ := h
  obtain ⟨x, hx⟩ := transformFor_closed steady_paired
    (madeOf_steady hv settings lanes)
    ((v.engine settings lanes).jobOf spec jobId) ⟨f.1, f.2⟩ (plannedPath? b.changes f.1)
  obtain rfl := hx.unique hproduced
  refine ⟨a.1, ?_, hpath, transformFor_congr hv hpath hlisted hown hx⟩
  rw [← b.answers_fst]
  exact List.mem_map_of_mem ha

end Alone

/-- What relates two lists elementwise may be replaced by what follows from it for the elements of
the first. -/
theorem forall₂_imp_of_mem {α β : Type} {R S : α → β → Prop} {l₁ : List α} {l₂ : List β}
    (h : List.Forall₂ R l₁ l₂) (himp : ∀ a ∈ l₁, ∀ b, R a b → S a b) : List.Forall₂ S l₁ l₂ := by
  induction h with
  | nil => exact .nil
  | cons hr _ ih =>
    obtain ⟨hhead, htail⟩ := List.forall_mem_cons.1 himp
    exact .cons (hhead _ hr) (ih htail)

/-- **Groups and neighbours do not matter.**  When the services of an engine answer as functions of
what they are asked, a batch has the same results in the same order, and the same statistics, from
every state and with groups of every size.  Each file of the queue is transformed exactly once, and
its outcome is what transforming it alone answers, for the same job and with the path that is
planned for it. -/
theorem batch_grouping_irrelevant [Module.Salvage] {v : Services σ} (hv : v.Functional)
    (settings : Settings) (lanes : LaneRegistry) (records : List FileRecord) (spec : Specification)
    (jobId : Option String) :
    (∀ size size' s s',
      (((v.engine settings lanes).inGroupsOf size).transformBatch records spec jobId s).1 =
        (((v.engine settings lanes).inGroupsOf size').transformBatch records spec jobId s').1) ∧
    ∀ s batch s', (v.engine settings lanes).transformBatch records spec jobId s = (.ok batch, s') →
      ∃ b : BatchTrace (v.engine settings lanes) records spec jobId s,
        batch = .ofResults b.results ∧
        ((queue b.files b.changes).map (·.1)).Nodup ∧
        List.Forall₂ (fun f r => r.path = f.1 ∧ ∃ file ∈ records, file.path = f.1 ∧
            ∀ t, ((v.engine settings lanes).transform file spec (plannedPath? b.changes f.1)
              jobId t).1 = .ok r)
          (queue b.files b.changes) b.outcomes := by
  constructor
  · intro size size' s s'
    obtain ⟨x, hx⟩ := transformBatch_answers hv settings lanes records spec jobId s
    obtain ⟨t, ht⟩ := hx size s
    obtain ⟨t', ht'⟩ := hx size' s'
    rw [ht, ht']
  · intro s batch s' h
    obtain ⟨b, rfl⟩ := transformBatch_ok h
    refine ⟨b, rfl, b.nodup_files.sublist (List.filter_sublist.map _), ?_⟩
    refine forall₂_imp_of_mem b.produced fun f hf r hr => ?_
    obtain ⟨file, hmem, hpath, halone⟩ := produces_alone hv b hf hr
    obtain ⟨t, u, hproduced⟩ := hr
    refine ⟨(course_of_transformFor hproduced).path_eq, file, hmem, hpath, fun t => ?_⟩
    obtain ⟨t', ht'⟩ := halone t
    rw [ht']

/-- Services that fetch the same script for every path, answer with the code that they are given,
and plan no changes. -/
def echoing : Services Unit where
  semantic := some {
    available := true
    transform code _ _ := pure (some ⟨.string code, 90, [], false⟩) }
  fetch := some fun _ => pure (some "g()\n")
  plan _ _ := pure []

theorem echoing_functional : echoing.Functional where
  isReady := by
    rintro t ⟨⟩
    exact Run.steady_closed.pure _
  transform := by
    rintro t ⟨⟩ code spec context
    exact Run.steady_closed.pure _
  fetch := by
    rintro fetch ⟨⟩ path
    exact Run.steady_closed.pure _
  plan _ _ := Run.steady_closed.pure _
  clock s := ⟨0, s, rfl⟩

/-- Three scripts, one of which has to be fetched. -/
def threeScripts : List FileRecord :=
  [⟨"a.js", some "f()\n"⟩, ⟨"b.js", none⟩, ⟨"pages/c.jsx", some "<a href='/'>c</a>;\n"⟩]

section

attribute [local instance] Module.Salvage.stopping

/-- Three scripts have the same results in one group, in groups of two and on their own. -/
theorem batch_grouping_irrelevant_echoing :
    echoing.Functional ∧
    (((echoing.engine {} .builtIn).inGroupsOf 1).transformBatch threeScripts laneless none
        ⟨(), []⟩).1 =
      (((echoing.engine {} .builtIn).inGroupsOf 2).transformBatch threeScripts laneless none
        ⟨(), []⟩).1 ∧
    ∃ batch s', (echoing.engine {} .builtIn).transformBatch threeScripts laneless none ⟨(), []⟩ =
        (.ok batch, s') ∧ batch.results.length = 3 ∧
      ∃ b : BatchTrace (echoing.engine {} .builtIn) threeScripts laneless none ⟨(), []⟩,
        batch = .ofResults b.results ∧
        ((queue b.files b.changes).map (·.1)).Nodup ∧
        List.Forall₂ (fun f r => r.path = f.1 ∧ ∃ file ∈ threeScripts, file.path = f.1 ∧
            ∀ t, ((echoing.engine {} .builtIn).transform file laneless
              (plannedPath? b.changes f.1) none t).1 = .ok r)
          (queue b.files b.changes) b.outcomes := by
  obtain ⟨hsizes, halone⟩ :=
    batch_grouping_irrelevant echoing_functional {} .builtIn threeScripts laneless none
  have answers : (((echoing.engine {} .builtIn).transformBatch threeScripts laneless none
      ⟨(), []⟩).1.toOption.any fun batch => batch.results.length == 3) = true := by decide +kernel
  obtain ⟨batch, s', hbatch, hlength⟩ := Run.ok_of_any answers
  exact ⟨echoing_functional, hsizes 1 2 _ _, batch, s', hbatch, by simpa using hlength,
    halone _ _ _ hbatch⟩

end

end WebMigration.Engine
