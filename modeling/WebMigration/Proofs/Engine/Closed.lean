import WebMigration.Engine.Batch
import WebMigration.Proofs.Recovery.Closed

/-!
# What an engine does is of the kinds of its collaborators

The passes over a file work on the context of the file besides the state of everyone else, so there
are two kinds: one of the computations on that state and one of those on both.  An engine whose
collaborators are of the two kinds transforms files, and whole batches, by computations of the
first.
-/

namespace WebMigration.Engine

open Run (Kind)

variable {σ : Type}

/-- A closed kind of computations and a closed kind of passes over a file that go together. -/
structure Paired (P : Kind σ) (W : Kind (Work σ)) : Prop where
  outer : P.Closed
  inner : W.Closed
  elsewhere : ∀ {α : Type} {r : Run σ α}, P α r → W α (Work.elsewhere r)
  begin : ∀ {α : Type} {r : Run (Work σ) α} (context : FileContext), W α r →
    P (α × FileContext) (Work.begin context r)
  /-- Passes may look at the context of the file. -/
  context : ∀ {α : Type} {f : FileContext → Run (Work σ) α}, (∀ c, W α (f c)) →
    W α (Run.state >>= fun w => f w.context)

/-- Passes over a file work on no other part of the state than what they do elsewhere. -/
theorem keeps_paired {τ : Type} (part : σ → τ) :
    Paired (Run.Keeps part) (Run.Keeps (part ∘ Work.outside)) where
  outer := Run.keeps_closed part
  inner := Run.keeps_closed _
  elsewhere := by
    intro α r hr s
    rcases h : Work.elsewhere r s with ⟨x, t⟩
    obtain ⟨u, hu, hstate⟩ := Run.exists_of_onPart h
    have hkept := hr ⟨s.state.outside, s.log⟩
    rw [hu] at hkept
    dsimp only [Function.comp_apply]
    rw [hstate]
    exact hkept
  begin := by
    intro α r context hr s
    have hkept := hr ⟨⟨context, s.state⟩, s.log⟩
    unfold Work.begin
    rcases h : r ⟨⟨context, s.state⟩, s.log⟩ with ⟨x | x, t⟩ <;> rw [h] at hkept <;> exact hkept
  context hf s := hf _ s

/-- Passes over a file depend on its context and on the part of the state that matters elsewhere. -/
theorem dependsOn_paired {τ : Type} (part : σ → τ) :
    Paired (Run.DependsOn part) (Run.DependsOn fun w : Work σ => (w.context, part w.outside)) where
  outer := Run.dependsOn_closed part
  inner := Run.dependsOn_closed _
  elsewhere := by
    intro α r hr s s' hpart
    obtain ⟨hcontext, hpart⟩ := Prod.mk.inj hpart
    obtain ⟨hanswer, hleft⟩ := hr ⟨s.state.outside, s.log⟩ ⟨s'.state.outside, s'.log⟩ hpart
    exact ⟨hanswer, Prod.ext hcontext hleft⟩
  begin := by
    intro α r context hr s s' hpart
    obtain ⟨hanswer, hleft⟩ :=
      hr ⟨⟨context, s.state⟩, s.log⟩ ⟨⟨context, s'.state⟩, s'.log⟩ (Prod.ext rfl hpart)
    unfold Work.begin
    rcases h : r ⟨⟨context, s.state⟩, s.log⟩ with ⟨x, t⟩
    rcases h' : r ⟨⟨context, s'.state⟩, s'.log⟩ with ⟨y, t'⟩
    rw [h, h'] at hanswer hleft
    obtain rfl : x = y := hanswer
    obtain ⟨hcontext, hpart⟩ := Prod.mk.inj hleft
    cases x with
    | error fault => exact ⟨rfl, hpart⟩
    | ok a =>
      dsimp only at hcontext ⊢
      exact ⟨by rw [hcontext], hpart⟩
  context := by
    intro α f hf s s' hpart
    have hcontext : s.state.context = s'.state.context := (Prod.mk.inj hpart).1
    rw [Run.bind_of_ok Run.state_eq, Run.bind_of_ok Run.state_eq, hcontext]
    exact hf _ s s' hpart

/-- The semantic pass is of two kinds. -/
structure FinishedBy (e : Engine σ) (P : Kind σ) (W : Kind (Work σ)) : Prop where
  isReady : ∀ t ∈ e.semantic, P _ t.isReady
  transform : ∀ t ∈ e.semantic, ∀ code spec context, P _ (t.transform code spec context)
  semanticRecovery : e.semanticRecovery.Given W

/-- The collaborators that transform files are of two kinds. -/
structure MadeOf (e : Engine σ) (P : Kind σ) (W : Kind (Work σ)) : Prop
    extends FinishedBy e P W where
  rewrite : ∀ code spec, W _ (e.rewrite code spec)
  judge : ∀ rules code path, P _ (e.judge rules code path)
  fetch : ∀ fetch ∈ e.fetch, ∀ path, P _ (fetch path)
  rewriteRecovery : e.rewriteRecovery.Given W

/-- Those who are told about the progress of a batch are of a kind. -/
structure HeardBy (e : Engine σ) (P : Kind σ) : Prop where
  observer : ∀ observer ∈ e.observer, ∀ report, P _ (observer report)
  sink : ∀ sink ∈ e.sink, ∀ jobId message, P _ (sink jobId message)
  clock : P _ e.clock

/-- The collaborators that a batch needs besides are of a kind. -/
structure LedBy (e : Engine σ) (P : Kind σ) : Prop extends HeardBy e P where
  plan : ∀ files spec, P _ (e.plan files spec)

section File

variable {e : Engine σ} {P : Kind σ} {W : Kind (Work σ)} (hpair : Paired P W)

include hpair

theorem reportFailure_closed (pass path : String) (fault : Fault) :
    W Unit (reportFailure pass path fault) := hpair.inner.warning _ _

theorem reportRecovery_closed {α : Type} (pass path : String) (o : Recovery.Outcome α) :
    W Unit (reportRecovery pass path o) := hpair.inner.event _ _

theorem askTransformer_closed (he : e.FinishedBy P W) {t : Semantic.Transformer σ}
    (ht : t ∈ e.semantic) (code : String) (spec : Specification) (jobId : Option String)
    (context : FileContext) :
    W _ (e.askTransformer t code spec jobId context) := by
  have htransform := hpair.elsewhere (he.transform t ht code spec context)
  refine hpair.inner.bind (hpair.inner.attempt htransform) fun answer => ?_
  split
  · exact hpair.inner.pure _
  · refine hpair.inner.bind (reportFailure_closed hpair _ _ _) fun _ => ?_
    refine hpair.inner.bind
      (Recovery.Manager.recover_closed hpair.inner he.semanticRecovery htransform _ _) fun _ => ?_
    split
    · exact hpair.inner.bind (reportRecovery_closed hpair _ _ _) fun _ => hpair.inner.pure _
    · exact hpair.inner.pure _

theorem runSemantic_closed (he : e.FinishedBy P W) (code : String) (spec : Specification)
    (jobId : Option String) (context : FileContext) :
    W _ (e.runSemantic code spec jobId context) := by
  unfold runSemantic transformer?
  rcases hsemantic : e.semantic with _ | t <;> dsimp only
  · rw [Work.elsewhere_pure, pure_bind]
    exact hpair.inner.pure _
  · -- Only the transformer of the engine can be found, so whether it is ready is all there is to ask.
    rw [← map_eq_pure_bind, Work.elsewhere_map, bind_map_left]
    refine hpair.inner.bind (hpair.elsewhere (he.isReady t hsemantic)) fun ready => ?_
    cases ready with
    | false => exact hpair.inner.pure _
    | true =>
      rw [if_pos rfl]
      dsimp only
      split
      · exact askTransformer_closed hpair he hsemantic _ _ _ _
      · exact hpair.inner.pure _

variable (he : e.MadeOf P W)

include he

theorem runRewrite_closed (code : String) (spec : Specification) (jobId : Option String)
    (context : FileContext) : W _ (e.runRewrite code spec jobId context) := by
  have hrewrite := he.rewrite code spec
  refine hpair.inner.bind (hpair.inner.attempt hrewrite) fun answer => ?_
  split
  · exact hpair.inner.pure _
  · refine hpair.inner.bind (reportFailure_closed hpair _ _ _) fun _ => ?_
    refine hpair.inner.bind
      (Recovery.Manager.recover_closed hpair.inner he.rewriteRecovery hrewrite _ _) fun _ => ?_
    split
    · exact hpair.inner.bind (reportRecovery_closed hpair _ _ _) fun _ => hpair.inner.pure _
    · exact hpair.inner.pure _

theorem rewriteScript_closed (code : String) (spec : Specification) (jobId : Option String)
    (context : FileContext) : W _ (e.rewriteScript code spec jobId context) := by
  unfold rewriteScript
  split
  · exact hpair.inner.bind (runRewrite_closed hpair he _ _ _ _) fun _ => hpair.inner.demand _ _
  · exact hpair.inner.pure _

theorem runPasses_closed (code : String) (spec : Specification) (jobId : Option String)
    (context : FileContext) : W _ (e.runPasses code spec jobId context) := by
  refine hpair.inner.bind (rewriteScript_closed hpair he _ _ _ _) fun rewritten => ?_
  refine hpair.context (f := fun c => do
    let result ← e.runSemantic rewritten.code spec jobId c
    let semantic ← Run.demand noResult result
    return Passed.mk rewritten semantic) fun c => ?_
  exact hpair.inner.bind (runSemantic_closed hpair he.toFinishedBy _ _ _ _) fun result =>
    hpair.inner.bind (hpair.inner.demand _ _) fun _ => hpair.inner.pure _

theorem passesOver_closed (job : Job) (path original : String) :
    P _ (e.passesOver job path original) :=
  hpair.begin _ (hpair.context (f := e.runPasses original job.spec job.id) fun c =>
    runPasses_closed hpair he _ _ _ c)

theorem conclude_closed (job : Job) (r : Rewriting) : P _ (e.conclude job r) := by
  have hverdict : ∀ rewritten isScript, P _ (e.verdictOn job.rules rewritten isScript) := by
    intro rewritten isScript
    unfold verdictOn
    split
    · exact hpair.outer.bind (he.judge _ _ _) fun _ => hpair.outer.map _ (hpair.outer.demand _ _)
    · exact hpair.outer.pure _
  refine hpair.outer.bind (hpair.outer.bind (hverdict _ _) fun _ => hpair.outer.pure _) fun o => ?_
  refine hpair.outer.bind (hpair.outer.ofExcept _) fun confidence => ?_
  exact hpair.outer.bind (hpair.outer.event _ _) fun _ => hpair.outer.pure _

theorem transformContent_closed (job : Job) (path : String) (content planned : Option String) :
    P _ (e.transformContent job path content planned) := by
  refine hpair.outer.bind (hpair.outer.event _ _) fun _ => ?_
  refine hpair.outer.bind (hpair.outer.ofExcept _) fun original => ?_
  refine hpair.outer.bind (passesOver_closed hpair he _ _ _) fun passed => ?_
  exact hpair.outer.bind (hpair.outer.ofExcept _) fun code => conclude_closed hpair he _ _

theorem contentOf_closed (file : FileRecord) : P _ (e.contentOf file) := by
  unfold contentOf
  split
  · exact hpair.outer.pure _
  · rename_i fetch _ hfetch
    exact he.fetch fetch hfetch _
  · exact hpair.outer.fail _

omit he in
theorem reported_closed (fault : Fault) : P _ (reported fault) :=
  hpair.outer.bind (hpair.outer.write _) fun _ => hpair.outer.pure _

omit he in
theorem giveUp_closed (job : Job) (path : String) (original : Option String) (fault : Fault) :
    P _ (giveUp job path original fault) :=
  hpair.outer.bind (hpair.outer.write _) fun _ =>
    hpair.outer.bind (reported_closed hpair fault) fun _ => hpair.outer.pure _

/-- Transforming a file is of the kind of its collaborators. -/
theorem transformFor_closed (job : Job) (file : FileRecord) (planned : Option String) :
    P _ (e.transformFor job file planned) := by
  refine hpair.outer.bind (hpair.outer.attempt (contentOf_closed hpair he file)) fun answer => ?_
  split
  · exact giveUp_closed hpair _ _ _ _
  · refine hpair.outer.bind (hpair.outer.attempt (transformContent_closed hpair he _ _ _ _))
      fun answer => ?_
    split
    · exact giveUp_closed hpair _ _ _ _
    · exact hpair.outer.pure _

theorem collect_closed (spec : Specification) (records : List FileRecord) (files : Contents)
    (results : Results) : P _ (e.collect spec records files results) := by
  induction records generalizing files results with
  | nil => exact hpair.outer.pure _
  | cons file rest ih =>
    refine hpair.outer.bind (hpair.outer.attempt (contentOf_closed hpair he file)) fun answer => ?_
    split
    · exact ih _ _
    · exact hpair.outer.bind (reported_closed hpair _) fun _ => ih _ _

end File

/-! ### Batches -/

section Batch

variable {e : Engine σ} {P : Kind σ} {W : Kind (Work σ)} (hpair : Paired P W)
  (hheard : e.HeardBy P)

include hpair hheard

theorem emit_closed (jobId : Option String) (message : String → Int → Progress.Message) :
    P _ (e.emit jobId message) := by
  unfold emit
  split
  · rename_i sink id hsink
    split
    · exact hpair.outer.pure _
    · refine hpair.outer.bind hheard.clock fun time => ?_
      exact hpair.outer.bind (hpair.outer.attempt (hheard.sink sink hsink _ _)) fun _ =>
        hpair.outer.pure _
  · exact hpair.outer.pure _

theorem tellObserver_closed (r : Progress.Report) : P _ (e.tellObserver r) := by
  unfold tellObserver
  split
  · rename_i observer hobserver
    exact hpair.outer.bind (hpair.outer.attempt (hheard.observer observer hobserver _)) fun _ =>
      hpair.outer.pure _
  · exact hpair.outer.pure _

theorem report_closed (jobId : Option String) (r : Progress.Report) : P _ (e.report jobId r) :=
  hpair.outer.bind (tellObserver_closed hpair hheard r) fun _ => emit_closed hpair hheard _ _

theorem keepGroup_closed (job : Job) (total done : Nat) (outcomes : List FileResult)
    (results : Results) : P _ (e.keepGroup job total done outcomes results) := by
  induction outcomes generalizing done results with
  | nil => exact hpair.outer.pure _
  | cons r rest ih => exact hpair.outer.bind (report_closed hpair hheard _ _) fun _ => ih _ _

variable (he : e.MadeOf P W)

include he

omit hheard in
theorem transformGroup_closed (job : Job) (changes : List FileChange) (files : Contents) :
    P _ (e.transformGroup job changes files) := by
  induction files with
  | nil => exact hpair.outer.pure _
  | cons f rest ih =>
    refine hpair.outer.bind (transformFor_closed hpair he _ _ _) fun r => ?_
    exact hpair.outer.bind ih fun _ => hpair.outer.pure _

theorem transformGroups_closed (job : Job) (changes : List FileChange) (total done : Nat)
    (groups : List Contents) (results : Results) :
    P _ (e.transformGroups job changes total done groups results) := by
  induction groups generalizing done results with
  | nil => exact hpair.outer.pure _
  | cons group rest ih =>
    refine hpair.outer.bind (report_closed hpair hheard _ _) fun _ => ?_
    refine hpair.outer.bind (transformGroup_closed hpair he _ _ _) fun transformed => ?_
    exact hpair.outer.bind (keepGroup_closed hpair hheard _ _ _ _ _) fun _ => ih _ _

omit hheard he in
/-- Transforming a batch is of the kind of its collaborators. -/
theorem transformBatch_closed (hled : e.LedBy P) (he : e.MadeOf P W) (records : List FileRecord)
    (spec : Specification) (jobId : Option String) :
    P _ (e.transformBatch records spec jobId) := by
  have hheard := hled.toHeardBy
  refine hpair.outer.bind (collect_closed hpair he _ _ _ _) fun collected => ?_
  refine hpair.outer.bind (report_closed hpair hheard _ _) fun _ => ?_
  refine hpair.outer.bind (hled.plan _ _) fun changes => ?_
  refine hpair.outer.bind (transformGroups_closed hpair hheard he _ _ _ _ _ _) fun transformed => ?_
  refine hpair.outer.bind (report_closed hpair hheard _ _) fun _ => ?_
  refine hpair.outer.bind (report_closed hpair hheard _ _) fun _ => ?_
  exact hpair.outer.bind (emit_closed hpair hheard _ _) fun _ => hpair.outer.pure _

end Batch

/-! ### Services -/

/-- What an engine is given from outside: a semantic pass, a way to fetch contents, a plan, those
who are told about the progress, and a clock. -/
structure Services (σ : Type) where
  semantic : Option (Semantic.Transformer σ) := none
  fetch : Option (String → Run σ (Option String)) := none
  plan : Contents → Specification → Run σ (List FileChange)
  observer : Option (Progress.Report → Run σ Unit) := none
  sink : Option (String → Progress.Message → Run σ Unit) := none
  clock : Run σ Int := pure 0

/-- The engine by some settings and lanes with such services. -/
def Services.engine [Module.Salvage] (v : Services σ) (settings : Settings)
    (lanes : LaneRegistry) : Engine σ :=
  { standard settings lanes with
    semantic := v.semantic
    fetch := v.fetch
    plan := v.plan
    observer := v.observer
    sink := v.sink
    clock := v.clock }

end WebMigration.Engine
