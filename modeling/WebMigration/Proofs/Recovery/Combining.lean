import WebMigration.Proofs.Failure.Closed
import WebMigration.Proofs.Recovery.Answering
import WebMigration.Proofs.Recovery.Retrying

/-!
# Combinations of strategies

A combination goes through its members in order.  It passes over a member that does not take on the
failure and over one that is run and does not succeed; the first that succeeds is the winner, and no
member after it is asked or run.  The members may be combinations again, to any depth.  Where no
condition and no hook raises an error, the only thing that can end a combination without an outcome is
trying again under a policy with a pause that cannot be told in seconds.
-/

namespace WebMigration.Recovery

variable {σ α : Type}

/-! ### Asking in turn -/

section Asking

variable {β : Type} {ask : β → Run σ Bool} {items : List β} {s t : Logged σ}

/-- Questions that are all answered are answered in turn. -/
theorem firstYes_total (h : ∀ i ∈ items, Run.Total (ask i)) : Run.Total (firstYes (items.map ask)) := by
  induction items with
  | nil => exact .pure false
  | cons i rest ih =>
    refine .bind (h i List.mem_cons_self) fun answer => ?_
    cases answer with
    | true => exact .pure true
    | false => exact ih fun j hj => h j (List.mem_cons_of_mem i hj)

/-- When the answers do not depend on the state, asking in turn finds out whether there is a yes. -/
theorem firstYes_answers {verdict : β → Bool}
    (h : ∀ i ∈ items, Run.Answers (ask i) (.ok (verdict i))) :
    Run.Answers (firstYes (items.map ask)) (.ok (items.any verdict)) := by
  induction items with
  | nil => exact .pure false
  | cons i rest ih =>
    have hrest := ih fun j hj => h j (List.mem_cons_of_mem i hj)
    refine (h i List.mem_cons_self).bind_ok ?_
    rw [List.any_cons]
    cases verdict i with
    | true => exact .pure true
    | false => exact hrest

/-- An item is asked, since all before it have declined. -/
def IsAsked (ask : β → Run σ Bool) (items : List β) (s : Logged σ) (item : β) (t : Logged σ) : Prop :=
  ∃ before after, items = before ++ item :: after ∧ firstYes (before.map ask) s = (.ok false, t)

theorem isAsked_cons {first item : β} : IsAsked ask (first :: items) s item t ↔
    (first = item ∧ s = t) ∨ ∃ u, ask first s = (.ok false, u) ∧ IsAsked ask items u item t := by
  constructor
  · rintro ⟨before, after, hitems, hbefore⟩
    cases before with
    | nil =>
      obtain ⟨rfl, rfl⟩ := List.cons.inj hitems
      exact .inl ⟨rfl, (Run.pure_ok.1 hbefore).2⟩
    | cons other before =>
      obtain ⟨rfl, rfl⟩ := List.cons.inj hitems
      obtain ⟨answer, u, hfirst, hrest⟩ := Run.bind_ok.1 hbefore
      cases answer with
      | true => cases (Run.end_inj.1 hrest).1
      | false => exact .inr ⟨u, hfirst, before, after, rfl, hrest⟩
  · rintro (⟨rfl, rfl⟩ | ⟨u, hfirst, before, after, rfl, hbefore⟩)
    · exact ⟨[], items, rfl, rfl⟩
    · exact ⟨first :: before, after, rfl, (firstYes_of_no hfirst).trans hbefore⟩

/-- There is a yes exactly when an item that is asked gives it. -/
theorem firstYes_yes_iff : firstYes (items.map ask) s = (.ok true, t) ↔
    ∃ item u, IsAsked ask items s item u ∧ ask item u = (.ok true, t) := by
  induction items generalizing s with
  | nil =>
    refine iff_of_false (fun h => ?_) ?_
    · cases (Run.end_inj.1 h).1
    · rintro ⟨item, u, ⟨before, after, hitems, -⟩, -⟩
      cases before <;> cases hitems
  | cons i rest ih =>
    constructor
    · intro h
      obtain ⟨answer, u, hfirst, hrest⟩ := Run.bind_ok.1 h
      cases answer with
      | true =>
        obtain ⟨-, rfl⟩ := Run.end_inj.1 hrest
        exact ⟨i, s, isAsked_cons.2 (.inl ⟨rfl, rfl⟩), hfirst⟩
      | false =>
        obtain ⟨item, v, hasked, hyes⟩ := ih.1 hrest
        exact ⟨item, v, isAsked_cons.2 (.inr ⟨u, hfirst, hasked⟩), hyes⟩
    · rintro ⟨item, u, hasked, hyes⟩
      rcases isAsked_cons.1 hasked with ⟨rfl, rfl⟩ | ⟨v, hfirst, hasked⟩
      · exact firstYes_of_yes hyes
      · exact (firstYes_of_no hfirst).trans (ih.2 ⟨item, u, hasked, hyes⟩)

end Asking

namespace Strategy

/-! ### Conditions and hooks that answer -/

mutual

/-- The conditions and hooks of a strategy answer, and its policies allow at least one try. -/
def Calm (failure : Failure) (context : Context) : Strategy σ α → Prop
  | retry policy => 1 ≤ policy.maxRetries
  | fallback options => ∀ o ∈ options, Run.Total (o.fits failure)
  | skip condition hook => Run.Total (condition failure context) ∧ Run.Total (hook failure context)
  | composite members => AllCalm failure context members
  | custom _ _ _ => False

def AllCalm (failure : Failure) (context : Context) : List (Strategy σ α) → Prop
  | [] => True
  | s :: rest => Calm failure context s ∧ AllCalm failure context rest

end

/-! ### Leaves -/

mutual

/-- The strategies at the leaves, in order. -/
def leaves : Strategy σ α → List (Strategy σ α)
  | composite members => allLeaves members
  | retry policy => [retry policy]
  | fallback options => [fallback options]
  | skip condition hook => [skip condition hook]
  | custom name accepts recover => [custom name accepts recover]

def allLeaves : List (Strategy σ α) → List (Strategy σ α)
  | [] => []
  | s :: rest => leaves s ++ allLeaves rest

end

mutual

/-- A strategy asks its leaves in turn. -/
theorem accepts_eq_leaves (failure : Failure) : ∀ strategy : Strategy σ α,
    accepts failure strategy = firstYes (strategy.leaves.map (accepts failure))
  | composite members => by rw [accepts, leaves, anyAccepts_eq_leaves failure members]
  | retry _ => by rw [leaves, List.map_singleton, firstYes_singleton]
  | fallback _ => by rw [leaves, List.map_singleton, firstYes_singleton]
  | skip _ _ => by rw [leaves, List.map_singleton, firstYes_singleton]
  | custom _ _ _ => by rw [leaves, List.map_singleton, firstYes_singleton]

theorem anyAccepts_eq_leaves (failure : Failure) : ∀ members : List (Strategy σ α),
    anyAccepts failure members = firstYes ((allLeaves members).map (accepts failure))
  | [] => by rw [anyAccepts, allLeaves, List.map_nil, firstYes]
  | s :: rest => by
    rw [anyAccepts, allLeaves, List.map_append, firstYes_append, accepts_eq_leaves failure s,
      anyAccepts_eq_leaves failure rest]

end

/-- A strategy takes on a failure exactly when a leaf does that is asked. -/
theorem accepts_yes_iff {failure : Failure} {strategy : Strategy σ α} {s t : Logged σ} :
    accepts failure strategy s = (.ok true, t) ↔
      ∃ leaf u, IsAsked (accepts failure) strategy.leaves s leaf u ∧
        accepts failure leaf u = (.ok true, t) := by
  rw [accepts_eq_leaves, firstYes_yes_iff]

/-- When the answers of the leaves do not depend on the state, it is exactly when some leaf does. -/
theorem accepts_answers {failure : Failure} {strategy : Strategy σ α} {verdict : Strategy σ α → Bool}
    (h : ∀ leaf ∈ strategy.leaves, Run.Answers (accepts failure leaf) (.ok (verdict leaf))) :
    Run.Answers (accepts failure strategy) (.ok (strategy.leaves.any verdict)) := by
  rw [accepts_eq_leaves]
  exact firstYes_answers h

variable {failure : Failure} {context : Context}

mutual

/-- Where conditions answer, a strategy says whether it takes on a failure. -/
theorem accepts_total : ∀ {strategy : Strategy σ α}, Calm failure context strategy →
    Run.Total (accepts failure strategy)
  | retry policy, _ => by
    rw [accepts]
    exact .pure _
  | fallback options, h => by
    rw [Calm] at h
    rw [accepts, anyFits_eq]
    exact firstYes_total h
  | skip condition hook, _ => by
    rw [accepts]
    exact .pure _
  | composite members, h => by
    rw [Calm] at h
    rw [accepts]
    exact anyAccepts_total h
  | custom name accepts recover, h => by
    rw [Calm] at h
    exact h.elim

theorem anyAccepts_total : ∀ {members : List (Strategy σ α)}, AllCalm failure context members →
    Run.Total (anyAccepts failure members)
  | [], _ => by
    rw [anyAccepts]
    exact .pure _
  | s :: rest, h => by
    rw [AllCalm] at h
    rw [anyAccepts]
    refine .bind (accepts_total h.1) fun accepted => ?_
    cases accepted with
    | true => exact .pure true
    | false => exact anyAccepts_total h.2

end

theorem allCalm_iff {members : List (Strategy σ α)} :
    AllCalm failure context members ↔ ∀ m ∈ members, Calm failure context m := by
  induction members with
  | nil => simp [AllCalm]
  | cons s rest ih => rw [AllCalm, ih, List.forall_mem_cons]

/-! ### Going through the members -/

section Members

variable {operation : Run σ α}

/-- From a state a combination passes over some members, and ends in another one; the names are those of
the members that were run. -/
inductive PassesOver (failure : Failure) (context : Context) (operation : Run σ α) :
    List (Strategy σ α) → Logged σ → List String → Logged σ → Prop
  | nil {s} : PassesOver failure context operation [] s [] s
  | declined {m rest s t names u} : accepts failure m s = (.ok false, t) →
      PassesOver failure context operation rest t names u →
      PassesOver failure context operation (m :: rest) s names u
  | failed {m rest s t outcome u names v} : accepts failure m s = (.ok true, t) →
      recover failure context operation m t = (.ok outcome, u) → outcome.success = false →
      PassesOver failure context operation rest
        (told "composite:failed" context [("strategy", .string m.name)] u) names v →
      PassesOver failure context operation (m :: rest) s (m.name :: names) v

/-- A combination goes on after the members it has passed over. -/
theorem recoverByFirst_passes {before rest : List (Strategy σ α)} {s t : Logged σ}
    {names : List String} (h : PassesOver failure context operation before s names t) (count : Nat)
    (tried : List String) :
    recoverByFirst failure context operation count tried (before ++ rest) s =
      recoverByFirst failure context operation count (tried ++ names) rest t := by
  induction h generalizing tried with
  | nil => rw [List.nil_append, List.append_nil]
  | declined haccepts _ ih =>
    rw [List.cons_append, recoverByFirst, Run.bind_of_ok haccepts]
    exact ih tried
  | @failed m before s t outcome u names v haccepts hrecover hfailed _ ih =>
    rw [List.cons_append, recoverByFirst, Run.bind_of_ok haccepts, if_pos rfl,
      Run.bind_of_ok hrecover, if_neg (by rw [hfailed]; exact Bool.false_ne_true),
      Run.bind_of_ok (log_eq _ _ _ _), ih, List.append_assoc]
    rfl

/-- A member is run, since those before it were passed over and it takes on the failure. -/
def IsRun (failure : Failure) (context : Context) (operation : Run σ α)
    (members : List (Strategy σ α)) (s : Logged σ) (names : List String) (m : Strategy σ α)
    (t : Logged σ) : Prop :=
  ∃ before after u, members = before ++ m :: after ∧
    PassesOver failure context operation before s names u ∧ accepts failure m u = (.ok true, t)

/-- The combination ends as a member that is run and raises an error does. -/
theorem recoverByFirst_raised {members : List (Strategy σ α)} {m : Strategy σ α} {s t u : Logged σ}
    {names : List String} {raised : Fault} (h : IsRun failure context operation members s names m t)
    (hraised : recover failure context operation m t = (.error raised, u)) (count : Nat)
    (tried : List String) :
    recoverByFirst failure context operation count tried members s = (.error raised, u) := by
  obtain ⟨before, after, v, rfl, hbefore, haccepts⟩ := h
  rw [recoverByFirst_passes hbefore, recoverByFirst, Run.bind_of_ok haccepts, if_pos rfl]
  exact Run.bind_of_error hraised

/-- It ends with the outcome of a member that is run and succeeds. -/
theorem recoverByFirst_won {members : List (Strategy σ α)} {m : Strategy σ α} {s t u : Logged σ}
    {names : List String} {outcome : Outcome α}
    (h : IsRun failure context operation members s names m t)
    (hrecover : recover failure context operation m t = (.ok outcome, u))
    (hsuccess : outcome.success = true) (count : Nat) (tried : List String) :
    recoverByFirst failure context operation count tried members s =
      (.ok { outcome with tried := tried ++ names ++ [m.name] },
        told "composite:success" context [("strategy", .string m.name)] u) := by
  obtain ⟨before, after, v, rfl, hbefore, haccepts⟩ := h
  rw [recoverByFirst_passes hbefore, recoverByFirst, Run.bind_of_ok haccepts, if_pos rfl,
    Run.bind_of_ok hrecover, if_pos hsuccess, Run.bind_of_ok (log_eq _ _ _ _)]
  rfl

/-- Without a winner it fails with the failure it was asked to recover from. -/
theorem recoverByFirst_lost {members : List (Strategy σ α)} {s t : Logged σ} {names : List String}
    (h : PassesOver failure context operation members s names t) (count : Nat)
    (tried : List String) :
    recoverByFirst failure context operation count tried members s =
      (.ok { Outcome.failed "CompositeRecoveryStrategy" count (.failure failure) with
          tried := tried ++ names }, told "composite:exhausted" context [] t) := by
  rw [← List.append_nil members, recoverByFirst_passes h, recoverByFirst,
    Run.bind_of_ok (log_eq _ _ _ _)]
  rfl

/-- Members that all say whether they take on the failure are passed over, or one is run that succeeds
or raises an error. -/
theorem passesOver_or_isRun (context : Context) (operation : Run σ α)
    {members : List (Strategy σ α)} (h : ∀ m ∈ members, Run.Total (accepts failure m)) (s : Logged σ) :
    (∃ names t, PassesOver failure context operation members s names t) ∨
      ∃ names m t, IsRun failure context operation members s names m t ∧ m ∈ members ∧
        ∀ outcome u, recover failure context operation m t = (.ok outcome, u) →
          outcome.success = true := by
  induction members generalizing s with
  | nil => exact .inl ⟨[], s, .nil⟩
  | cons m rest ih =>
    have hrest := ih fun r hr => h r (List.mem_cons_of_mem m hr)
    obtain ⟨accepted, t, haccepts⟩ := h m List.mem_cons_self s
    cases accepted with
    | false =>
      rcases hrest t with ⟨names, u, hpasses⟩ | ⟨names, r, u, ⟨before, after, v, rfl, hpasses, hr⟩,
        hmem, hstops⟩
      · exact .inl ⟨names, u, .declined haccepts hpasses⟩
      · exact .inr ⟨names, r, u, ⟨m :: before, after, v, rfl, .declined haccepts hpasses, hr⟩,
          List.mem_cons_of_mem m hmem, hstops⟩
    | true =>
      have hfirst : IsRun failure context operation (m :: rest) s [] m t :=
        ⟨[], rest, s, rfl, .nil, haccepts⟩
      rcases hrecover : recover failure context operation m t with ⟨raised | outcome, u⟩
      · refine .inr ⟨[], m, t, hfirst, List.mem_cons_self, fun outcome v hok => ?_⟩
        exact absurd hok (Run.error_ne_ok hrecover)
      -- A member that was run stops the combination, or the rest goes on after the event about it.
      cases hsuccess : outcome.success with
      | true =>
        refine .inr ⟨[], m, t, hfirst, List.mem_cons_self, fun other v hok => ?_⟩
        rw [← (Run.answer_unique hrecover hok).1]
        exact hsuccess
      | false =>
        rcases hrest (told "composite:failed" context [("strategy", .string m.name)] u) with
          ⟨names, v, hpasses⟩ | ⟨names, r, v, ⟨before, after, w, rfl, hpasses, hr⟩, hmem, hstops⟩
        · exact .inl ⟨m.name :: names, v, .failed haccepts hrecover hsuccess hpasses⟩
        · exact .inr ⟨m.name :: names, r, v,
            ⟨m :: before, after, w, rfl, .failed haccepts hrecover hsuccess hpasses, hr⟩,
            List.mem_cons_of_mem m hmem, hstops⟩

/-- Recovering does not get to an end: a policy with a pause that cannot be told in seconds is tried
again under, here or in a member that is run. -/
inductive Stalls (failure : Failure) (context : Context) (operation : Run σ α) :
    Strategy σ α → Logged σ → Prop
  | retry {policy s} : policy.isTimed = false →
      Stalls failure context operation (.retry policy) s
  | composite {members names m s t} :
      IsRun failure context operation members (told "composite:start" context
        [("error", .string failure.code), ("strategy_count", .ofNat members.length)] s) names m t →
      Stalls failure context operation m t →
      Stalls failure context operation (.composite members) s

theorem recover_composite_eq (failure : Failure) (context : Context) (operation : Run σ α)
    (members : List (Strategy σ α)) (s : Logged σ) :
    recover failure context operation (.composite members) s =
      recoverByFirst failure context operation members.length [] members
        (told "composite:start" context
          [("error", .string failure.code), ("strategy_count", .ofNat members.length)] s) := by
  rw [recover_composite, Run.bind_of_ok (log_eq _ _ _ _)]

theorem Stalls.raises {strategy : Strategy σ α} {s : Logged σ}
    (h : Stalls failure context operation strategy s) :
    ∃ t, recover failure context operation strategy s = (.error RetryPolicy.untimed, t) := by
  induction h with
  | retry huntimed =>
    obtain ⟨t, hend⟩ := runRetry_untimed huntimed failure context operation _
    rw [recover_retry]
    exact ⟨t, hend.plain⟩
  | composite hrun _ ih =>
    obtain ⟨u, hraised⟩ := ih
    rw [recover_composite_eq]
    exact ⟨u, recoverByFirst_raised hrun hraised _ _⟩

/-! ### When a strategy answers -/

theorem runOptions_total {options : List (Fallback σ α)} (h : ∀ o ∈ options, Run.Total (o.fits failure))
    (count : Nat) : Run.Total (runOptions failure context count options) := by
  induction options with
  | nil => exact fun s => ⟨_, _, rfl⟩
  | cons o rest ih =>
    have hrest := ih fun r hr => h r (List.mem_cons_of_mem o hr)
    rw [runOptions]
    refine .bind (h o List.mem_cons_self) fun fits => ?_
    cases fits with
    | false => exact hrest
    | true =>
      refine .bind (.attempt _) fun x => ?_
      cases x with
      | ok data => exact fun s => ⟨_, _, rfl⟩
      | error fault => exact .bind (fun s => ⟨_, _, log_eq _ _ _ _⟩) fun _ => hrest

theorem runSkip_total {condition : Failure → Context → Run σ Bool}
    {hook : Failure → Context → Run σ Unit} (hcondition : Run.Total (condition failure context))
    (hhook : Run.Total (hook failure context)) :
    Run.Total (runSkip condition hook failure context : Run σ (Outcome α)) := by
  refine .bind hcondition fun accepted => ?_
  cases accepted with
  | false => exact .pure _
  | true =>
    exact .bind (fun s => ⟨_, _, log_eq _ _ _ _⟩) fun _ => .bind hhook fun _ => .pure _

mutual

/-- Where conditions and hooks answer, recovering gives an outcome or stalls. -/
theorem recover_answers_or_stalls : ∀ {strategy : Strategy σ α}, Calm failure context strategy →
    ∀ s, (∃ outcome t, recover failure context operation strategy s = (.ok outcome, t)) ∨
      Stalls failure context operation strategy s
  | retry policy, h, s => by
    rw [Calm] at h
    cases htimed : policy.isTimed with
    | false => exact .inr (.retry htimed)
    | true =>
      obtain ⟨outcome, runs, t, hend, -⟩ := runRetry_timed h htimed failure context operation s
      rw [recover_retry]
      exact .inl ⟨outcome, t, hend.plain⟩
  | fallback options, h, s => by
    rw [Calm] at h
    rw [recover]
    exact .inl (Run.Total.bind (fun s => ⟨_, _, log_eq _ _ _ _⟩) (fun _ => runOptions_total h _) s)
  | skip condition hook, h, s => by
    rw [Calm] at h
    rw [recover]
    exact .inl (runSkip_total h.1 h.2 s)
  | composite members, h, s => by
    rw [Calm] at h
    have haccepts : ∀ m ∈ members, Run.Total (accepts failure m) :=
      fun m hm => accepts_total (allCalm_iff.1 h m hm)
    rw [recover_composite_eq]
    rcases passesOver_or_isRun context operation haccepts
      (told "composite:start" context
        [("error", .string failure.code), ("strategy_count", .ofNat members.length)] s) with
      ⟨names, t, hpasses⟩ | ⟨names, m, t, hrun, hmem, hstops⟩
    · exact .inl ⟨_, _, recoverByFirst_lost hpasses _ _⟩
    · -- The member at which the combination stops is the only one that can have stalled.
      rcases member_answers_or_stalls h m hmem t with ⟨outcome, u, hok⟩ | hstalls
      · exact .inl ⟨_, _, recoverByFirst_won hrun hok (hstops outcome u hok) _ _⟩
      · exact .inr (.composite hrun hstalls)
  | custom name accepts recover, h, s => by
    rw [Calm] at h
    exact h.elim

theorem member_answers_or_stalls : ∀ {members : List (Strategy σ α)},
    AllCalm failure context members → ∀ m ∈ members,
    ∀ s, (∃ outcome t, recover failure context operation m s = (.ok outcome, t)) ∨
      Stalls failure context operation m s
  | [], _, m, hm, _ => absurd hm List.not_mem_nil
  | first :: rest, h, m, hm, s => by
    rw [AllCalm] at h
    by_cases heq : m = first
    · rw [heq]
      exact recover_answers_or_stalls h.1 s
    · exact member_answers_or_stalls h.2 m (List.mem_of_ne_of_mem heq hm) s

end

/-! ### What a combination comes to -/

/-- What a combination comes to after its start: with a winner its outcome, with the names of all
members that were run; without one the failure, with the names of all members that took it on; and the
error of a member that is run and raises one. -/
inductive Combined (failure : Failure) (context : Context) (operation : Run σ α)
    (members : List (Strategy σ α)) (s : Logged σ) : Except Fault (Outcome α) → Logged σ → Prop
  | won {names m t outcome u} : IsRun failure context operation members s names m t →
      recover failure context operation m t = (.ok outcome, u) → outcome.success = true →
      Combined failure context operation members s
        (.ok { outcome with tried := names ++ [m.name] })
        (told "composite:success" context [("strategy", .string m.name)] u)
  | lost {names t} : PassesOver failure context operation members s names t →
      Combined failure context operation members s
        (.ok { Outcome.failed "CompositeRecoveryStrategy" members.length (.failure failure) with
          tried := names })
        (told "composite:exhausted" context [] t)
  | raised {names m t fault u} : IsRun failure context operation members s names m t →
      recover failure context operation m t = (.error fault, u) →
      Combined failure context operation members s (.error fault) u

/-- A combination whose members say whether they take on the failure comes to what it should. -/
theorem recover_combined (context : Context) (operation : Run σ α)
    {members : List (Strategy σ α)} (h : ∀ m ∈ members, Run.Total (accepts failure m)) (s : Logged σ) :
    ∃ x t, recover failure context operation (.composite members) s = (x, t) ∧
      Combined failure context operation members (told "composite:start" context
        [("error", .string failure.code), ("strategy_count", .ofNat members.length)] s) x t := by
  rw [recover_composite_eq]
  rcases passesOver_or_isRun context operation h
    (told "composite:start" context
      [("error", .string failure.code), ("strategy_count", .ofNat members.length)] s) with
    ⟨names, t, hpasses⟩ | ⟨names, m, t, hrun, -, hstops⟩
  · exact ⟨_, _, recoverByFirst_lost hpasses _ _, .lost hpasses⟩
  · rcases hrecover : recover failure context operation m t with ⟨fault | outcome, u⟩
    · exact ⟨_, _, recoverByFirst_raised hrun hrecover _ _, .raised hrun hrecover⟩
    · have hsuccess := hstops outcome u hrecover
      exact ⟨_, _, recoverByFirst_won hrun hrecover hsuccess _ _, .won hrun hrecover hsuccess⟩

/-- What is true of a combination, for a failure, a failed step and a state. -/
structure Combines (failure : Failure) (context : Context) (operation : Run σ α)
    (members : List (Strategy σ α)) (s : Logged σ) (x : Except Fault (Outcome α)) (t : Logged σ) :
    Prop where
  ends : recover failure context operation (.composite members) s = (x, t)
  combined : Combined failure context operation members (told "composite:start" context
    [("error", .string failure.code), ("strategy_count", .ofNat members.length)] s) x t
  /-- The only way not to answer. -/
  raises_iff : ∀ fault, x = .error fault ↔
    fault = RetryPolicy.untimed ∧ Stalls failure context operation (.composite members) s
  answered : Run.Total (accepts failure (.composite members))
  accepts_iff : ∀ u, accepts failure (.composite members) s = (.ok true, u) ↔
    ∃ leaf v, IsAsked (accepts failure) (allLeaves members) s leaf v ∧
      accepts failure leaf v = (.ok true, u)
  accepts_any : ∀ verdict : Strategy σ α → Bool,
    (∀ leaf ∈ allLeaves members, Run.Answers (accepts failure leaf) (.ok (verdict leaf))) →
      Run.Answers (accepts failure (.composite members)) (.ok ((allLeaves members).any verdict))

/-- **A combination runs in order exactly the members that take on the failure, up to the first that
succeeds, and takes it on exactly when some leaf does.**  Unless it stalls it answers. -/
theorem recover_composite_combines {members : List (Strategy σ α)}
    (hcalm : AllCalm failure context members) (operation : Run σ α) (s : Logged σ) :
    ∃ x t, Combines failure context operation members s x t := by
  have hcomposite : Calm failure context (.composite members) := by rwa [Calm]
  obtain ⟨x, t, hends, hcombined⟩ := recover_combined context operation
    (fun m hm => accepts_total (allCalm_iff.1 hcalm m hm)) s
  have hleaves : (Strategy.composite members).leaves = allLeaves members := by rw [leaves]
  refine ⟨x, t, hends, hcombined, fun fault => ?_, accepts_total hcomposite, fun u => ?_, ?_⟩
  · constructor
    · rintro rfl
      rcases recover_answers_or_stalls hcomposite s with ⟨outcome, u, hok⟩ | hstalls
      · exact absurd hok (Run.error_ne_ok hends)
      · obtain ⟨u, hraised⟩ := hstalls.raises
        rw [hraised] at hends
        exact ⟨(Except.error.inj (Run.end_inj.1 hends).1).symm, hstalls⟩
    · rintro ⟨rfl, hstalls⟩
      obtain ⟨u, hraised⟩ := hstalls.raises
      rw [hraised] at hends
      exact (Run.end_inj.1 hends).1.symm
  · rw [accepts_yes_iff, hleaves]
  · intro verdict h
    rw [← hleaves] at h ⊢
    exact accepts_answers h

end Members

/-- A flaky step is tried again, though accepting the failure could follow. -/
theorem recover_composite_combines_flaky :
    AllCalm Manager.unreachable.toFailure { operation := "transform" }
        [.retry {}, (Manager.skipTransformation : Strategy Nat String)] ∧
      ∃ x t, Combines Manager.unreachable.toFailure { operation := "transform" } Manager.flaky
        [.retry {}, Manager.skipTransformation] ⟨1, []⟩ x t := by
  have hcalm : AllCalm Manager.unreachable.toFailure { operation := "transform" }
      [.retry {}, (Manager.skipTransformation : Strategy Nat String)] := by
    rw [allCalm_iff]
    simp only [List.forall_mem_cons, List.not_mem_nil, false_imp_iff, implies_true, and_true]
    refine ⟨?_, ?_⟩
    · rw [Calm]
      decide
    · rw [Manager.skipTransformation, Calm]
      exact ⟨.pure _, .pure _⟩
  exact ⟨hcalm, recover_composite_combines hcalm Manager.flaky ⟨1, []⟩⟩

/-- Trying again under a policy whose first pause cannot be told in seconds, and accepting the
failure. -/
def stalling : List (Strategy Unit String) :=
  [.retry { initialBackoff := 10 ^ 312 }, .skip (fun _ _ => pure true) fun _ _ => pure ()]

/-- Both members take on the failure, but their combination does not answer: the step is not run, though
it would succeed, and the failure is not accepted. -/
theorem stalling_unanswered :
    AllCalm Manager.unreachable.toFailure { operation := "transform" } stalling ∧
      (∀ m ∈ stalling, accepts Manager.unreachable.toFailure m = pure true) ∧
      ¬ ∃ outcome t, recover Manager.unreachable.toFailure { operation := "transform" }
        (pure "result") (.composite stalling) ⟨(), []⟩ = (.ok outcome, t) := by
  have huntimed : ({ initialBackoff := 10 ^ 312 } : RetryPolicy).isTimed = false := by
    have hlarge : ¬ 10 ^ 312 < Number.Binary64.limit * 1000 := by decide +kernel
    rw [← Bool.not_eq_true, RetryPolicy.isTimed_iff]
    exact fun h => hlarge h.1
  refine ⟨?_, ?_, ?_⟩
  · rw [allCalm_iff]
    unfold stalling
    simp only [List.forall_mem_cons, List.not_mem_nil, false_imp_iff, implies_true, and_true]
    refine ⟨?_, ?_⟩
    · rw [Calm]
      decide
    · rw [Calm]
      exact ⟨.pure _, .pure _⟩
  · unfold stalling
    simp only [List.forall_mem_cons, List.not_mem_nil, false_imp_iff, implies_true, and_true]
    refine ⟨?_, ?_⟩
    · rw [accepts]
      rfl
    · rw [accepts]
  · have hrun : IsRun Manager.unreachable.toFailure { operation := "transform" } (pure "result")
        stalling (told "composite:start" { operation := "transform" }
          [("error", .string "AI_SERVICE_ERROR"), ("strategy_count", .ofNat 2)] ⟨(), []⟩) []
        (.retry { initialBackoff := 10 ^ 312 }) _ :=
      ⟨[], _, _, rfl, .nil, by rw [accepts]; rfl⟩
    obtain ⟨t, hraised⟩ := Stalls.raises (.composite hrun (.retry huntimed))
    rintro ⟨outcome, u, hok⟩
    exact Run.error_ne_ok hraised hok

end Strategy

end WebMigration.Recovery
