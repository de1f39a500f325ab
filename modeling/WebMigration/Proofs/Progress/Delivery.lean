import Mathlib.Data.List.Perm.Basic
import Mathlib.Tactic.ByContra
import WebMigration.Proofs.Progress.Session

/-!
# Who gets which events

A subscription is to get the kept events of its job, and then every event of the job until it ends.
A sink that removes a callable rather than a subscription gives this exactly as long as no handle is
called whose subscription has ended while the same callable still listens to the job under another
one.
-/

namespace WebMigration.Progress

variable {σ : Type} {receive : ℕ → Message → Run σ Unit} {capacity : Int} {calls before : List Call}
  {x : Call} {job jobId : String} {m : Message} {n callable : ℕ} {log log' extra : List (ℕ × Message)}

/-! ### What is due -/

/-- An event for a subscription, as its callable gets it. -/
def byCallable (calls : List Call) (e : ℕ × Message) : ℕ × Message := (callableOf calls e.1, e.2)

/-- Every subscription gets the events kept for its job, and those of the job until it ends. -/
structure Attributed (capacity : ℕ) (calls : List Call) (log : List (ℕ × Message)) : Prop where
  made : ∀ e ∈ log, e.1 < (subscriptions calls).length
  gets : ∀ before jobId callable after, calls = before ++ .subscribe jobId callable :: after →
    (log.filter (·.1 = (subscriptions before).length)).map (·.2) =
      Sink.latest capacity (since jobId before) ++ heard jobId (subscriptions before).length after

/-- Calls on a new sink do what is due: whoever the callables are, as long as they do not fail, the
calls come to an end and have handed to each subscription what it gets, and nothing else to anyone. -/
def AsDue (capacity : Int) (calls : List Call) : Prop :=
  ∀ (σ : Type) (receive : ℕ → Message → Run σ Unit), Steady receive →
    ∃ log, Attributed capacity.toNat calls log ∧ ∀ st : Logged σ, ∃ final,
      Session.run receive calls (.start capacity) st =
        (.ok final, (handOver receive (log.map (byCallable calls)) st).2)

/-- Whenever the handle of a subscription is called and its callable listens to the job, so does the
subscription itself. -/
def Undisturbed (calls : List Call) : Prop :=
  ∀ before n after, calls = before ++ .unsubscribe n :: after →
    ∀ jobId callable, (subscriptions before)[n]? = some (jobId, callable) →
      callable ∈ (live jobId before).map (·.2) → n ∈ (live jobId before).map (·.1)

/-- What is due for one call. -/
def due (capacity : ℕ) (calls : List Call) : Call → List (ℕ × Message)
  | .emit jobId m => (live jobId calls).map fun l => (l.1, m)
  | .subscribe jobId _ =>
      (Sink.latest capacity (since jobId calls)).map ((subscriptions calls).length, ·)
  | _ => []

theorem lt_of_mem_due {capacity : ℕ} {e : ℕ × Message} (h : e ∈ due capacity calls x) :
    e.1 < (subscriptions (calls ++ [x])).length := by
  rw [subscriptions_append, List.length_append]
  cases x with
  | emit jobId m =>
    obtain ⟨l, hl, rfl⟩ := List.mem_map.1 h
    exact Nat.lt_add_right _ (lt_of_mem_live hl)
  | subscribe jobId callable =>
    obtain ⟨m, -, rfl⟩ := List.mem_map.1 h
    exact Nat.lt_succ_self _
  | _ => cases h

/-- What is due to a subscription for one more call. -/
theorem filter_due (capacity : ℕ) (before after : List Call) (jobId : String) (callable : ℕ)
    (x : Call) :
    ((due capacity (before ++ .subscribe jobId callable :: after) x).filter
        (·.1 = (subscriptions before).length)).map (·.2) =
      if after.all (·.spares jobId (subscriptions before).length) then x.told jobId else [] := by
  cases x with
  | emit j m =>
    rw [due, List.filter_map, Function.comp_def, filter_live, Call.told]
    by_cases hjob : jobId = j
    · subst hjob
      by_cases hall : after.all (·.spares jobId (subscriptions before).length) = true <;> simp [hall]
    · simp [hjob, Ne.symm hjob]
  | subscribe j callable' =>
    have hother : (due capacity (before ++ .subscribe jobId callable :: after)
        (.subscribe j callable')).filter (·.1 = (subscriptions before).length) = [] := by
      refine List.filter_eq_nil_iff.2 fun e he => ?_
      obtain ⟨m, -, rfl⟩ := List.mem_map.1 he
      simp [subscriptions]
    rw [hother]
    simp [Call.told]
  | _ => simp [due, Call.told]

/-- A call among others is the last one, or comes before it. -/
theorem concat_eq_append_cons {after : List Call} {y : Call}
    (h : calls ++ [x] = before ++ y :: after) :
    (calls = before ∧ x = y ∧ after = []) ∨
      ∃ rest, calls = before ++ y :: rest ∧ after = rest ++ [x] := by
  rcases List.eq_nil_or_concat after with rfl | ⟨rest, z, rfl⟩
  · obtain ⟨hcalls, hlast⟩ := List.append_inj' h rfl
    exact .inl ⟨hcalls, List.singleton_inj.1 hlast, rfl⟩
  · rw [List.concat_eq_append] at h ⊢
    rw [← List.cons_append, ← List.append_assoc] at h
    obtain ⟨hcalls, hlast⟩ := List.append_inj' h rfl
    exact .inr ⟨rest, hcalls, by rw [List.singleton_inj.1 hlast]⟩

/-- After one more call each subscription has got what was due to it for the call in addition. -/
theorem Attributed.concat {capacity : ℕ} (h : Attributed capacity calls log)
    (hextra : ∀ n, extra.filter (·.1 = n) = (due capacity calls x).filter (·.1 = n)) :
    Attributed capacity (calls ++ [x]) (log ++ extra) := by
  constructor
  · intro e he
    rcases List.mem_append.1 he with he | he
    · rw [subscriptions_append, List.length_append]
      exact Nat.lt_add_right _ (h.made e he)
    · have hmem : e ∈ extra.filter (·.1 = e.1) := List.mem_filter.2 ⟨he, by simp⟩
      rw [hextra] at hmem
      exact lt_of_mem_due (List.mem_filter.1 hmem).1
  · intro before jobId callable after hsplit
    rw [List.filter_append, List.map_append, hextra]
    rcases concat_eq_append_cons hsplit with ⟨rfl, rfl, rfl⟩ | ⟨rest, rfl, rfl⟩
    · -- The subscription is new.
      have hold : log.filter (·.1 = (subscriptions calls).length) = [] :=
        List.filter_eq_nil_iff.2 fun e he => by
          have := h.made e he
          simp only [decide_eq_true_eq]
          omega
      rw [hold, due, List.filter_eq_self.2 (by simp), List.map_map]
      simp [heard, Function.comp_def]
    · rw [h.gets _ _ _ _ rfl, filter_due, heard_concat, List.append_assoc]

theorem attributed_nil (capacity : ℕ) : Attributed capacity [] [] where
  made _ h := by cases h
  gets before _ _ _ h := by simp at h

/-- What a subscription gets settles its part of the log. -/
theorem Attributed.filter_eq {capacity : ℕ} (h : Attributed capacity calls log)
    (h' : Attributed capacity calls log') (n : ℕ) : log.filter (·.1 = n) = log'.filter (·.1 = n) := by
  have hkey : ∀ list : List (ℕ × Message),
      list.filter (·.1 = n) = ((list.filter (·.1 = n)).map (·.2)).map (n, ·) := fun list => by
    rw [List.map_map]
    refine (List.map_id _).symm.trans (List.map_congr_left fun e he => ?_)
    have hn : e.1 = n := by simpa using (List.mem_filter.1 he).2
    rw [← hn]
    rfl
  by_cases hn : n < (subscriptions calls).length
  · obtain ⟨before, jobId, callable, after, rfl, rfl⟩ := exists_split hn
    rw [hkey log, hkey log', h.gets _ _ _ _ rfl, h'.gets _ _ _ _ rfl]
  · have hnone : ∀ {list : List (ℕ × Message)}, Attributed capacity calls list →
        list.filter (·.1 = n) = [] := fun hlist =>
      List.filter_eq_nil_iff.2 fun e he => by
        have := hlist.made e he
        simp only [decide_eq_true_eq]
        omega
    rw [hnone h, hnone h']

theorem perm_of_filter_eq (h : ∀ n, log.filter (·.1 = n) = log'.filter (·.1 = n)) :
    log.Perm log' := by
  classical
  refine List.perm_iff_count.2 fun e => ?_
  rw [← List.count_filter (l := log) (p := fun f => f.1 = e.1) (by simp), h,
    List.count_filter (by simp)]

/-! ### Sinks that are in step with their subscriptions -/

/-- The callables that a sink hands events to are those of the subscriptions that count. -/
def InStep (receive : ℕ → Message → Run σ Unit) (capacity : Int) (calls : List Call) : Prop :=
  ∀ jobId, ((reached receive capacity calls).entries jobId).Perm ((live jobId calls).map (·.2))

theorem entries_reached_concat (receive : ℕ → Message → Run σ Unit) (capacity : Int)
    (calls : List Call) (x : Call) (job : String) :
    (reached receive capacity (calls ++ [x])).entries job =
      (reached receive capacity calls).entriesAfter job x := by
  rw [reached_concat, (stands_reached receive capacity calls).built.entries_after]

/-- Calling the handle of a subscription that does not count changes no subscription. -/
theorem live_concat_unsubscribe (h : n ∉ (live jobId calls).map (·.1)) :
    live jobId (calls ++ [.unsubscribe n]) = live jobId calls := by
  simp only [live_concat, Call.joins, List.append_nil, List.filter_eq_self]
  intro l hl
  simp only [Call.spares, decide_eq_true_eq]
  rintro rfl
  exact h (List.mem_map_of_mem hl)

/-- Calling the handle of a subscription that counts takes its callable away once. -/
theorem live_concat_unsubscribe_perm {l : ℕ × ℕ} (h : l ∈ live jobId calls) :
    (live jobId calls).Perm (l :: live jobId (calls ++ [.unsubscribe l.1])) := by
  have hone : (live jobId calls).filter (·.1 = l.1) = [l] := by
    have hmem : l ∈ (live jobId calls).filter (·.1 = l.1) := List.mem_filter.2 ⟨h, by simp⟩
    obtain ⟨k, hk⟩ := List.length_eq_one_iff.1
      (Nat.le_antisymm (length_filter_live_le jobId calls l.1) (List.length_pos_of_mem hmem))
    rw [hk] at hmem ⊢
    rw [List.mem_singleton.1 hmem]
  have hrest : live jobId (calls ++ [.unsubscribe l.1]) =
      (live jobId calls).filter (fun k => !decide (k.1 = l.1)) := by
    simp only [live_concat, Call.joins, List.append_nil]
    refine List.filter_congr fun k _ => ?_
    simp [Call.spares, eq_comm]
  have hperm := List.filter_append_perm (fun k : ℕ × ℕ => decide (k.1 = l.1)) (live jobId calls)
  rw [hone, ← hrest] at hperm
  exact hperm.symm

/-- What the handle of a subscription does when the sink is in step. -/
theorem InStep.unsubscribe (h : InStep receive capacity calls)
    (hcall : ∀ jobId callable, (subscriptions calls)[n]? = some (jobId, callable) →
      callable ∈ (live jobId calls).map (·.2) → n ∈ (live jobId calls).map (·.1)) :
    InStep receive capacity (calls ++ [.unsubscribe n]) := by
  intro job
  rw [entries_reached_concat, Session.entriesAfter, (stands_reached receive capacity calls).handles]
  by_cases hlive : n ∈ (live job calls).map (·.1)
  · obtain ⟨l, hl, rfl⟩ := List.mem_map.1 hlive
    have hperm := (live_concat_unsubscribe_perm hl).map (·.2)
    rw [getElem?_of_mem_live hl]
    dsimp only
    rw [if_pos rfl]
    have herase := ((h job).trans hperm).erase l.2
    rwa [List.map_cons, List.erase_cons_head] at herase
  · rw [live_concat_unsubscribe hlive]
    cases hget : (subscriptions calls)[n]? with
    | none => exact h job
    | some made =>
      obtain ⟨jobId, callable⟩ := made
      dsimp only
      split
      · rename_i hjob
        subst hjob
        have hgone : callable ∉ (reached receive capacity calls).entries jobId := fun hmem =>
          hlive (hcall jobId callable hget ((h jobId).mem_iff.1 hmem))
        rw [List.erase_of_not_mem hgone]
        exact h jobId
      · exact h job

/-- A call keeps a sink in step that does not disturb another subscription. -/
theorem InStep.concat (h : InStep receive capacity calls)
    (hcall : ∀ n, x = .unsubscribe n → ∀ jobId callable,
      (subscriptions calls)[n]? = some (jobId, callable) →
        callable ∈ (live jobId calls).map (·.2) → n ∈ (live jobId calls).map (·.1)) :
    InStep receive capacity (calls ++ [x]) := by
  cases x with
  | unsubscribe n => exact h.unsubscribe (hcall n rfl)
  | emit jobId m =>
    intro job
    rw [entries_reached_concat, live_concat]
    simpa [Session.entriesAfter, Call.spares, Call.joins] using h job
  | subscribe jobId callable =>
    intro job
    rw [entries_reached_concat, live_concat, Session.entriesAfter]
    by_cases hjob : jobId = job
    · simpa [Call.spares, Call.joins, hjob] using (h job).append_right [callable]
    · simpa [Call.spares, Call.joins, hjob] using h job
  | clear jobId =>
    intro job
    rw [entries_reached_concat, live_concat, Session.entriesAfter]
    by_cases hjob : jobId = job
    · simp [Call.spares, Call.joins, hjob]
    · simpa [Call.spares, Call.joins, hjob] using h job

theorem Undisturbed.of_prefix {past : List Call} (h : Undisturbed calls) (hpast : past <+: calls) :
    Undisturbed past := by
  obtain ⟨rest, rfl⟩ := hpast
  rintro before n after rfl
  exact h before n (after ++ rest) (by rw [List.append_assoc, List.cons_append])

/-- A sink is in step as long as nothing disturbs it. -/
theorem inStep_of_undisturbed (receive : ℕ → Message → Run σ Unit) (capacity : Int)
    (h : Undisturbed calls) : InStep receive capacity calls := by
  induction calls using List.reverseRecOn with
  | nil => exact fun _ => .nil
  | append_singleton calls x ih =>
    refine (ih (h.of_prefix (List.prefix_append _ _))).concat ?_
    rintro n rfl
    exact h calls n [] rfl

/-! ### What is handed over -/

/-- Elements that a function takes to those of a rearranged image can be rearranged themselves. -/
theorem exists_perm_map {α β : Type} (f : α → β) {image : List β} {list : List α}
    (h : image.Perm (list.map f)) : ∃ list' : List α, list'.Perm list ∧ list'.map f = image := by
  classical
  induction image generalizing list with
  | nil =>
    rw [List.nil_perm, List.map_eq_nil_iff] at h
    exact ⟨[], h ▸ .nil, rfl⟩
  | cons b rest ih =>
    obtain ⟨a, ha, rfl⟩ := List.mem_map.1 (h.mem_iff.1 List.mem_cons_self)
    have hsplit := List.perm_cons_erase ha
    obtain ⟨rest', hperm, hmap⟩ := ih ((h.trans (hsplit.map f)).cons_inv)
    exact ⟨a :: rest', (hperm.cons a).trans hsplit.symm, by rw [List.map_cons, hmap]⟩

/-- A list of at most one element has no other arrangement. -/
theorem eq_of_perm_of_length_le {α : Type} {list list' : List α} (h : list.Perm list')
    (hlength : list'.length ≤ 1) : list = list' := by
  match list', hlength with
  | [], _ => exact h.eq_nil
  | [a], _ => exact h.eq_singleton

/-- A sink in step hands over what is due. -/
theorem InStep.exists_extra (h : InStep receive capacity calls) (x : Call) :
    ∃ extra : List (ℕ × Message),
      (∀ n, extra.filter (·.1 = n) = (due capacity.toNat calls x).filter (·.1 = n)) ∧
      extra.map (byCallable (calls ++ [x])) = (reached receive capacity calls).delivered x := by
  cases x with
  | emit jobId m =>
    obtain ⟨order, hperm, hmap⟩ := exists_perm_map (fun l : ℕ × ℕ => l.2) (h jobId)
    refine ⟨order.map fun l => (l.1, m), fun n => ?_, ?_⟩
    · refine eq_of_perm_of_length_le ((hperm.map _).filter _) ?_
      rw [due, List.filter_map, List.length_map]
      exact length_filter_live_le jobId calls n
    · rw [Session.delivered, ← hmap, List.map_map, List.map_map]
      refine List.map_congr_left fun l hl => ?_
      have hlive := hperm.mem_iff.1 hl
      show (callableOf _ l.1, m) = (l.2, m)
      rw [callableOf_append _ (lt_of_mem_live hlive), callableOf_of_mem_live hlive]
  | subscribe jobId callable =>
    refine ⟨due capacity.toNat calls (.subscribe jobId callable), fun _ => rfl, ?_⟩
    rw [Session.delivered, (stands_reached receive capacity calls).events, due, List.map_map]
    refine List.map_congr_left fun m _ => ?_
    show (callableOf _ _, m) = (callable, m)
    rw [callableOf, getElem?_subscriptions_split calls [] jobId callable]
    rfl
  | unsubscribe n => exact ⟨[], fun _ => rfl, rfl⟩
  | clear jobId => exact ⟨[], fun _ => rfl, rfl⟩

theorem Attributed.map_byCallable {capacity : ℕ} (h : Attributed capacity calls log)
    (calls' : List Call) :
    log.map (byCallable (calls ++ calls')) = log.map (byCallable calls) :=
  List.map_congr_left fun e he => by rw [byCallable, byCallable, callableOf_append _ (h.made e he)]

/-- Without disturbance the calls hand over what is due. -/
theorem exists_log (receive : ℕ → Message → Run σ Unit) (capacity : Int) (h : Undisturbed calls) :
    ∃ log, Attributed capacity.toNat calls log ∧
      log.map (byCallable calls) = (Session.start capacity).deliveries receive calls := by
  induction calls using List.reverseRecOn with
  | nil => exact ⟨[], attributed_nil _, rfl⟩
  | append_singleton calls x ih =>
    have hpast := h.of_prefix (List.prefix_append calls [x])
    obtain ⟨log, hlog, hmap⟩ := ih hpast
    obtain ⟨extra, hextra, hmore⟩ := (inStep_of_undisturbed receive capacity hpast).exists_extra x
    refine ⟨log ++ extra, hlog.concat hextra, ?_⟩
    rw [List.map_append, hlog.map_byCallable, hmap, hmore, Session.deliveries_concat]
    rfl

theorem capacityFault?_eq_none_iff :
    capacityFault? capacity = none ↔ 0 ≤ capacity ∧ capacity ≤ largestCapacity := by
  unfold capacityFault? largestCapacity
  split
  · rename_i h
    simp only [Bool.or_eq_true, decide_eq_true_eq] at h
    simp
    omega
  · rename_i h
    simp only [Bool.or_eq_true, decide_eq_true_eq] at h
    split <;> simp <;> omega

/-- Without disturbance everything goes as it is due. -/
theorem asDue_of_undisturbed (hcapacity : capacityFault? capacity = none) (h : Undisturbed calls) :
    AsDue capacity calls := by
  intro σ receive hsteady
  obtain ⟨log, hlog, hmap⟩ := exists_log receive capacity h
  refine ⟨log, hlog, fun st => ⟨reached receive capacity calls, ?_⟩⟩
  rw [hmap]
  exact (stands_start receive capacity).built.run_eq hsteady hcapacity calls st

/-! ### Callables that keep a record -/

/-- Callables that write down which of them gets which event. -/
def record (callable : ℕ) (m : Message) : Run (List (ℕ × Message)) Unit :=
  Run.update (· ++ [(callable, m)])

theorem steady_record : Steady record := fun _ _ _ => ⟨(), _, rfl⟩

theorem handOver_record (list : List (ℕ × Message)) (st : Logged (List (ℕ × Message))) :
    (handOver record list st).2.state = st.state ++ list := by
  induction list generalizing st with
  | nil => exact (List.append_nil _).symm
  | cons e rest ih =>
    have hfirst : record e.1 e.2 st = (.ok (), { st with state := st.state ++ [e] }) := rfl
    rw [handOver, Run.bind_of_ok hfirst, ih, List.append_assoc]
    rfl

/-- The record of calls that do what is due. -/
theorem AsDue.exists_log (h : AsDue capacity calls) (hcapacity : capacityFault? capacity = none) :
    ∃ log, Attributed capacity.toNat calls log ∧
      log.map (byCallable calls) = (Session.start capacity).deliveries record calls := by
  obtain ⟨log, hlog, hrun⟩ := h _ record steady_record
  obtain ⟨final, hfinal⟩ := hrun ⟨[], []⟩
  rw [(stands_start record capacity).built.run_eq steady_record hcapacity, Run.end_inj] at hfinal
  have hstate := congrArg Logged.state hfinal.2
  rw [handOver_record, handOver_record, List.nil_append, List.nil_append] at hstate
  exact ⟨log, hlog, hstate.symm⟩

/-- A sink that does what is due for one more event is in step. -/
theorem inStep_of_asDue (hcapacity : capacityFault? capacity = none) (h : AsDue capacity calls)
    (hemit : ∀ jobId m, AsDue capacity (calls ++ [.emit jobId m])) :
    InStep record capacity calls := by
  intro jobId
  let m : Message := ⟨"progress", jobId, "", 0, none⟩
  obtain ⟨log, hlog, hmap⟩ := h.exists_log hcapacity
  obtain ⟨log', hlog', hmap'⟩ := (hemit jobId m).exists_log hcapacity
  have hperm : log'.Perm (log ++ due capacity.toNat calls (.emit jobId m)) :=
    perm_of_filter_eq (hlog'.filter_eq (hlog.concat fun _ => rfl))
  have hdue : (due capacity.toNat calls (.emit jobId m)).map
      (byCallable (calls ++ [.emit jobId m])) = ((live jobId calls).map (·.2)).map (·, m) := by
    rw [due, List.map_map, List.map_map]
    refine List.map_congr_left fun l hl => ?_
    show (callableOf _ l.1, m) = (l.2, m)
    rw [callableOf_append _ (lt_of_mem_live hl), callableOf_of_mem_live hl]
  have himage := hperm.map (byCallable (calls ++ [.emit jobId m]))
  rw [hmap', Session.deliveries_concat, List.map_append, hlog.map_byCallable, hmap, hdue,
    List.perm_append_left_iff] at himage
  have hentries := himage.map (·.1)
  rw [Session.delivered, List.map_map, List.map_map, Function.comp_def, List.map_id'] at hentries
  rwa [List.map_map, Function.comp_def] at hentries

/-- A sink that is always in step is not disturbed. -/
theorem undisturbed_of_inStep (h : ∀ past, past <+: calls → InStep receive capacity past) :
    Undisturbed calls := by
  rintro before n after rfl jobId callable hget hlistens
  by_contra hlive
  have hbefore := h before (List.prefix_append _ _) jobId
  have hafter := h (before ++ [.unsubscribe n]) ⟨after, by simp⟩ jobId
  rw [entries_reached_concat, Session.entriesAfter, (stands_reached receive capacity before).handles,
    hget, live_concat_unsubscribe hlive] at hafter
  dsimp only at hafter
  rw [if_pos rfl] at hafter
  have hmem := hbefore.mem_iff.2 hlistens
  have hlength := (hafter.trans hbefore.symm).length_eq
  rw [List.length_erase_of_mem hmem] at hlength
  have := List.length_pos_of_mem hmem
  omega

/-- Where no buffer can be made nothing is emitted. -/
theorem capacityFault?_of_asDue (h : AsDue capacity [.emit jobId m]) :
    capacityFault? capacity = none := by
  obtain ⟨log, -, hrun⟩ := h _ record steady_record
  obtain ⟨final, hfinal⟩ := hrun ⟨[], []⟩
  cases hfault : capacityFault? capacity with
  | none => rfl
  | some fault =>
    have hemit : (Session.start capacity : Session (List (ℕ × Message))).sink.emit jobId m ⟨[], []⟩ =
        (.error fault, ⟨[], []⟩) := by
      have hcapacity : capacityFault?
          (Session.start capacity : Session (List (ℕ × Message))).sink.capacity = some fault := hfault
      rw [Sink.emit, hcapacity]
      rfl
    have hcall : (Session.start capacity).call record (.emit jobId m) ⟨[], []⟩ =
        (.error fault, ⟨[], []⟩) := Run.bind_of_error hemit
    rw [Session.run, Run.bind_of_error hcall] at hfinal
    cases (Run.end_inj.1 hfinal).1

/-- **Events are handed over as they are due, at every time, exactly when buffers can be made and no
handle disturbs another subscription of its callable.** -/
theorem asDue_iff (capacity : Int) (calls : List Call) :
    (∀ past, past <+: calls →
      AsDue capacity past ∧ ∀ jobId m, AsDue capacity (past ++ [.emit jobId m])) ↔
      0 ≤ capacity ∧ capacity ≤ largestCapacity ∧ Undisturbed calls := by
  rw [← and_assoc, ← capacityFault?_eq_none_iff]
  constructor
  · intro h
    have hcapacity : capacityFault? capacity = none :=
      capacityFault?_of_asDue ((h [] (List.nil_prefix)).2 "" ⟨"progress", "", "", 0, none⟩)
    exact ⟨hcapacity, undisturbed_of_inStep fun past hpast =>
      inStep_of_asDue hcapacity (h past hpast).1 (h past hpast).2⟩
  · rintro ⟨hcapacity, h⟩ past hpast
    have hundisturbed := h.of_prefix hpast
    refine ⟨asDue_of_undisturbed hcapacity hundisturbed, fun jobId m =>
      asDue_of_undisturbed hcapacity fun before n after hsplit => ?_⟩
    rcases concat_eq_append_cons hsplit with ⟨-, hlast, -⟩ | ⟨rest, hcalls, -⟩
    · cases hlast
    · exact hundisturbed before n rest hcalls

/-- Nothing disturbs subscriptions when no callable subscribes to a job twice. -/
theorem undisturbed_of_nodup (h : (subscriptions calls).Nodup) : Undisturbed calls := by
  rintro before n after rfl jobId callable hget hlistens
  obtain ⟨l, hl, rfl⟩ := List.mem_map.1 hlistens
  rw [subscriptions_append] at h
  have hmade := hget.trans (getElem?_of_mem_live hl).symm
  obtain ⟨hn, -⟩ := List.getElem?_eq_some_iff.1 hget
  rw [(List.getElem?_inj hn (List.nodup_append.1 h).1).1 hmade]
  exact List.mem_map_of_mem hl

/-- A message about nothing. -/
def news : Message := ⟨"progress", "job", "news", 0, none⟩

/-- A callable that subscribed twice gets nothing any more once one of its two handles was called
twice, and a sink for too many events hands over none. -/
theorem second_subscription_cut_off :
    ¬ AsDue 100 [.subscribe "job" 0, .subscribe "job" 0, .unsubscribe 0, .unsubscribe 0,
        .emit "job" news] ∧
      ¬ AsDue 9223372036854775808 [.emit "job" news] := by
  constructor
  · intro h
    obtain ⟨log, hlog, hmap⟩ := h.exists_log rfl
    have hnone : log = [] := List.map_eq_nil_iff.1 (hmap.trans rfl)
    have hgets := hlog.gets [.subscribe "job" 0] "job" 0
      [.unsubscribe 0, .unsubscribe 0, .emit "job" news] rfl
    rw [hnone] at hgets
    cases hgets
  · intro h
    have hfault := capacityFault?_of_asDue h
    cases hfault

end WebMigration.Progress
