import Mathlib.Data.List.Basic
import Mathlib.Data.List.Induction
import WebMigration.Progress.Sink
import WebMigration.Proofs.Failure.Run
import WebMigration.Proofs.Table

/-!
# Sessions of calls on a sink

What a sequence of calls is to bring about, told from the calls alone: which events a job has had since
it was last cleared, which events come before a subscription ends, and which subscriptions of a job
still count.  Callables have numbers.  A subscription is known by its place among all subscriptions,
and a call of its handle by the same number.

Then the calls are made on a sink one after the other; the job and the callable of each subscription stay
with its handle.  When no callable fails, a call hands events to callables in a certain order and does
nothing else that is seen, so that a session is the list of what it hands to whom.
-/

namespace WebMigration.Progress

/-- A call on a sink or of one of the handles that it gave. -/
inductive Call
  | emit (jobId : String) (m : Message)
  | subscribe (jobId : String) (callable : ℕ)
  | unsubscribe (subscription : ℕ)
  | clear (jobId : String)

namespace Call

/-- The events that a call tells about a job. -/
def told (jobId : String) : Call → List Message
  | emit j m => if j = jobId then [m] else []
  | _ => []

/-- Whether a call clears a job. -/
def clears (jobId : String) : Call → Bool
  | clear j => j = jobId
  | _ => false

/-- Whether a subscription of a job outlives a call. -/
def spares (jobId : String) (n : ℕ) : Call → Bool
  | unsubscribe k => k ≠ n
  | clear j => j ≠ jobId
  | _ => true

/-- The subscription that a call makes for a job under a number, with its callable. -/
def joins (jobId : String) (n : ℕ) : Call → List (ℕ × ℕ)
  | subscribe j callable => if j = jobId then [(n, callable)] else []
  | _ => []

theorem told_of_not_spares {jobId : String} {n : ℕ} {x : Call} (h : x.spares jobId n = false) :
    x.told jobId = [] := by
  cases x with
  | emit j m => cases h
  | _ => rfl

end Call

variable {calls before after : List Call} {x : Call} {job jobId : String} {n k callable : ℕ}

/-- The job and the callable of each subscription. -/
def subscriptions (calls : List Call) : List (String × ℕ) :=
  calls.filterMap fun
    | .subscribe jobId callable => some (jobId, callable)
    | _ => none

/-- The callable of a subscription. -/
def callableOf (calls : List Call) (n : ℕ) : ℕ := ((subscriptions calls)[n]?.map (·.2)).getD 0

/-- The events of a job since it was last cleared. -/
def since (jobId : String) (calls : List Call) : List Message :=
  (calls.reverse.takeWhile (!·.clears jobId)).reverse.flatMap (·.told jobId)

/-- The events of a job until a subscription ends. -/
def heard (jobId : String) (n : ℕ) (calls : List Call) : List Message :=
  (calls.takeWhile (·.spares jobId n)).flatMap (·.told jobId)

/-- The subscriptions of a job that count after some calls, with their callables; numbers begin with a
given one. -/
def liveFrom (jobId : String) : ℕ → List Call → List (ℕ × ℕ)
  | _, [] => []
  | n, .subscribe j callable :: rest =>
      if j = jobId ∧ rest.all (·.spares jobId n) then
        (n, callable) :: liveFrom jobId (n + 1) rest
      else liveFrom jobId (n + 1) rest
  | n, .emit .. :: rest => liveFrom jobId n rest
  | n, .unsubscribe _ :: rest => liveFrom jobId n rest
  | n, .clear _ :: rest => liveFrom jobId n rest

/-- The subscriptions of a job that count after some calls, with their callables. -/
def live (jobId : String) (calls : List Call) : List (ℕ × ℕ) := liveFrom jobId 0 calls

/-! ### One more call -/

theorem subscriptions_append (calls calls' : List Call) :
    subscriptions (calls ++ calls') = subscriptions calls ++ subscriptions calls' :=
  List.filterMap_append

/-- Subscriptions keep their callables. -/
theorem callableOf_append (calls' : List Call) (h : n < (subscriptions calls).length) :
    callableOf (calls ++ calls') n = callableOf calls n := by
  rw [callableOf, callableOf, subscriptions_append, List.getElem?_append_left h]

theorem since_concat (jobId : String) (calls : List Call) (x : Call) :
    since jobId (calls ++ [x]) =
      if x.clears jobId then [] else since jobId calls ++ x.told jobId := by
  unfold since
  rw [List.reverse_append, List.reverse_singleton, List.singleton_append, List.takeWhile_cons]
  by_cases h : x.clears jobId = true <;> simp [h]

theorem heard_concat (jobId : String) (n : ℕ) (calls : List Call) (x : Call) :
    heard jobId n (calls ++ [x]) =
      heard jobId n calls ++ if calls.all (·.spares jobId n) then x.told jobId else [] := by
  unfold heard
  induction calls with
  | nil =>
    cases h : x.spares jobId n
    · simp [h, Call.told_of_not_spares h]
    · simp [h]
  | cons y rest ih =>
    rw [List.cons_append, List.takeWhile_cons, List.takeWhile_cons, List.all_cons]
    cases h : y.spares jobId n
    · simp
    · simp [ih]

/-- A call ends subscriptions and may make one. -/
theorem liveFrom_concat (jobId : String) (n : ℕ) (calls : List Call) (x : Call) :
    liveFrom jobId n (calls ++ [x]) =
      (liveFrom jobId n calls).filter (fun l => x.spares jobId l.1) ++
        x.joins jobId (n + (subscriptions calls).length) := by
  induction calls generalizing n with
  | nil => cases x <;> simp [liveFrom, Call.joins, subscriptions]
  | cons y rest ih =>
    cases y with
    | subscribe j callable =>
      have hcount : n + 1 + (subscriptions rest).length =
          n + (subscriptions (.subscribe j callable :: rest)).length := by
        simp [subscriptions]
        omega
      rw [List.cons_append, liveFrom, liveFrom, ih, hcount, List.all_append]
      by_cases hmine : j = jobId ∧ rest.all (·.spares jobId n) = true
      · cases hx : x.spares jobId n <;> simp [hmine.1, hmine.2, hx]
      · rw [if_neg hmine, if_neg (fun h => hmine ⟨h.1, (Bool.and_eq_true _ _ ▸ h.2).1⟩)]
    | _ => exact ih n

theorem live_concat (jobId : String) (calls : List Call) (x : Call) :
    live jobId (calls ++ [x]) = (live jobId calls).filter (fun l => x.spares jobId l.1) ++
      x.joins jobId (subscriptions calls).length := by
  rw [live, liveFrom_concat, Nat.zero_add]
  rfl

/-! ### The subscriptions that count -/

/-- Each number is that of a subscription made by some call. -/
theorem exists_split (h : n < (subscriptions calls).length) :
    ∃ before jobId callable after, calls = before ++ .subscribe jobId callable :: after ∧
      (subscriptions before).length = n := by
  induction calls generalizing n with
  | nil => cases h
  | cons x rest ih =>
    cases x with
    | subscribe j callable =>
      cases n with
      | zero => exact ⟨[], j, callable, rest, rfl, rfl⟩
      | succ n =>
        obtain ⟨before, j', callable', after, rfl, hn⟩ := ih (Nat.lt_of_succ_lt_succ h)
        exact ⟨.subscribe j callable :: before, j', callable', after, rfl, congrArg Nat.succ hn⟩
    | emit j m =>
      obtain ⟨before, j', callable', after, rfl, hn⟩ := ih h
      exact ⟨.emit j m :: before, j', callable', after, rfl, hn⟩
    | unsubscribe k =>
      obtain ⟨before, j', callable', after, rfl, hn⟩ := ih h
      exact ⟨.unsubscribe k :: before, j', callable', after, rfl, hn⟩
    | clear j =>
      obtain ⟨before, j', callable', after, rfl, hn⟩ := ih h
      exact ⟨.clear j :: before, j', callable', after, rfl, hn⟩

theorem getElem?_subscriptions_split (before after : List Call) (jobId : String) (callable : ℕ) :
    (subscriptions (before ++ .subscribe jobId callable :: after))[(subscriptions before).length]? =
      some (jobId, callable) := by
  rw [subscriptions_append, List.getElem?_append_right (Nat.le_refl _), Nat.sub_self]
  rfl

theorem bounds_of_mem_liveFrom {l : ℕ × ℕ} (h : l ∈ liveFrom jobId n calls) :
    n ≤ l.1 ∧ l.1 < n + (subscriptions calls).length := by
  induction calls generalizing n with
  | nil => cases h
  | cons x rest ih =>
    cases x with
    | subscribe j callable =>
      have hcount : (subscriptions (.subscribe j callable :: rest)).length =
          (subscriptions rest).length + 1 := rfl
      rw [liveFrom] at h
      split at h
      · rcases List.mem_cons.1 h with rfl | h
        · exact ⟨Nat.le_refl _, by omega⟩
        · have := ih h
          omega
      · have := ih h
        omega
    | _ => exact ih h

/-- Whether a subscription counts for a job. -/
theorem filter_liveFrom (job : String) (k : ℕ) (before after : List Call) (jobId : String)
    (callable : ℕ) :
    (liveFrom job k (before ++ .subscribe jobId callable :: after)).filter
        (·.1 = k + (subscriptions before).length) =
      if jobId = job ∧ after.all (·.spares job (k + (subscriptions before).length)) then
        [(k + (subscriptions before).length, callable)] else [] := by
  -- The subscriptions before take the numbers below this one, those after it take greater ones.
  induction before generalizing k with
  | nil =>
    have hlater : (liveFrom job (k + 1) after).filter (·.1 = k + 0) = [] :=
      List.filter_eq_nil_iff.2 fun l hl => by
        have := (bounds_of_mem_liveFrom hl).1
        simp only [decide_eq_true_eq]
        omega
    show (liveFrom job k (.subscribe jobId callable :: after)).filter (·.1 = k + 0) =
      if jobId = job ∧ after.all (·.spares job k) then [(k, callable)] else []
    rw [liveFrom]
    split
    · rw [List.filter_cons_of_pos (by simp), hlater]
    · exact hlater
  | cons x rest ih =>
    cases x with
    | subscribe j callable' =>
      have hcount : k + (subscriptions (.subscribe j callable' :: rest)).length =
          k + 1 + (subscriptions rest).length := by
        simp [subscriptions]
        omega
      rw [hcount, ← ih, List.cons_append, liveFrom]
      split
      · rw [List.filter_cons_of_neg (by simp; omega)]
      · rfl
    | _ => exact ih k

theorem filter_live (job : String) (before after : List Call) (jobId : String) (callable : ℕ) :
    (live job (before ++ .subscribe jobId callable :: after)).filter
        (·.1 = (subscriptions before).length) =
      if jobId = job ∧ after.all (·.spares job (subscriptions before).length) then
        [((subscriptions before).length, callable)] else [] := by
  unfold live
  simpa only [Nat.zero_add] using filter_liveFrom job 0 before after jobId callable

theorem lt_of_mem_live {l : ℕ × ℕ} (h : l ∈ live jobId calls) : l.1 < (subscriptions calls).length := by
  simpa using (bounds_of_mem_liveFrom h).2

/-- A subscription that counts for a job was made for it. -/
theorem getElem?_of_mem_live {l : ℕ × ℕ} (h : l ∈ live jobId calls) :
    (subscriptions calls)[l.1]? = some (jobId, l.2) := by
  obtain ⟨before, j, callable, after, rfl, hn⟩ := exists_split (lt_of_mem_live h)
  have hmem : l ∈ (live jobId (before ++ .subscribe j callable :: after)).filter
      (·.1 = (subscriptions before).length) := List.mem_filter.2 ⟨h, by simp [hn]⟩
  rw [filter_live] at hmem
  split at hmem
  · rename_i hmine
    obtain rfl := List.mem_singleton.1 hmem
    rw [getElem?_subscriptions_split, hmine.1]
  · cases hmem

theorem callableOf_of_mem_live {l : ℕ × ℕ} (h : l ∈ live jobId calls) : callableOf calls l.1 = l.2 := by
  rw [callableOf, getElem?_of_mem_live h]
  rfl

/-- A subscription counts once. -/
theorem length_filter_live_le (jobId : String) (calls : List Call) (n : ℕ) :
    ((live jobId calls).filter (·.1 = n)).length ≤ 1 := by
  by_cases hn : n < (subscriptions calls).length
  · obtain ⟨before, j, callable, after, rfl, rfl⟩ := exists_split hn
    rw [filter_live]
    split <;> simp
  · rw [List.filter_eq_nil_iff.2 fun l hl => ?_]
    · exact Nat.zero_le 1
    · have := lt_of_mem_live hl
      simp only [decide_eq_true_eq]
      omega

end WebMigration.Progress

/-! ## Calls made one after the other -/

namespace WebMigration.Progress

variable {σ : Type} {calls : List Call} {x : Call} {job jobId : String} {m : Message}

/-- A sink, with the job and the callable of each handle that it gave. -/
structure Session (σ : Type) where
  sink : Sink σ
  handles : List (String × ℕ) := []

variable (receive : ℕ → Message → Run σ Unit)

/-- A callable as a subscriber. -/
def caller (callable : ℕ) : Subscriber σ := ⟨callable, receive callable⟩

/-- Hands events to callables one after the other. -/
def handOver : List (ℕ × Message) → Run σ Unit
  | [] => pure ()
  | (callable, m) :: rest => do
      receive callable m
      handOver rest

namespace Session

/-- Makes a call; the handle of a subscription that was not made is not there to be called. -/
def call (s : Session σ) : Call → Run σ (Session σ)
  | .emit jobId m => do
      let sink ← s.sink.emit jobId m
      return { s with sink }
  | .subscribe jobId callable => do
      let (sink, backlog) := s.sink.subscribe jobId (caller receive callable)
      Sink.replay (caller receive callable) backlog
      return ⟨sink, s.handles ++ [(jobId, callable)]⟩
  | .unsubscribe n =>
      match s.handles[n]? with
      | some (jobId, callable) => return { s with sink := s.sink.unsubscribe jobId callable }
      | none => return s
  | .clear jobId => return { s with sink := s.sink.clear jobId }

/-- Makes calls one after the other. -/
def run : List Call → Session σ → Run σ (Session σ)
  | [], s => pure s
  | x :: rest, s => do
      let s ← s.call receive x
      run rest s

/-- What a call makes of a session. -/
def after (s : Session σ) : Call → Session σ
  | .emit jobId m => { s with sink := s.sink.keep jobId m }
  | .subscribe jobId callable =>
      ⟨(s.sink.subscribe jobId (caller receive callable)).1, s.handles ++ [(jobId, callable)]⟩
  | .unsubscribe n =>
      match s.handles[n]? with
      | some (jobId, callable) => { s with sink := s.sink.unsubscribe jobId callable }
      | none => s
  | .clear jobId => { s with sink := s.sink.clear jobId }

/-- The callables that get the events of a job. -/
def entries (s : Session σ) (jobId : String) : List ℕ := (s.sink.subscribersOf jobId).map (·.id)

/-- The events that a call hands to callables. -/
def delivered (s : Session σ) : Call → List (ℕ × Message)
  | .emit jobId m => (s.entries jobId).map (·, m)
  | .subscribe jobId callable => (s.sink.events jobId).map (callable, ·)
  | _ => []

/-- The events that calls hand to callables. -/
def deliveries (s : Session σ) : List Call → List (ℕ × Message)
  | [] => []
  | x :: rest => s.delivered x ++ (s.after receive x).deliveries rest

theorem deliveries_concat (s : Session σ) (calls : List Call) (x : Call) :
    s.deliveries receive (calls ++ [x]) =
      s.deliveries receive calls ++ (calls.foldl (after receive) s).delivered x := by
  induction calls generalizing s with
  | nil => exact List.append_nil _
  | cons y rest ih => rw [List.cons_append, deliveries, deliveries, ih, List.append_assoc]; rfl

end Session

/-! ### Subscribers that do not fail -/

variable {receive}

/-- No callable fails. -/
def Steady (receive : ℕ → Message → Run σ Unit) : Prop := ∀ callable m, (receive callable m).Total

theorem Steady.receive_eq (h : Steady receive) (callable : ℕ) (m : Message) (s : Logged σ) :
    receive callable m s = (.ok (), (receive callable m s).2) := by
  obtain ⟨⟨⟩, t, ht⟩ := h callable m s
  rw [ht]

theorem Steady.handOver_eq (h : Steady receive) (list : List (ℕ × Message)) (s : Logged σ) :
    handOver receive list s = (.ok (), (handOver receive list s).2) := by
  induction list generalizing s with
  | nil => rfl
  | cons e rest ih =>
    rw [handOver, Run.bind_of_ok (h.receive_eq e.1 e.2 s)]
    exact ih _

theorem Steady.handOver_append (h : Steady receive) (front back : List (ℕ × Message))
    (s : Logged σ) :
    handOver receive (front ++ back) s = handOver receive back (handOver receive front s).2 := by
  induction front generalizing s with
  | nil => rfl
  | cons e rest ih =>
    rw [List.cons_append, handOver, handOver, Run.bind_of_ok (h.receive_eq e.1 e.2 s),
      Run.bind_of_ok (h.receive_eq e.1 e.2 s)]
    exact ih _

/-- Delivering an event to callables is handing it to them. -/
theorem Steady.deliver_eq (h : Steady receive) (m : Message) (callables : List ℕ) (s : Logged σ) :
    Sink.deliver m (callables.map (caller receive)) s = handOver receive (callables.map (·, m)) s := by
  induction callables generalizing s with
  | nil => rfl
  | cons callable rest ih =>
    have hattempt : Run.attempt ((caller receive callable).receive m) s =
        (.ok (.ok ()), (receive callable m s).2) := by
      rw [Run.attempt_eq]
      exact congrArg (fun r => (Except.ok r.1, r.2)) (h.receive_eq callable m s)
    rw [List.map_cons, List.map_cons, handOver, Sink.deliver, Run.bind_of_ok hattempt,
      Run.bind_of_ok (h.receive_eq callable m s)]
    exact ih _

theorem replay_eq (receive : ℕ → Message → Run σ Unit) (callable : ℕ) (backlog : List Message) :
    Sink.replay (caller receive callable) backlog = handOver receive (backlog.map (callable, ·)) := by
  induction backlog with
  | nil => rfl
  | cons m rest ih =>
    rw [List.map_cons, handOver, Sink.replay, ih]
    rfl

/-! ### What calls do -/

namespace Session

variable {s : Session σ}

/-- All subscribers are callables that subscribed. -/
def Built (receive : ℕ → Message → Run σ Unit) (s : Session σ) : Prop :=
  ∀ jobId, s.sink.subscribersOf jobId = (s.entries jobId).map (caller receive)

theorem subscribersOf_put (sink : Sink σ) (jobId other : String) (list : List (Subscriber σ)) :
    { sink with subscribers := sink.subscribers.put jobId list }.subscribersOf other =
      if jobId = other then list else sink.subscribersOf other := by
  unfold Sink.subscribersOf
  rw [Table.get?_put]
  split <;> rfl

theorem subscribersOf_clear (sink : Sink σ) (jobId other : String) :
    (sink.clear jobId).subscribersOf other =
      if jobId = other then [] else sink.subscribersOf other := by
  unfold Sink.subscribersOf Sink.clear
  rw [Table.get?_erase]
  split <;> rfl

theorem withoutFirst_map_caller (callable : ℕ) (callables : List ℕ) :
    Sink.withoutFirst callable (callables.map (caller receive)) =
      (callables.erase callable).map (caller receive) := by
  induction callables with
  | nil => rfl
  | cons c rest ih =>
    rw [List.map_cons, Sink.withoutFirst, List.erase_cons]
    by_cases hc : c = callable <;> simp [caller, hc, ih]

theorem map_id_caller (callables : List ℕ) :
    (callables.map (caller receive)).map (·.id) = callables := by
  rw [List.map_map]
  exact List.map_id _

/-- The callables that get the events of a job after a call. -/
def entriesAfter (s : Session σ) (job : String) : Call → List ℕ
  | .emit .. => s.entries job
  | .subscribe jobId callable =>
      if jobId = job then s.entries job ++ [callable] else s.entries job
  | .unsubscribe n =>
      match s.handles[n]? with
      | some (jobId, callable) =>
          if jobId = job then (s.entries job).erase callable else s.entries job
      | none => s.entries job
  | .clear jobId => if jobId = job then [] else s.entries job

theorem Built.subscribersOf_after (h : s.Built receive) (x : Call) (job : String) :
    (s.after receive x).sink.subscribersOf job = (s.entriesAfter job x).map (caller receive) := by
  cases x with
  | emit jobId m => exact h job
  | subscribe jobId callable =>
    show (s.sink.subscribe jobId (caller receive callable)).1.subscribersOf job = _
    rw [Sink.subscribe, subscribersOf_put, entriesAfter]
    split
    · rename_i hjob
      rw [h jobId, hjob, List.map_append]
      rfl
    · exact h job
  | unsubscribe n =>
    rw [after, entriesAfter]
    split
    · rename_i jobId callable _
      rw [Sink.unsubscribe, subscribersOf_put]
      split
      · rename_i hjob
        rw [h jobId, hjob, withoutFirst_map_caller]
      · exact h job
    · exact h job
  | clear jobId =>
    rw [after, entriesAfter, subscribersOf_clear]
    split
    · rfl
    · exact h job

theorem Built.entries_after (h : s.Built receive) (x : Call) (job : String) :
    (s.after receive x).entries job = s.entriesAfter job x := by
  rw [entries, h.subscribersOf_after, map_id_caller]

theorem Built.after (h : s.Built receive) (x : Call) : (s.after receive x).Built receive :=
  fun job => by rw [h.entries_after, h.subscribersOf_after]

@[simp] theorem capacity_after (s : Session σ) (x : Call) :
    (s.after receive x).sink.capacity = s.sink.capacity := by
  cases x with
  | unsubscribe n =>
    rw [Session.after]
    split <;> rfl
  | _ => rfl

/-- **A call hands events to callables, and changes the session.** -/
theorem Built.call_eq (h : s.Built receive) (hsteady : Steady receive)
    (hcapacity : capacityFault? s.sink.capacity = none) (x : Call) (st : Logged σ) :
    s.call receive x st = (.ok (s.after receive x), (handOver receive (s.delivered x) st).2) := by
  cases x with
  | emit jobId m =>
    have hemit : s.sink.emit jobId m st =
        (.ok (s.sink.keep jobId m), (handOver receive ((s.entries jobId).map (·, m)) st).2) := by
      have hdeliver := hsteady.deliver_eq m (s.entries jobId) st
      rw [hsteady.handOver_eq, ← h jobId] at hdeliver
      rw [Sink.emit, hcapacity]
      exact Run.bind_of_ok hdeliver
    rw [call, Run.bind_of_ok hemit]
    rfl
  | subscribe jobId callable =>
    have hreplay : Sink.replay (caller receive callable) (s.sink.events jobId) st =
        (.ok (), (handOver receive ((s.sink.events jobId).map (callable, ·)) st).2) := by
      rw [replay_eq]
      exact hsteady.handOver_eq _ st
    exact Run.bind_of_ok hreplay
  | unsubscribe n =>
    rw [call, Session.after]
    cases s.handles[n]? <;> rfl
  | clear jobId => rfl

/-- **Calls hand events to callables, and change the session.** -/
theorem Built.run_eq (h : s.Built receive) (hsteady : Steady receive)
    (hcapacity : capacityFault? s.sink.capacity = none) (calls : List Call) (st : Logged σ) :
    run receive calls s st =
      (.ok (calls.foldl (Session.after receive) s),
        (handOver receive (s.deliveries receive calls) st).2) := by
  induction calls generalizing s st with
  | nil => rfl
  | cons x rest ih =>
    rw [run, Run.bind_of_ok (h.call_eq hsteady hcapacity x st),
      ih (h.after x) (by rwa [capacity_after]), List.foldl_cons, deliveries, hsteady.handOver_append]

end Session

/-! ### A new sink -/

/-- A session with a new sink. -/
def Session.start (capacity : Int) : Session σ := ⟨{ capacity }, []⟩

/-- A session with a new sink after some calls. -/
def reached (receive : ℕ → Message → Run σ Unit) (capacity : Int) (calls : List Call) : Session σ :=
  calls.foldl (Session.after receive) (.start capacity)

theorem reached_concat (receive : ℕ → Message → Run σ Unit) (capacity : Int) (calls : List Call)
    (x : Call) :
    reached receive capacity (calls ++ [x]) = (reached receive capacity calls).after receive x := by
  rw [reached, List.foldl_append]
  rfl

/-- The last items of a list with one more item are among the last items of its front. -/
theorem latest_latest_concat {α : Type} (capacity : ℕ) (items : List α) (a : α) :
    Sink.latest capacity (Sink.latest capacity items ++ [a]) =
      Sink.latest capacity (items ++ [a]) := by
  unfold Sink.latest
  simp only [List.length_append, List.length_drop, List.length_singleton, List.drop_append,
    List.drop_drop]
  congr 2 <;> omega

/-- A session stands as some calls told it. -/
structure Stands (receive : ℕ → Message → Run σ Unit) (capacity : Int) (calls : List Call)
    (s : Session σ) : Prop where
  built : s.Built receive
  room : s.sink.capacity = capacity
  handles : s.handles = subscriptions calls
  events : ∀ jobId, s.sink.events jobId = Sink.latest capacity.toNat (since jobId calls)

theorem stands_start (receive : ℕ → Message → Run σ Unit) (capacity : Int) :
    Stands receive capacity [] (.start capacity) where
  built _ := rfl
  room := rfl
  handles := rfl
  events _ := (List.drop_nil).symm

/-- The events kept for a job after a call. -/
theorem Stands.events_after {capacity : Int} {s : Session σ} (h : Stands receive capacity calls s)
    (x : Call) (job : String) :
    (s.after receive x).sink.events job = Sink.latest capacity.toNat (since job (calls ++ [x])) := by
  rw [since_concat]
  cases x with
  | emit jobId m =>
    show ((s.sink.buffers.put jobId _).get? job).getD [] = _
    rw [Table.get?_put, Call.told]
    by_cases hjob : jobId = job
    · subst hjob
      simp only [Call.clears, h.room, h.events, if_true, Option.getD_some,
        Bool.false_eq_true, if_false]
      exact latest_latest_concat _ _ m
    · simp only [Call.clears, hjob, if_false, Bool.false_eq_true, List.append_nil]
      exact h.events job
  | subscribe jobId callable =>
    simp only [Call.clears, Call.told, Bool.false_eq_true, if_false, List.append_nil]
    exact h.events job
  | unsubscribe n =>
    simp only [Call.clears, Call.told, Bool.false_eq_true, if_false, List.append_nil]
    rw [Session.after]
    split <;> exact h.events job
  | clear jobId =>
    show ((s.sink.buffers.erase jobId).get? job).getD [] = _
    rw [Table.get?_erase]
    by_cases hjob : jobId = job
    · simp [Call.clears, hjob, Sink.latest]
    · simp only [Call.clears, Call.told, hjob, decide_false, if_false, Bool.false_eq_true,
        List.append_nil]
      exact h.events job

/-- A call keeps the session in line with the calls. -/
theorem Stands.after {capacity : Int} {s : Session σ} (h : Stands receive capacity calls s)
    (x : Call) : Stands receive capacity (calls ++ [x]) (s.after receive x) where
  built := h.built.after x
  room := by rw [Session.capacity_after, h.room]
  handles := by
    rw [subscriptions_append, ← h.handles]
    cases x with
    | subscribe jobId callable => rfl
    | unsubscribe n =>
      rw [Session.after]
      split <;> exact (List.append_nil _).symm
    | _ => exact (List.append_nil _).symm
  events := h.events_after x

/-- **A session stands as its calls told it.** -/
theorem stands_reached (receive : ℕ → Message → Run σ Unit) (capacity : Int) (calls : List Call) :
    Stands receive capacity calls (reached receive capacity calls) := by
  induction calls using List.reverseRecOn with
  | nil => exact stands_start receive capacity
  | append_singleton calls x ih =>
    rw [reached_concat]
    exact ih.after x

end WebMigration.Progress
