import WebMigration.Engine.Basic

/-!
# Successful runs

When a computation answers with a value: one equivalence for each way of building computations.  A
run of a longer computation is taken apart by them into the runs of its steps.
-/

namespace WebMigration

namespace Run

variable {σ α β : Type}

/-- Two ends of a computation are the same when outcome and state are. -/
@[simp] theorem end_inj {x y : Except Fault α} {s t : Logged σ} :
    @Eq (Id (Except Fault α × Logged σ)) (x, s) (y, t) ↔ x = y ∧ s = t := by
  rw [← Prod.mk.injEq]

/-- A sequence answers exactly when its first step answers and the rest answers after it. -/
theorem bind_ok {r : Run σ α} {f : α → Run σ β} {s s' : Logged σ} {b : β} :
    (r >>= f) s = (.ok b, s') ↔ ∃ a t, r s = (.ok a, t) ∧ f a t = (.ok b, s') := by
  show (ExceptT.bind r f) s = _ ↔ _
  simp only [ExceptT.bind, ExceptT.mk, bind, StateT.bind]
  rcases h : r s with ⟨a | a, t⟩
  · show @Eq (Id (Except Fault β × Logged σ)) (.error a, t) (.ok b, s') ↔ _
    simp
  · simp only [ExceptT.bindCont, end_inj, Except.ok.injEq]
    constructor
    · exact fun hf => ⟨a, t, ⟨rfl, rfl⟩, hf⟩
    · rintro ⟨a, t, ⟨rfl, rfl⟩, hf⟩
      exact hf

/-- A sequence goes on with the answer of its first step. -/
theorem bind_of_ok {r : Run σ α} {f : α → Run σ β} {s t : Logged σ} {a : α}
    (h : r s = (.ok a, t)) : (r >>= f) s = f a t := by
  show (ExceptT.bind r f) s = _
  simp only [ExceptT.bind, ExceptT.mk, bind, StateT.bind, h]
  rfl

/-- A sequence ends with its first step when that fails. -/
theorem bind_of_error {r : Run σ α} {f : α → Run σ β} {s t : Logged σ} {fault : Fault}
    (h : r s = (.error fault, t)) : (r >>= f) s = (.error fault, t) := by
  show (ExceptT.bind r f) s = _
  simp only [ExceptT.bind, ExceptT.mk, bind, StateT.bind, h]
  rfl

@[simp] theorem pure_eq {a : α} {s : Logged σ} : (pure a : Run σ α) s = (.ok a, s) := rfl

theorem pure_ok {a b : α} {s s' : Logged σ} :
    (pure a : Run σ α) s = (.ok b, s') ↔ a = b ∧ s = s' := by
  rw [pure_eq, end_inj, Except.ok.injEq]

/-- A run has one answer. -/
theorem answer_unique {r : Run σ α} {s t u : Logged σ} {a b : α} (ha : r s = (.ok a, t))
    (hb : r s = (.ok b, u)) : a = b ∧ t = u := by
  rw [ha, end_inj, Except.ok.injEq] at hb
  exact hb

/-- A run that fails does not answer. -/
theorem error_ne_ok {r : Run σ α} {s t u : Logged σ} {fault : Fault} {a : α}
    (he : r s = (.error fault, t)) : r s ≠ (.ok a, u) := by
  rw [he, Ne, end_inj]
  rintro ⟨⟨⟩, -⟩

theorem map_eq (f : α → β) (r : Run σ α) (s : Logged σ) :
    (f <$> r) s = ((r s).1.map f, (r s).2) := by
  show (ExceptT.map f r) s = _
  simp only [ExceptT.map, ExceptT.mk, bind, StateT.bind]
  rcases r s with ⟨fault | a, t⟩ <;> rfl

@[simp] theorem map_ok {r : Run σ α} {f : α → β} {s s' : Logged σ} {b : β} :
    (f <$> r) s = (.ok b, s') ↔ ∃ a, r s = (.ok a, s') ∧ f a = b := by
  rw [map_eq]
  rcases h : r s with ⟨a | a, t⟩
  · simp [Except.map]
  · simp only [Except.map, end_inj, Except.ok.injEq]
    constructor
    · rintro ⟨hf, rfl⟩
      exact ⟨a, ⟨rfl, rfl⟩, hf⟩
    · rintro ⟨a, ⟨rfl, rfl⟩, hf⟩
      exact ⟨hf, rfl⟩

@[simp] theorem raise_eq {fault : Fault} {s : Logged σ} :
    (raise fault : Run σ α) s = (.error fault, s) := rfl

/-- An attempt never fails. -/
@[simp] theorem attempt_eq {r : Run σ α} {s : Logged σ} :
    attempt r s = (.ok (r s).1, (r s).2) := rfl

@[simp] theorem event_eq {name : String} {data : List (String × Json)} {s : Logged σ} :
    (event name data : Run σ Unit) s =
      (.ok (), { s with log := Event.line .info name data :: s.log }) := rfl

@[simp] theorem state_eq {s : Logged σ} : (state : Run σ σ) s = (.ok s.state, s) := rfl

@[simp] theorem ofExcept_ok {x : Except Fault α} {s s' : Logged σ} {a : α} :
    ofExcept x s = (.ok a, s') ↔ x = .ok a ∧ s = s' := by
  cases x <;> simp [ofExcept]

@[simp] theorem demand_ok {missing : Fault} {x : Option α} {s s' : Logged σ} {a : α} :
    demand missing x s = (.ok a, s') ↔ x = some a ∧ s = s' := by
  cases x <;> simp [demand]

/-- Working on a part of the state ends as the work on the part does. -/
theorem onPart_eq {τ : Type} {part : τ → σ} {replace : τ → σ → τ} {r : Run σ α} {s : Logged τ}
    {x : Except Fault α} {t : Logged σ} (h : r ⟨part s.state, s.log⟩ = (x, t)) :
    onPart part replace r s = (x, ⟨replace s.state t.state, t.log⟩) := by
  unfold onPart
  rw [h]

theorem exists_of_onPart {τ : Type} {part : τ → σ} {replace : τ → σ → τ} {r : Run σ α}
    {s s' : Logged τ} {x : Except Fault α} (h : onPart part replace r s = (x, s')) :
    ∃ t, r ⟨part s.state, s.log⟩ = (x, t) ∧ s'.state = replace s.state t.state := by
  rcases hr : r ⟨part s.state, s.log⟩ with ⟨y, t⟩
  rw [onPart_eq hr] at h
  obtain ⟨rfl, rfl⟩ := end_inj.1 h
  exact ⟨t, rfl, rfl⟩

/-- A computation whose answer passes a test has an answer. -/
theorem ok_of_any {r : Run σ α} {s : Logged σ} {p : α → Bool}
    (h : (r s).1.toOption.any p = true) : ∃ a s', r s = (.ok a, s') ∧ p a = true := by
  rcases hr : r s with ⟨fault | a, s'⟩ <;> rw [hr] at h
  · cases h
  · exact ⟨a, s', rfl, h⟩

/-! ### Computations that do not fail -/

/-- A computation answers from every state. -/
def Total (r : Run σ α) : Prop := ∀ s, ∃ a t, r s = (.ok a, t)

namespace Total

theorem pure (a : α) : Total (Pure.pure a : Run σ α) := fun s => ⟨a, s, rfl⟩

theorem bind {r : Run σ α} {f : α → Run σ β} (hr : Total r) (hf : ∀ a, Total (f a)) :
    Total (r >>= f) := by
  intro s
  obtain ⟨a, t, ha⟩ := hr s
  obtain ⟨b, u, hb⟩ := hf a t
  exact ⟨b, u, (bind_of_ok ha).trans hb⟩

theorem attempt (r : Run σ α) : Total (attempt r) := fun _ => ⟨_, _, attempt_eq⟩

end Total

/-! ### How a computation ends -/

/-- From a state a computation ends with an outcome and in a state, whatever it writes to the log. -/
def Ends (r : Run σ α) (s : Logged σ) (x : Except Fault α) (t : σ) : Prop :=
  (r s).1 = x ∧ (r s).2.state = t

namespace Ends

variable {r : Run σ α} {f : α → Run σ β} {s : Logged σ} {x : Except Fault α} {t : σ}

theorem of_eq {s' : Logged σ} (h : r s = (x, s')) : Ends r s x s'.state := by
  unfold Ends
  rw [h]
  exact ⟨rfl, rfl⟩

/-- A computation ends in one way. -/
theorem eq (h : Ends r s x t) {y : Except Fault α} {s' : Logged σ} (hr : r s = (y, s')) :
    y = x ∧ s'.state = t := by
  unfold Ends at h
  rwa [hr] at h

theorem bind {a : α} {y : Except Fault β} {u : σ} (hr : Ends r s (.ok a) t)
    (hf : ∀ log, Ends (f a) ⟨t, log⟩ y u) : Ends (r >>= f) s y u := by
  rcases h : r s with ⟨z, t', log⟩
  obtain ⟨rfl, rfl⟩ := hr.eq h
  unfold Ends
  rw [bind_of_ok h]
  exact hf log

theorem bind_error {fault : Fault} (hr : Ends r s (.error fault) t) :
    Ends (r >>= f) s (.error fault) t := by
  rcases h : r s with ⟨z, t', log⟩
  obtain ⟨rfl, rfl⟩ := hr.eq h
  unfold Ends
  rw [bind_of_error h]
  exact ⟨rfl, rfl⟩

theorem map {g : α → β} (hr : Ends r s x t) : Ends (g <$> r) s (x.map g) t := by
  unfold Ends
  rw [map_eq]
  exact ⟨congrArg (Except.map g) hr.1, hr.2⟩

theorem pure (a : α) : Ends (Pure.pure a) s (.ok a) s.state := ⟨rfl, rfl⟩

theorem fail (cause : Failure) : Ends (fail cause : Run σ α) s (.error (.failure cause)) s.state :=
  ⟨rfl, rfl⟩

theorem raise (fault : Fault) : Ends (raise fault : Run σ α) s (.error fault) s.state := ⟨rfl, rfl⟩

theorem ofExcept (x : Except Fault α) : Ends (ofExcept x) s x s.state := by
  cases x <;> exact ⟨rfl, rfl⟩

theorem event (name : String) (data : List (String × Json)) :
    Ends (event name data) s (.ok ()) s.state := ⟨rfl, rfl⟩

theorem warning (name : String) (data : List (String × Json)) :
    Ends (warning name data) s (.ok ()) s.state := ⟨rfl, rfl⟩

theorem state : Ends state s (.ok s.state) s.state := ⟨rfl, rfl⟩

theorem update (f : σ → σ) : Ends (update f) s (.ok ()) (f s.state) := ⟨rfl, rfl⟩

/-- Steps that end well and leave the state alone do so one after the other. -/
theorem forM {ι : Type} {f : ι → Run σ Unit} (h : ∀ i s, Ends (f i) s (.ok ()) s.state)
    (items : List ι) : Ends (items.forM f) s (.ok ()) s.state := by
  induction items generalizing s with
  | nil => exact .pure ()
  | cons i rest ih => exact (h i s).bind fun log => ih

/-- Work on a part of the state ends as the work on the part does. -/
theorem onPart {τ : Type} {part : τ → σ} {replace : τ → σ → τ} {s : Logged τ}
    (h : Ends r ⟨part s.state, s.log⟩ x t) :
    Ends (Run.onPart part replace r) s x (replace s.state t) := by
  rcases hr : r ⟨part s.state, s.log⟩ with ⟨y, u⟩
  obtain ⟨rfl, rfl⟩ := h.eq hr
  unfold Ends
  rw [onPart_eq hr]
  exact ⟨rfl, rfl⟩

end Ends

end Run

namespace Work

variable {σ α : Type}

/-- Work on a file answers exactly when it does from the context on. -/
theorem begin_ok {context after : FileContext} {r : Run (Work σ) α} {s s' : Logged σ} {a : α} :
    Work.begin context r s = (.ok (a, after), s') ↔
      r ⟨⟨context, s.state⟩, s.log⟩ = (.ok a, ⟨⟨after, s'.state⟩, s'.log⟩) := by
  unfold Work.begin
  rcases h : r ⟨⟨context, s.state⟩, s.log⟩ with ⟨x | x, ⟨⟨c, o⟩, l⟩⟩
  · simp
  · obtain ⟨o', l'⟩ := s'
    simp only [Run.end_inj, Except.ok.injEq, Prod.mk.injEq, Logged.mk.injEq, Work.mk.injEq,
      and_assoc]

theorem elsewhere_pure (a : α) : Work.elsewhere (pure a : Run σ α) = pure a := rfl

/-- What is answered elsewhere may be changed there or here. -/
theorem elsewhere_map {β : Type} (f : α → β) (r : Run σ α) :
    Work.elsewhere (f <$> r) = f <$> Work.elsewhere r := by
  funext s
  rw [Run.map_eq]
  unfold Work.elsewhere Run.onPart
  rw [Run.map_eq]
  rfl

end Work

end WebMigration
