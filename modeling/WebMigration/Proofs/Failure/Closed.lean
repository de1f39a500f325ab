import WebMigration.Proofs.Failure.Run
import Mathlib.Control.Lawful

/-!
# Closed kinds of computations

A kind of computations is closed when whatever is built out of computations of the kind is of the
kind again.  What a migration does is built out of what its collaborators do; so it is of every
closed kind that they are of.  Closed are the computations whose answer does not depend on the
state, those that change the state along a relation, those that leave a part of it alone, and those
that work on a part of it without looking at the rest.
-/

namespace WebMigration

namespace Run

/-- A property of computations with any kind of answer. -/
abbrev Kind (σ : Type) := (α : Type) → Run σ α → Prop

/-- A kind that every way of building computations keeps to. -/
structure Kind.Closed {σ : Type} (Q : Kind σ) : Prop where
  pure : ∀ {α : Type} (a : α), Q α (Pure.pure a)
  raise : ∀ {α : Type} (fault : Fault), Q α (raise fault)
  bind : ∀ {α β : Type} {r : Run σ α} {f : α → Run σ β}, Q α r → (∀ a, Q β (f a)) → Q β (r >>= f)
  attempt : ∀ {α : Type} {r : Run σ α}, Q α r → Q (Except Fault α) (attempt r)
  write : ∀ l, Q Unit (write l)

namespace Kind.Closed

variable {σ α β : Type} {Q : Kind σ} (hQ : Q.Closed)

include hQ

theorem map {r : Run σ α} (f : α → β) (h : Q α r) : Q β (f <$> r) := by
  rw [map_eq_pure_bind]
  exact hQ.bind h fun a => hQ.pure (f a)

theorem event (name : String) (data : List (String × Json)) : Q Unit (event name data) :=
  hQ.write _

theorem warning (name : String) (data : List (String × Json)) : Q Unit (warning name data) :=
  hQ.write _

theorem fail (cause : Failure) : Q α (fail cause) := hQ.raise (.failure cause)

theorem ofExcept (x : Except Fault α) : Q α (ofExcept x) := by
  cases x with
  | ok a => exact hQ.pure a
  | error fault => exact hQ.raise fault

theorem demand (missing : Fault) (x : Option α) : Q α (demand missing x) := by
  cases x with
  | some a => exact hQ.pure a
  | none => exact hQ.raise missing

end Kind.Closed

/-! ### Answers that do not depend on the state -/

section Steady

variable {σ α β : Type}

/-- From every state a computation answers the same. -/
def Answers (r : Run σ α) (x : Except Fault α) : Prop := ∀ s, ∃ s', r s = (x, s')

theorem Answers.bind_ok {r : Run σ α} {f : α → Run σ β} {a : α} {y : Except Fault β}
    (hr : Answers r (.ok a)) (hf : Answers (f a) y) : Answers (r >>= f) y := by
  intro s
  obtain ⟨t, ht⟩ := hr s
  rw [bind_of_ok ht]
  exact hf t

theorem Answers.bind_error {r : Run σ α} {f : α → Run σ β} {fault : Fault}
    (hr : Answers r (.error fault)) : Answers (r >>= f) (.error fault) := by
  intro s
  obtain ⟨t, ht⟩ := hr s
  exact ⟨t, bind_of_error ht⟩

theorem Answers.pure (a : α) : Answers (Pure.pure a : Run σ α) (.ok a) := fun s => ⟨s, rfl⟩

theorem Answers.attempt {r : Run σ α} {x : Except Fault α} (h : Answers r x) :
    Answers (attempt r) (.ok x) := by
  intro s
  obtain ⟨t, ht⟩ := h s
  exact ⟨t, by rw [attempt_eq, ht]⟩

theorem Answers.unique {r : Run σ α} {x y : Except Fault α} {s s' : Logged σ}
    (h : Answers r x) (hr : r s = (y, s')) : y = x := by
  obtain ⟨t, ht⟩ := h s
  exact (end_inj.1 (hr.symm.trans ht)).1

/-- A computation whose answer is the same from every state. -/
def Steady : Kind σ := fun _ r => ∃ x, Answers r x

theorem steady_closed : (Steady : Kind σ).Closed where
  pure a := ⟨_, .pure a⟩
  raise fault := ⟨.error fault, fun s => ⟨s, rfl⟩⟩
  bind := by
    rintro α β r f ⟨x, hx⟩ hf
    cases x with
    | ok a =>
      obtain ⟨y, hy⟩ := hf a
      exact ⟨y, hx.bind_ok hy⟩
    | error fault => exact ⟨_, hx.bind_error⟩
  attempt := by
    rintro α r ⟨x, hx⟩
    exact ⟨_, hx.attempt⟩
  write l := ⟨.ok (), fun s => ⟨_, rfl⟩⟩

end Steady

/-! ### Changes of the state -/

section Moves

variable {σ τ : Type}

/-- A computation that changes the state along a relation, whether it answers or fails. -/
def Moves (R : σ → σ → Prop) : Kind σ := fun _ r => ∀ s, R s.state (r s).2.state

theorem moves_closed {R : σ → σ → Prop} (hrefl : ∀ a, R a a)
    (htrans : ∀ a b c, R a b → R b c → R a c) : (Moves R).Closed where
  pure _ _ := hrefl _
  raise _ _ := hrefl _
  bind := by
    intro α β r f hr hf s
    have hfirst := hr s
    rcases h : r s with ⟨fault | a, t⟩ <;> rw [h] at hfirst
    · rw [bind_of_error h]
      exact hfirst
    · rw [bind_of_ok h]
      exact htrans _ _ _ hfirst (hf a t)
  attempt h s := h s
  write _ _ := hrefl _

theorem Moves.of_eq {R : σ → σ → Prop} {α : Type} {r : Run σ α} {s t : Logged σ}
    {x : Except Fault α} (h : Moves R α r) (hr : r s = (x, t)) : R s.state t.state := by
  have hmoved := h s
  rwa [hr] at hmoved

/-- A computation after which a part of the state is what it was. -/
def Keeps (part : σ → τ) : Kind σ := Moves fun s t => part t = part s

theorem Keeps.of_eq {part : σ → τ} {α : Type} {r : Run σ α} {s t : Logged σ} {x : Except Fault α}
    (h : Keeps part α r) (hr : r s = (x, t)) : part t.state = part s.state := Moves.of_eq h hr

theorem keeps_closed (part : σ → τ) : (Keeps part).Closed :=
  moves_closed (fun _ => rfl) fun _ _ _ h h' => h'.trans h

end Moves

/-! ### Work on a part of the state -/

section Alike

variable {σ τ α β : Type} {part : σ → τ}

/-- From states with the same part, two computations answer the same and leave the same part. -/
def Alike (part : σ → τ) (r r' : Run σ α) : Prop :=
  ∀ s s', part s.state = part s'.state →
    (r s).1 = (r' s').1 ∧ part (r s).2.state = part (r' s').2.state

theorem Alike.bind {r r' : Run σ α} {f f' : α → Run σ β} (hr : Alike part r r')
    (hf : ∀ a, Alike part (f a) (f' a)) : Alike part (r >>= f) (r' >>= f') := by
  intro s s' hpart
  obtain ⟨hanswer, hleft⟩ := hr s s' hpart
  rcases h : r s with ⟨x, t⟩
  rcases h' : r' s' with ⟨y, t'⟩
  rw [h, h'] at hanswer hleft
  obtain rfl : x = y := hanswer
  cases x with
  | error fault =>
    rw [bind_of_error h, bind_of_error h']
    exact ⟨rfl, hleft⟩
  | ok a =>
    rw [bind_of_ok h, bind_of_ok h']
    exact hf a t t' hleft

/-- What answers with nothing but the fact that it is done, and leaves the part alone, is alike. -/
theorem Alike.of_keeps {r r' : Run σ Unit} (htotal : Total r) (htotal' : Total r')
    (hr : Keeps part Unit r) (hr' : Keeps part Unit r') : Alike part r r' := by
  intro s s' hpart
  obtain ⟨⟨⟩, t, h⟩ := htotal s
  obtain ⟨⟨⟩, t', h'⟩ := htotal' s'
  refine ⟨?_, (hr s).trans (hpart.trans (hr' s').symm)⟩
  rw [h, h']

/-- A computation whose answer, and what it leaves of a part of the state, depend on that part. -/
def DependsOn (part : σ → τ) : Kind σ := fun _ r => Alike part r r

theorem dependsOn_closed (part : σ → τ) : (DependsOn part).Closed where
  pure _ _ _ hpart := ⟨rfl, hpart⟩
  raise _ _ _ hpart := ⟨rfl, hpart⟩
  bind hr hf := hr.bind hf
  attempt := by
    intro α r hr s s' hpart
    obtain ⟨hanswer, hleft⟩ := hr s s' hpart
    rw [attempt_eq, attempt_eq, hanswer]
    exact ⟨rfl, hleft⟩
  write _ _ _ hpart := ⟨rfl, hpart⟩

end Alike

end Run

end WebMigration
