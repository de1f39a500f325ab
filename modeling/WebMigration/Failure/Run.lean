import WebMigration.Failure.Event

/-!
# Computations that may fail

A computation works on a state, writes lines to a log, and answers with a value or a fault.  What it
did to the state and to the log before a fault stays done.
-/

namespace WebMigration

/-- The state of the collaborators and the log so far, latest line first. -/
structure Logged (σ : Type) where
  state : σ
  log : List LogLine

/-- A computation that may fail. -/
abbrev Run (σ : Type) := ExceptT Fault (StateM (Logged σ))

namespace Run

variable {σ α : Type}

/-- Fails. -/
def raise (fault : Fault) : Run σ α := throw fault

/-- Fails with a cause that the migration knows. -/
def fail (cause : Failure) : Run σ α := throw (.failure cause)

/-- Answers with the value or the fault of a computation and does not fail itself. -/
def attempt (r : Run σ α) : Run σ (Except Fault α) := fun s =>
  match r s with
  | (result, s') => (.ok result, s')

/-- Writes a line. -/
def write (l : LogLine) : Run σ Unit := fun s => (.ok (), { s with log := l :: s.log })

/-- Writes an event. -/
def event (name : String) (data : List (String × Json)) : Run σ Unit :=
  write (Event.line .info name data)

/-- Writes an event that deserves attention. -/
def warning (name : String) (data : List (String × Json)) : Run σ Unit :=
  write (Event.line .warning name data)

/-- Reads the state. -/
def state : Run σ σ := fun s => (.ok s.state, s)

/-- Changes the state. -/
def update (f : σ → σ) : Run σ Unit := fun s => (.ok (), { s with state := f s.state })

/-- A computation on the state alone. -/
def onState (f : σ → Except Fault α × σ) : Run σ α := fun s =>
  match f s.state with
  | (result, t) => (result, { s with state := t })

/-- Runs a computation on a part of the state. -/
def onPart {τ : Type} (part : τ → σ) (replace : τ → σ → τ) (r : Run σ α) : Run τ α := fun s =>
  match r ⟨part s.state, s.log⟩ with
  | (result, t) => (result, ⟨replace s.state t.state, t.log⟩)

/-- The value of a pure outcome. -/
def ofExcept (e : Except Fault α) : Run σ α :=
  match e with
  | .ok a => pure a
  | .error f => raise f

/-- An answer that must be there. -/
def demand (missing : Fault) : Option α → Run σ α
  | some a => pure a
  | none => raise missing

/-- The outcome, the lines written, in order, and the final state. -/
def start (r : Run σ α) (s : σ) : Except Fault α × List LogLine × σ :=
  match r ⟨s, []⟩ with
  | (result, after) => (result, after.log.reverse, after.state)

end Run

end WebMigration
