import WebMigration.Failure.Record
import WebMigration.Failure.Run
import WebMigration.Settings.Basic

/-!
# Recovering from failures

Where a failure happened and what trying to recover from it came to; and the pauses between the tries
of a step, which grow by a factor up to a limit.
-/

namespace WebMigration.Recovery

open Number (Binary64)

/-- Where a failure happened. -/
structure Context where
  operation : String
  jobId : Option String := none
  filePath : Option String := none
  metadata : List (String × Json) := []

/-- The context as logged. -/
def Context.toJson (c : Context) : Json :=
  .record [("operation", .string c.operation), ("job_id", .optional c.jobId),
    ("file_path", .optional c.filePath), ("metadata", .record c.metadata)]

/-- What trying to recover came to. -/
structure Outcome (α : Type) where
  success : Bool
  /-- The name of the strategy that decided. -/
  strategy : String
  attempts : Nat := 0
  data : Option α := none
  error : Option Fault := none
  /-- The names of the strategies that a combination ran. -/
  tried : List String := []

namespace Outcome

variable {α : Type}

def succeeded (strategy : String) (attempts : Nat) (data : Option α) : Outcome α :=
  { success := true, strategy, attempts, data }

def failed (strategy : String) (attempts : Nat) (error : Fault) : Outcome α :=
  { success := false, strategy, attempts, error := some error }

end Outcome

/-- How often a step is tried and how long the pauses are. -/
structure RetryPolicy where
  /-- The greatest number of tries in total. -/
  maxRetries : Nat := 3
  /-- The first pause in milliseconds. -/
  initialBackoff : Nat := 1000
  /-- The longest pause in milliseconds. -/
  maxBackoff : Nat := 30000
  multiplier : Binary64 := .ofNat 2
  /-- Whether the multiplier is given as a whole number. -/
  isWhole : Bool := true
  deriving DecidableEq, Repr

namespace RetryPolicy

/-- The policy with the fields of a record. -/
def ofJson (v : Json) : RetryPolicy :=
  { maxRetries := (v.integer "max_retries" 3).toNat
    initialBackoff := (v.integer "initial_backoff_ms" 1000).toNat
    maxBackoff := (v.integer "max_backoff_ms" 30000).toNat
    multiplier := if v.has "backoff_multiplier" then (v.child "backoff_multiplier").asNumber
      else .ofNat 2
    isWhole :=
      match v.child "backoff_multiplier" with
      | .float _ => false
      | _ => true }

/-- The policy of some settings. -/
def ofSettings (s : RecoverySettings) : RetryPolicy :=
  ⟨s.maxRetries, s.initialBackoff, s.maxBackoff, s.backoffMultiplier, false⟩

/-- A number of milliseconds in seconds. -/
def seconds (milliseconds : Nat) : Binary64 := .ofQuotient false milliseconds 1000

/-- Whether the first and the longest pause are numbers of seconds. -/
def isTimed (p : RetryPolicy) : Bool :=
  !(seconds p.initialBackoff).isInfinite && !(seconds p.maxBackoff).isInfinite

/-- The error of a pause with too many milliseconds for a number of seconds. -/
def untimed : Fault := .of .overflow "integer division result too large for a float"

/-- The pause after some steps of growth, in seconds. -/
def grown (p : RetryPolicy) (steps : Nat) : Binary64 :=
  (seconds p.initialBackoff).mul (p.multiplier.pow steps)

/-- The pause after some steps of growth, but never more than the longest. -/
def pause (p : RetryPolicy) (steps : Nat) : Binary64 :=
  if (p.grown steps).lt (seconds p.maxBackoff) then p.grown steps else seconds p.maxBackoff

/-- Whether the growth after some steps is too large for a number. -/
def outgrows (p : RetryPolicy) (steps : Nat) : Bool :=
  (p.multiplier.pow steps).isInfinite && (p.isWhole || !p.multiplier.isInfinite)

/-- The error of growth that is too large for a number. -/
def outgrown (p : RetryPolicy) : Fault :=
  .of .overflow
    (if p.isWhole then "int too large to convert to float" else "(34, 'Numerical result out of range')")

/-- The number of steps of growth at the next pause: pauses stop growing at the longest. -/
def nextStep (p : RetryPolicy) (steps : Nat) : Nat :=
  if (p.grown steps).lt (seconds p.maxBackoff) then steps + 1 else steps

end RetryPolicy

end WebMigration.Recovery
