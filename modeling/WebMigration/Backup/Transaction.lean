import WebMigration.Backup.Store

/-!
# Backup transactions

A transaction ends once, with a commit that removes the snapshot of its job or with a rollback that
gives the original contents back.  A step that fails leaves the transaction as it was.
-/

namespace WebMigration.Backup

/-- How a transaction stands. -/
inductive TransactionState
  | active
  | committed
  /-- Rolled back, with the contents that were given back. -/
  | rolledBack (restored : Contents)
  deriving DecidableEq, Repr

/-- A transaction for a job. -/
structure Transaction where
  jobId : String
  state : TransactionState := .active
  deriving DecidableEq, Repr

namespace Transaction

/-- Whether the transaction has ended. -/
def isComplete (t : Transaction) : Bool := t.state != .active

/-- The contents that a rollback gave back. -/
def restored? (t : Transaction) : Option Contents :=
  match t.state with
  | .rolledBack contents => some contents
  | _ => none

/-- Takes the snapshot of the job. -/
def begin (t : Transaction) (time : Int) (files : Contents) (metadata : List (String × Json)) :
    Run Store Unit := do
  let _ ← create t.jobId time files metadata

/-- Ends the transaction for good. -/
def commit (t : Transaction) : Run Store Transaction := do
  match t.state with
  | .committed => Run.fail (.transaction "Transaction already committed")
  | .rolledBack _ => Run.fail (.transaction "Cannot commit after rollback")
  | .active =>
      cleanup t.jobId
      return { t with state := .committed }

/-- Ends the transaction by giving the original contents back. -/
def rollback (t : Transaction) : Run Store Transaction := do
  match t.state with
  | .committed => Run.fail (.transaction "Cannot rollback after commit")
  | .rolledBack _ => Run.fail (.transaction "Transaction already rolled back")
  | .active => return { t with state := .rolledBack (← restore t.jobId) }

/-- Ends a block of work on the transaction: a clean end commits, a failed one rolls back where there
is a snapshot. -/
def close (t : Transaction) (failed : Bool) : Run Store Transaction := do
  if t.isComplete then return t
  else if failed then
    if (← Run.state).has t.jobId then t.rollback else return t
  else t.commit

/-- Leaves a block of work that an error may have ended: the transaction is closed, and the answer says
whether the error is held back, which it never is. -/
def leave (t : Transaction) (exception : Option Fault) : Run Store (Transaction × Bool) := do
  return (← t.close exception.isSome, false)

end Transaction

end WebMigration.Backup
