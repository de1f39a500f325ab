import WebMigration.Backup.Transaction
import WebMigration.Disk.Edit
import WebMigration.Semantic.Transformer
import WebMigration.Settings.Source

/-!
# Sessions

What a run of the command works on, a disk, a backup store and the lines told to the user, and what
it finds in its surroundings.
-/

namespace WebMigration.Command

open Disk (Address)

/-- What a run of the command works on. -/
structure Session where
  disk : Disk
  backups : Backup.Store := {}
  /-- The lines told to the user, in order. -/
  notes : List LogLine := []
  /-- The weight from which on lines are shown to the user. -/
  shownFrom : Nat := LogLevel.warning.weight
  /-- The new files that results have been written to, in order. -/
  written : List Address := []

/-- What a run finds in its surroundings. -/
structure Surroundings where
  /-- The directory in which the command runs. -/
  working : Disk.Location
  environment : Settings.Environment := []
  /-- The name of a job that is given none. -/
  freshJobId : String
  /-- The time in microseconds. -/
  time : Int := 0
  /-- The models that can be reached. -/
  model : Semantic.Service → SemanticSettings → Semantic.LanguageModel Session
  /-- What is made of texts that do not parse. -/
  [salvage : Module.Salvage]

/-- A part of a run of the command. -/
abbrev Action := Run Session

namespace Session

/-- Works on the disk. -/
def onDisk {α : Type} (r : Run Disk α) : Action α :=
  Run.onPart Session.disk (fun s disk => { s with disk }) r

/-- Works on the backup store. -/
def onBackups {α : Type} (r : Run Backup.Store α) : Action α :=
  Run.onPart Session.backups (fun s backups => { s with backups }) r

/-- Looks at the disk. -/
def disk? : Action Disk := return (← Run.state).disk

/-- Tells the user a line, which is logged among all others. -/
def tell (level : LogLevel) (text : String) : Action Unit := do
  Run.write ⟨level, text⟩
  Run.update fun s => { s with notes := s.notes ++ [⟨level, text⟩] }

/-- The logged lines that are shown to the user. -/
def shown (s : Session) (log : List LogLine) : List LogLine :=
  log.filter (s.shownFrom ≤ ·.level.weight)

end Session

end WebMigration.Command
