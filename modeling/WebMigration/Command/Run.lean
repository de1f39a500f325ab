import WebMigration.Command.Options
import WebMigration.Command.Tree
import WebMigration.Engine.Batch
import WebMigration.Spec.Document

/-!
# The command

Migrates the directory that a command line names: settings and specification are read, the files are
transformed, and the results are written elsewhere or in place.  Writing in place is undone when it
fails.
-/

namespace WebMigration.Command

open Disk (Address)

/-- How a run of the command ends. -/
inductive Ending
  /-- The work ended with a code; zero is success. -/
  | finished (code : Nat)
  /-- There was no work to do. -/
  | stopped (reason : Stop)
  deriving DecidableEq, Repr

/-- The code that the command hands back. -/
def Ending.code : Ending → Nat
  | finished code => code
  | stopped .help => 0
  | stopped (.misuse _) => 2

/-! ## Reading -/

/-- The path of the configuration, if there is one. -/
def configPath? (w : Surroundings) (o : Options) : Option String :=
  o.config <|> Settings.given? w.environment "STACKLOOM_CONFIG"

/-- Reads the settings; a configuration that is missing is an empty one. -/
def loadSettings (w : Surroundings) (o : Options) : Action Settings := do
  match configPath? w o with
  | none => Run.ofExcept (Settings.load "" none w.environment)
  | some path =>
      let address := Address.ofPath w.working path
      let d ← Session.disk?
      if d.has address then
        let text ← Run.ofExcept (d.readText address)
        Run.ofExcept (Settings.load address.text (some text) w.environment)
      else Run.ofExcept (Settings.load address.text none w.environment)

/-- The names of the levels from which on a log may be shown, with their weights. -/
def levelWeights : Table Nat :=
  [("CRITICAL", LogLevel.critical.weight), ("FATAL", LogLevel.critical.weight),
    ("ERROR", LogLevel.error.weight), ("WARN", LogLevel.warning.weight),
    ("WARNING", LogLevel.warning.weight), ("INFO", LogLevel.info.weight),
    ("DEBUG", LogLevel.debug.weight), ("NOTSET", 0)]

/-- Shows the log from a level on, which must exist. -/
def showFrom (level : String) : Action Unit :=
  match levelWeights.get? (Text.upper level) with
  | some weight => Run.update fun s => { s with shownFrom := weight }
  | none => Run.raise (.of .missingMember "")

/-- Reads the specification. -/
def loadSpec (address : Address) : Action Specification := do
  let text ← Run.ofExcept ((← Session.disk?).readText address)
  Run.ofExcept (Specification.ofText text)

/-- Whether an error tells that a specification cannot be used. -/
def isRefusal : Fault → Bool
  | .failure _ => true
  | fault => fault.isSystem

/-! ## Working -/

/-- The semantic pass that the settings ask for. -/
def transformerOf (w : Surroundings) (settings : Settings) :
    Except Fault (Option (Semantic.Transformer Session)) := do
  match ← Semantic.chosenService settings.semantic with
  | none => return none
  | some service =>
      return some (.ofModel .builtIn settings.semantic.provider
        (some (w.model service settings.semantic)))

/-- Tells the user how far a batch has come. -/
def tellProgress (r : Progress.Report) : Action Unit :=
  Session.tell .debug ("[" ++ r.stage.name ++ "] " ++ toString r.current ++ "/" ++
    toString r.total ++ " " ++ r.text)

/-- The engine of the command. -/
def engineOf (w : Surroundings) (settings : Settings)
    (semantic : Option (Semantic.Transformer Session)) : Engine Session :=
  { @Engine.standard _ w.salvage settings .builtIn with
    semantic
    observer := some tellProgress
    sink := some fun jobId m => Run.write (m.line jobId)
    clock := pure w.time }

/-! ## Writing -/

/-- The contents of files that are restored when writing fails. -/
def contentsOf (files : List FileRecord) : Table String :=
  files.map fun f => (f.path, f.content.getD "")

/-- The contents that are given back: those of a snapshot, or the originals if it holds none. -/
def contentsToRestore (t : Backup.Transaction) (originals : Table String) : Table String :=
  match t.restored? with
  | some (e :: es) => (e :: es).map fun e => (e.1, e.2.getD "")
  | _ => originals

/-- Writes results in place of their originals, and answers whether it could be done; if not, the
originals are there again. -/
def writeInPlace (w : Surroundings) (root : Address) (jobId : String) (spec : Specification)
    (files : List FileRecord) (batch : BatchResult) : Action Bool := do
  let originals := contentsOf files
  let t : Backup.Transaction := { jobId }
  Session.onBackups (t.begin w.time (files.map fun f => (f.path, some (f.content.getD "")))
    [("source_framework", .string spec.source.framework),
      ("target_framework", .string spec.target.framework)])
  let outcome ← Run.attempt do
    writeResults root batch.results
    removeRelocated root batch.results originals
  let t ← Session.onBackups (t.close (!outcome.isOk))
  match outcome with
  | .ok _ => return true
  | .error fault =>
      if fault.isSystem then
        Session.tell .error ("Writing results failed, restoring " ++
          Engine.fileCount originals.length ++ ": " ++ fault.message)
        restore root (contentsToRestore t originals)
        return false
      else Run.raise fault

/-- Writes results into a directory, which is made if it is missing. -/
def writeElsewhere (output : Address) (batch : BatchResult) : Action Unit := do
  Session.onDisk (Disk.makeDirectories output)
  writeResults output.settled batch.results

/-- Writes results where the options want them, and answers whether that could be done. -/
def deliver (w : Surroundings) (o : Options) (root : Address) (jobId : String)
    (spec : Specification) (files : List FileRecord) (batch : BatchResult) : Action Bool := do
  if o.inPlace then writeInPlace w root jobId spec files batch
  else
    if let some output := o.output then writeElsewhere (Address.ofPath w.working output) batch
    return true

/-- Writes the report and tells the totals. -/
def conclude (w : Surroundings) (o : Options) (jobId : String) (batch : BatchResult) :
    Action Unit := do
  if let some path := o.report then
    Session.onDisk
      (Disk.writeText (Address.ofPath w.working path) (batch.toJson.indented 2 0))
  let s := batch.statistics
  Session.tell .info ("Job " ++ jobId ++ ": " ++ toString s.total ++ " result(s), " ++
    toString s.successful ++ " confident, " ++ toString s.review ++
    " need review, average confidence " ++ toString s.averageConfidence)

/-! ## The whole -/

/-- Transforms the files of a directory; a failure of the migration ends the work. -/
def transformFiles (e : Engine Session) (files : List FileRecord) (spec : Specification)
    (jobId : String) : Action (Option BatchResult) := do
  Session.tell .info ("Job " ++ jobId ++ ": migrating " ++ Engine.fileCount files.length ++
    " from " ++ spec.source.framework ++ " to " ++ spec.target.framework)
  match ← Run.attempt (e.transformBatch files spec (some jobId)) with
  | .ok batch => return some batch
  | .error (.failure f) =>
      Session.tell .error ("Migration aborted: " ++ f.message)
      return none
  | .error fault => Run.raise fault

/-- Migrates a directory. -/
def migrate (w : Surroundings) (o : Options) (settings : Settings) (spec : Specification)
    (root : Address) : Action Nat := do
  let jobId := (o.jobId.filter (!·.isEmpty)).getD w.freshJobId
  let e := engineOf w settings (← Run.ofExcept (transformerOf w settings))
  Run.update fun s => { s with backups := { capacity := settings.backup.maxBackups } }
  let files ← collectFiles root
  match ← transformFiles e files spec jobId with
  | none => return 1
  | some batch =>
      if ← deliver w o root jobId spec files batch then
        conclude w o jobId batch
        return 0
      else return 1

/-- Does what the options ask for, and answers with the code of the end. -/
def perform (w : Surroundings) (o : Options) : Action Nat := do
  let settings ← loadSettings w o
  showFrom ((o.logLevel.filter (!·.isEmpty)).getD settings.logLevel)
  match ← Run.attempt (loadSpec (Address.ofPath w.working o.spec)) with
  | .error fault =>
      if isRefusal fault then
        Session.tell .error ("Cannot load migration specification: " ++ fault.messageOrKind)
        return 2
      else Run.raise fault
  | .ok spec =>
      let root := (Address.ofPath w.working o.source).settled
      if (← Session.disk?).hasDirectory root then migrate w o settings spec root
      else
        Session.tell .error ("Source directory not found: " ++ root.text)
        return 2

/-- Runs the command on the words of a command line. -/
def run (w : Surroundings) (words : List String) : Action Ending := do
  match Options.read words with
  | .error reason => return .stopped reason
  | .ok o => return .finished (← perform w o)

/-! ## The parser -/

-- The program itself reads a text no further than to its first syntax error.
attribute [instance] Module.Salvage.stopping

end WebMigration.Command
