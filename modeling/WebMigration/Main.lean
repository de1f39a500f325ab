import WebMigration.Command.Run

/-!
# The program

The outer layer of the command.  What the command line names is read from the real disk, the command
runs on that, and the changes that it tries are made for real.  Where one of them fails, the command
runs again on a disk on which this change meets a mishap: up to there it does the same as before.
-/

namespace WebMigration.Program

open Command (Options Surroundings Session Ending)
open Disk (Address Location Change)

/-! ## The real disk -/

/-- The path of a location. -/
def pathOf (l : Location) : String := (Address.ofLocation l).text

/-- Enters what is really at a location.  The bytes of a file are read where they matter. -/
def bringIn (withBytes : Bool) (l : Location) (d : Disk) : IO Disk := do
  let path := (← IO.currentDir) / pathOf l
  if ← path.isDir then return d.enter l .directory
  else if ← path.pathExists then
    if withBytes then return d.enter l (.file (← IO.FS.readBinFile path).toList)
    else return d.enter l (.file [])
  else return d

/-- Enters everything below a location.  The files in directories that are never read stay empty. -/
partial def bringInTree (withBytes : Bool) (l : Location) (d : Disk) : IO Disk := do
  let d ← bringIn withBytes l d
  let path := (← IO.currentDir) / pathOf l
  if ← path.isDir then
    let mut d := d
    for entry in ← path.readDir do
      let name := entry.fileName
      d ← bringInTree (withBytes && !Command.skippedDirectories.contains name) (l ++ [name]) d
    return d
  else return d

/-- Enters what an address leads through, and everything below it if that is wanted. -/
def bringInAddress (withBytes below : Bool) (p : Address) (d : Disk) : IO Disk := do
  let mut d := d
  for n in List.range p.names.length do
    d ← bringIn false (Address.settled ⟨"", p.names.take n⟩).names d
  let l := p.settled.names
  if below then bringInTree withBytes l d else bringIn withBytes l d

/-- The part of the disk that matters to the options. -/
def diskFor (w : Surroundings) (o : Options) : IO Disk := do
  let address := Address.ofPath w.working
  let mut d : Disk := {}
  if let some path := o.output then d ← bringInAddress false true (address path) d
  if let some path := o.report then d ← bringInAddress false false (address path) d
  d ← bringInAddress true true (address o.source) d
  d ← bringInAddress true false (address o.spec) d
  if let some path := Command.configPath? w o then d ← bringInAddress true false (address path) d
  return d

/-- Makes a change for real, and answers whether that could be done. -/
def make (c : Change) : IO Bool := do
  try
    match c with
    | .write l bytes => IO.FS.writeBinFile (pathOf l) ⟨bytes.toArray⟩
    | .remove l => IO.FS.removeFile (pathOf l)
    | .makeDirectory l => IO.FS.createDir (pathOf l)
    return true
  catch _ => return false

/-- Makes changes until one fails, and answers with the number of those that could be made before it. -/
def makeAll : List Change → Nat → IO (Option Nat)
  | [], _ => return none
  | c :: rest, count => do if ← make c then makeAll rest (count + 1) else return some count

/-! ## Running -/

/-- What a run of the command comes to. -/
abbrev Outcome := Except Fault Ending × List LogLine × Session

/-- Runs the command on a disk and makes its changes for real, of which some are made already. -/
partial def settle (w : Surroundings) (words : List String) (d : Disk) : IO Outcome := do
  let outcome := (Command.run w words).start { disk := d }
  match ← makeAll (outcome.2.2.disk.tried.drop d.mishaps.length) 0 with
  | none => return outcome
  | some count =>
      settle w words { d with mishaps := d.mishaps ++ List.replicate count none ++ [some .refused] }

/-- The variables of the environment that the settings may be taken from. -/
def variableNames : List String :=
  ["STACKLOOM_CONFIG", "STACKLOOM_LOG_LEVEL", "STACKLOOM_BATCH_SIZE", "STACKLOOM_SEMANTIC_ENABLED",
    "STACKLOOM_LLM_PROVIDER", "STACKLOOM_LLM_MODEL", "OLLAMA_HOST", "OPENAI_API_KEY"]

/-- A name for a job that is given none. -/
def freshJobId : IO String := do
  let mut digits := ""
  for _ in List.range 12 do
    digits := digits.push (Nat.digitChar (← IO.rand 0 15))
  return digits

/-- What the program finds around it.  No model can be reached from here. -/
def surroundings : IO Surroundings := do
  let environment ← variableNames.filterMapM fun name => do
    return (← IO.getEnv name).map fun value => (name, value)
  return {
    working := Address.namesOf (← IO.currentDir).toString
    environment
    freshJobId := ← freshJobId
    time := (← IO.monoNanosNow) / 1000
    model := fun _ _ _ => Run.raise (.of .connection "Connection error.") }

/-- Shows how a run ended, and answers with the code of the end. -/
def showEnd (result : Except Fault Ending) : IO UInt32 := do
  match result with
  | .ok ending =>
      match ending with
      | .stopped .help => IO.println Command.usage
      | .stopped (.misuse text) => IO.eprintln (Command.usage ++ "\nstackloom: error: " ++ text)
      | .finished _ => pure ()
      return ending.code.toUInt32
  | .error fault =>
      IO.eprintln (fault.kind ++ ": " ++ fault.message)
      return 1

/-- Runs the program on the words of its command line. -/
def run (words : List String) : IO UInt32 := do
  let w ← surroundings
  let d ← match Options.read words with
    | .ok o => diskFor w o
    | .error _ => pure {}
  let (result, log, session) ← settle w words d
  for line in session.shown log do IO.println line.render
  showEnd result

end WebMigration.Program

/-- Migrates the directory that the command line names. -/
def main (words : List String) : IO UInt32 := WebMigration.Program.run words
