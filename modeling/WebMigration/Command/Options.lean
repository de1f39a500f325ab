import WebMigration.Text.Basic

/-!
# The command line

What the words of a command line ask for.  Options may be shortened as long as they stay distinct, and
carry their value behind an equals sign or in the next word.  After two dashes every word is a value.
-/

namespace WebMigration.Command

/-- What a command line asks for. -/
structure Options where
  /-- The directory that is migrated. -/
  source : String
  /-- The file with the specification. -/
  spec : String
  /-- The directory that gets the migrated files. -/
  output : Option String := none
  inPlace : Bool := false
  jobId : Option String := none
  report : Option String := none
  config : Option String := none
  logLevel : Option String := none
  deriving DecidableEq, Repr

/-- Why a command line leads to no work. -/
inductive Stop
  /-- Help was asked for. -/
  | help
  /-- The command line cannot be understood. -/
  | misuse (text : String)
  deriving DecidableEq, Repr

/-- An option. -/
inductive Switch
  | help | spec | output | inPlace | jobId | report | config | logLevel
  deriving DecidableEq, Repr

namespace Switch

def all : List Switch := [help, spec, output, inPlace, jobId, report, config, logLevel]

def name : Switch → String
  | help => "--help"
  | spec => "--spec"
  | output => "--output"
  | inPlace => "--in-place"
  | jobId => "--job-id"
  | report => "--report"
  | config => "--config"
  | logLevel => "--log-level"

/-- The option with exactly this name. -/
def named? (text : String) : Option Switch :=
  if text == "-h" then some help else all.find? (·.name == text)

/-- The options whose names begin like this. -/
def beginning (text : String) : List Switch := all.filter fun s => Text.startsWith text s.name

/-- Whether the option needs a value. -/
def takesValue : Switch → Bool
  | help | inPlace => false
  | _ => true

end Switch

/-! ## Words -/

/-- A word of a command line. -/
inductive Word
  | value (text : String)
  | separator
  /-- An option, with the value that is attached to it. -/
  | option (name : Switch) (attached : Option String)
  /-- Something that looks like an option and is none. -/
  | unknown (text : String)
  /-- The beginning of several options. -/
  | ambiguous (text : String)
  deriving DecidableEq, Repr

namespace Word

/-- Whether a text is a negative number. -/
def isNegativeNumber (text : String) : Bool :=
  match text.toList with
  | '-' :: rest =>
      let whole := rest.takeWhile (·.isDigit)
      match rest.dropWhile (·.isDigit) with
      | [] => !whole.isEmpty
      | '.' :: digits => !digits.isEmpty && digits.all (·.isDigit)
      | _ => false
  | _ => false

/-- What stands before and after the first equals sign, if there is one. -/
def attached (text : String) : String × Option String :=
  let (before, after) := Text.partitionOn "=" text
  (before, if text.toList.contains '=' then some after else none)

/-- A text that begins with a dash and is no option. -/
def other (text : String) : Word :=
  if isNegativeNumber text || text.toList.contains ' ' then value text else unknown text

/-- A text with a dash in front that is not the exact name of an option. -/
def shortened (text : String) : Word :=
  if Text.startsWith "--" text then
    let (name, given) := attached text
    match Switch.beginning name with
    | [s] => option s given
    | [] => other text
    | _ => ambiguous text
  else if Text.startsWith "-h-" text then option .help (some (Text.drop 2 text))
  else if Text.startsWith "-h" text then option .help none
  else other text

/-- The word that a text is before any two dashes. -/
def ofText (text : String) : Word :=
  if text == "--" then separator
  else if !Text.startsWith "-" text || text == "-" then value text
  else
    match Switch.named? text with
    | some s => option s none
    | none =>
        let (name, given) := attached text
        match Switch.named? name, given with
        | some s, some v => option s (some v)
        | _, _ => shortened text

/-- The words of a command line. -/
def ofTexts : List String → List Word
  | [] => []
  | text :: rest =>
      match ofText text with
      | separator => separator :: rest.map value
      | word => word :: ofTexts rest

end Word

/-! ## Reading -/

/-- What has been read of a command line. -/
structure Draft where
  source : Option String := none
  spec : Option String := none
  output : Option String := none
  inPlace : Bool := false
  jobId : Option String := none
  report : Option String := none
  config : Option String := none
  logLevel : Option String := none
  /-- Words that mean nothing. -/
  surplus : List String := []
  deriving DecidableEq, Repr

namespace Draft

/-- The levels that a log can be given. -/
def levels : List String := ["DEBUG", "INFO", "WARNING", "ERROR"]

/-- Takes an option with its value. -/
def take (d : Draft) (s : Switch) (v : String) : Except Stop Draft :=
  match s with
  | .help => .error .help
  | .spec => .ok { d with spec := some v }
  | .output =>
      if d.inPlace then .error (.misuse "argument --output: not allowed with argument --in-place")
      else .ok { d with output := some v }
  | .inPlace =>
      if d.output.isSome then
        .error (.misuse "argument --in-place: not allowed with argument --output")
      else .ok { d with inPlace := true }
  | .jobId => .ok { d with jobId := some v }
  | .report => .ok { d with report := some v }
  | .config => .ok { d with config := some v }
  | .logLevel =>
      if levels.contains v then .ok { d with logLevel := some v }
      else .error (.misuse ("argument --log-level: invalid choice: " ++ Text.quoted v))

/-- Takes a word that means nothing. -/
def setAside (d : Draft) (text : String) : Draft := { d with surplus := d.surplus ++ [text] }

/-- Reads words.  The first value is the source, and two dashes beside it mean nothing. -/
def read (d : Draft) : List Word → Except Stop Draft
  | [] => .ok d
  | .option s none :: .value v :: rest =>
      if s.takesValue then do read (← d.take s v) rest
      else do read (← d.take s "") (.value v :: rest)
  | .option s given :: rest =>
      match s.takesValue, given with
      | true, some v => do read (← d.take s v) rest
      | false, none => do read (← d.take s "") rest
      | true, none => .error (.misuse ("argument " ++ s.name ++ ": expected one argument"))
      | false, some v =>
          .error (.misuse ("argument " ++ s.name ++ ": ignored explicit argument " ++ Text.quoted v))
  | .separator :: .value v :: rest =>
      if d.source.isNone then read { d with source := some v } rest
      else read (d.setAside "--") (.value v :: rest)
  | .separator :: rest => read (d.setAside "--") rest
  | .value v :: .separator :: rest =>
      if d.source.isNone then read { d with source := some v } rest
      else read (d.setAside v) (.separator :: rest)
  | .value v :: rest =>
      if d.source.isNone then read { d with source := some v } rest else read (d.setAside v) rest
  | .unknown text :: rest => read (d.setAside text) rest
  | .ambiguous text :: _ => .error (.misuse ("ambiguous option: " ++ text))
  termination_by words => words.length

/-- The options of a draft, if nothing is missing and nothing is left over. -/
def options (d : Draft) : Except Stop Options :=
  match d.source, d.spec, d.surplus with
  | some source, some spec, [] =>
      .ok { source, spec, output := d.output, inPlace := d.inPlace, jobId := d.jobId,
            report := d.report, config := d.config, logLevel := d.logLevel }
  | some _, some _, surplus =>
      .error (.misuse ("unrecognized arguments: " ++ Text.join " " surplus))
  | source, spec, _ =>
      .error (.misuse ("the following arguments are required: " ++ Text.join ", "
        ((if source.isNone then ["source"] else []) ++ (if spec.isNone then ["--spec"] else []))))

end Draft

/-- What a command line asks for. -/
def Options.read (words : List String) : Except Stop Options := do
  (← Draft.read {} (Word.ofTexts words)).options

/-- How the command is used. -/
def usage : String :=
  Text.join "\n"
    ["usage: stackloom [-h] --spec SPEC [--output OUTPUT | --in-place] [--job-id JOB_ID]",
     "                 [--report REPORT] [--config CONFIG]",
     "                 [--log-level \x7bDEBUG,INFO,WARNING,ERROR\x7d]",
     "                 source"]

end WebMigration.Command
