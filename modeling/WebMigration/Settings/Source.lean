import WebMigration.Settings.Basic
import WebMigration.Yaml.Document

/-!
# Where settings come from

Settings are read from a configuration document; some environment variables count more than the
document.  A variable that is empty counts as one that is not set.
-/

namespace WebMigration.Settings

/-- The variables of the environment. -/
abbrev Environment := List (String × String)

/-- A variable that is set and not empty. -/
def given? (env : Environment) (name : String) : Option String :=
  ((env.find? (·.1 == name)).map (·.2)).filter (!·.isEmpty)

/-! ## Sections -/

/-- The error of an item of the wrong length in a list of pairs. -/
def wrongLength (position length : Nat) : Fault :=
  .value ("dictionary update sequence element #" ++ toString position ++ " has length " ++
    toString length ++ "; 2 is required")

/-- The parts of a value that can be a pair. -/
def parts? : Json → Option (List Json)
  | .list items => some items
  | .string s => some (s.toList.map fun c => .string (String.singleton c))
  | .record fields => some (fields.map fun f => .string f.1)
  | _ => none

/-- Pairs of a name and a value. -/
def pairs : Nat → List Json → Except Fault (List (String × Json))
  | _, [] => .ok []
  | i, item :: rest =>
      match parts? item with
      | some [name, v] => do return (name.display, v) :: (← pairs (i + 1) rest)
      | some other => .error (wrongLength i other.length)
      | none => .error (.of .type "")

/-- A section of a document, which has to be a table or a list of pairs; nothing is an empty one. -/
def sectionOf (v : Json) : Except Fault (List (String × Json)) :=
  if !v.isTruthy then .ok []
  else
    match v with
    | .record fields => .ok fields
    | .list items => (pairs 0 items).map Json.distinct
    | .string s => (pairs 0 (s.toList.map fun c => .string (String.singleton c))).map Json.distinct
    | _ => .error (.of .type "")

/-- The section with a value from a variable, if it is set. -/
def override (env : Environment) (variableName name : String) (read : String → Json)
    (fields : List (String × Json)) : List (String × Json) :=
  match given? env variableName with
  | some v => Json.put fields name (read v)
  | none => fields

/-- A whole number in a variable. -/
def wholeOf (text : String) : Except Fault Json :=
  match Decoder.wholeNumber? text with
  | some n => .ok (.int n)
  | none => .error (.value ("invalid literal for int() with base 10: " ++ Text.quoted text))

/-- Whether a variable switches something on. -/
def switchesOn (text : String) : Bool := ["1", "true", "yes"].contains (Text.lower text)

/-- The address of a host, of which only the name may be given. -/
def address (host : String) : String :=
  if Text.startsWith "http" host then host else "http://" ++ host ++ ":11434"

/-- Whether a field is missing or empty. -/
def isUnset (fields : List (String × Json)) (name : String) : Bool :=
  !((Json.lookup? fields name).getD .null).isTruthy

/-- The section of the semantic pass with the access to the provider that it names. -/
def withAccess (env : Environment) (fields : List (String × Json)) : List (String × Json) :=
  match (Json.lookup? fields "provider").getD (.string "ollama") with
  | .string "ollama" =>
      if isUnset fields "base_url" then
        override env "OLLAMA_HOST" "base_url" (fun host => .string (address host)) fields
      else fields
  | .string "openai" =>
      if isUnset fields "api_key" then override env "OPENAI_API_KEY" "api_key" .string fields
      else fields
  | _ => fields

/-- The section of the semantic pass. -/
def semanticSection (env : Environment) (fields : List (String × Json)) : List (String × Json) :=
  withAccess env
    (override env "STACKLOOM_LLM_MODEL" "model" .string
      (override env "STACKLOOM_LLM_PROVIDER" "provider" .string
        (override env "STACKLOOM_SEMANTIC_ENABLED" "enabled" (fun v => .bool (switchesOn v)) fields)))

/-- The section of the batch. -/
def batchSection (env : Environment) (fields : List (String × Json)) :
    Except Fault (List (String × Json)) :=
  match given? env "STACKLOOM_BATCH_SIZE" with
  | some size => (wholeOf size).map fun n => Json.put fields "size" n
  | none => .ok fields

/-- A document over which the environment has been laid. -/
def overlaid (env : Environment) (fields : List (String × Json)) :
    Except Fault (List (String × Json)) := do
  let value := fun (name : String) => (Json.lookup? fields name).getD .null
  let semantic ← sectionOf (value "semantic")
  let batch ← batchSection env (← sectionOf (value "batch"))
  let logged := override env "STACKLOOM_LOG_LEVEL" "log_level" .string fields
  return Json.put (Json.put logged "semantic" (.record (semanticSection env semantic))) "batch"
    (.record batch)

/-! ## Documents -/

/-- The fields of a configuration document; an empty document has none. -/
def fieldsOf (path : String) (document : Json) : Except Fault (List (String × Json)) :=
  if !document.isTruthy then .ok []
  else
    match document with
    | .record fields => .ok fields
    | _ => .error (.value (path ++ " must contain a mapping at the top level"))

/-- Reads settings from the text of a configuration file, if there is one, and the environment. -/
def load (path : String) (text : Option String) (env : Environment) : Except Fault Settings := do
  let fields ← match text with
    | some t => fieldsOf path (← Yaml.read t)
    | none => pure []
  ofDocument (.record (← overlaid env fields))

end WebMigration.Settings
