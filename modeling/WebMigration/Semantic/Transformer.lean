import WebMigration.Failure.Run
import WebMigration.Lane.Registry
import WebMigration.Semantic.Answer
import WebMigration.Semantic.Prompt
import WebMigration.Settings.Basic

/-!
# The semantic pass

Handing a file to a language model and reading its answer.  Whatever goes wrong with the call is a
failure of the service, which may be tried again.
-/

namespace WebMigration.Semantic

/-- A pass that finishes a file. -/
structure Transformer (σ : Type) where
  /-- Whether the pass can run at all. -/
  available : Bool
  /-- Asks whether the pass can run now. -/
  isReady : Run σ Bool := pure available
  /-- Finishes a file; there may be no result. -/
  transform : String → Specification → FileContext → Run σ (Option SemanticResult)

/-- A language model: the answer to an instruction, which may be missing. -/
abbrev LanguageModel (σ : Type) := String → Run σ (Option String)

variable {σ : Type}

/-- The instruction for a file with the knowledge of the lane. -/
def instruction (lanes : LaneRegistry) (code : String) (spec : Specification)
    (context : FileContext) : String :=
  match lanes.laneOf? spec with
  | some lane => lane.augment (prompt code spec context) spec
  | none => prompt code spec context

/-- Finishes a file by a model. -/
def askModel (lanes : LaneRegistry) (provider : String) (model : LanguageModel σ) (code : String)
    (spec : Specification) (context : FileContext) : Run σ SemanticResult := do
  match ← Run.attempt (model (instruction lanes code spec context)) with
  | .error fault =>
      Run.fail (.aiService ("LLM call failed: " ++ fault.message) provider true)
  | .ok answer => Run.ofExcept (SemanticResult.read (answer.getD ""))

/-- The pass by a model; without a model it is not available. -/
def Transformer.ofModel (lanes : LaneRegistry) (provider : String) (model : Option (LanguageModel σ)) :
    Transformer σ where
  available := model.isSome
  transform code spec context :=
    match model with
    | some m => do return some (← askModel lanes provider m code spec context)
    | none => Run.fail (.aiService "No LLM configured for the semantic pass" provider false)

/-- The services whose models can be used. -/
inductive Service
  | ollama | openAI
  deriving DecidableEq, Repr

def Service.name : Service → String
  | ollama => "Ollama"
  | openAI => "OpenAI"

/-- The service that settings choose, if the pass is wanted at all. -/
def chosenService (settings : SemanticSettings) : Except Fault (Option Service) :=
  if !settings.enabled then .ok none
  else
    let provider := Text.lower settings.provider
    if provider == "ollama" then .ok (some .ollama)
    else if provider == "openai" then .ok (some .openAI)
    else .error (.value ("Unsupported LLM provider: " ++ settings.provider))

end WebMigration.Semantic
