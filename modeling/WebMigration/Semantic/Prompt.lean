import WebMigration.Module.Context
import WebMigration.Spec.Basic

/-!
# Instructions for the model

The text that asks a model to finish a file: its role, the file and its context, the rules and names
of the specification, and the form of the answer.
-/

namespace WebMigration.Semantic

/-- What the model is told to be. -/
def role : List String :=
  ["You are an expert code migration assistant. You transform source files",
   "between web application stacks while preserving business logic and component behavior.",
   "You never invent features and you never leave placeholders in the code you return."]

/-- The form in which the model has to answer. -/
def answerFormat : List String :=
  ["Respond in the following JSON format:",
   "\x7b",
   "  \"code\": \"COMPLETE transformed code - valid, runnable, with NO placeholders\",",
   "  \"confidence\": 0-100,",
   "  \"reasoning\": \"explanation of changes made\",",
   "  \"warnings\": [\"any warnings or concerns\"],",
   "  \"requiresReview\": true/false",
   "\x7d",
   "",
   "IMPORTANT:",
   "- Return ONLY valid JSON, no additional text",
   "- Every const/let/var MUST have an initializer",
   "- All imports must be complete",
   "- All functions must have complete bodies"]

/-- A list of texts, or a word for an empty list. -/
def listing (items : List String) : String :=
  if items.isEmpty then "(none)" else Text.join ", " items

/-- The entries of a table, or a word for an empty table. -/
def mappingLines (t : Table String) : List String :=
  if t.isEmpty then ["(none)"] else t.map fun e => e.1 ++ " -> " ++ e.2

/-- The conventions of the target. -/
def conventionLines (c : ComponentConventions) : List String :=
  ["- File Extension: " ++ c.fileExtension, "- Naming Convention: " ++ c.namingConvention,
    "- Export Style: " ++ c.exportStyle] ++
    (if c.serverComponents then ["- Use Server Components where possible"] else [])

/-- The instruction for one file. -/
def prompt (code : String) (spec : Specification) (context : FileContext) : String :=
  let source := spec.source
  let target := spec.target
  Text.join "\n" (role ++
    ["", "Transform the following " ++ source.framework ++ " file to " ++ target.framework ++ ".", "",
      "SOURCE FRAMEWORK: " ++ source.framework ++ " " ++ source.version,
      "TARGET FRAMEWORK: " ++ target.framework ++ " " ++ target.version, "",
      "FILE CONTEXT:", "- File Path: " ++ context.path, "- File Type: " ++ context.role,
      "- Dependencies: " ++ listing context.dependencies, "",
      "MIGRATION RULES:", "Must Preserve: " ++ listing spec.rules.mustPreserve,
      "Must Transform: " ++ listing spec.rules.mustTransform,
      "Must Remove: " ++ listing spec.rules.mustRemove, "",
      "IMPORT MAPPINGS:"] ++ mappingLines spec.mappings.imports ++
    ["", "LIFECYCLE MAPPINGS:"] ++ mappingLines target.lifecycleMappings ++
    ["", "COMPONENT CONVENTIONS:"] ++ conventionLines target.componentConventions ++
    ["", "SOURCE CODE:", "\x60\x60\x60" ++ source.language, code, "\x60\x60\x60", "",
      "INSTRUCTIONS:",
      "1. Transform the file to " ++ target.framework ++ " following the conventions above",
      "2. Apply all import mappings", "3. Transform lifecycle methods according to the mappings",
      "4. Preserve business logic and component behavior",
      "5. The \"code\" field MUST contain complete, syntactically valid code", ""] ++
    answerFormat ++ [""])

end WebMigration.Semantic
