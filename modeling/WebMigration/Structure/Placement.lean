import WebMigration.Spec.Basic
import WebMigration.Text.Path

/-!
# Placing files by rule

Where a script file goes when no plan says so: into the directory for its role, under a name that
follows the convention of the target.  Other files keep their paths.
-/

namespace WebMigration.Structure

open Text

/-- Whether a file is a script that can be rewritten. -/
def isScript (path : String) : Bool :=
  [".js", ".jsx", ".ts", ".tsx", ".mjs", ".cjs"].any fun e => endsWith e (lower path)

/-- Whether a file is a style sheet. -/
def isStyleSheet (path : String) : Bool :=
  [".css", ".scss", ".sass"].any fun e => endsWith e (lower path)

/-! ## Names -/

/-- Whether a character parts words. -/
def partsWords (c : Char) : Bool := c == '-' || c == '_' || isSpace c

/-- The words of a name, the current one in reverse. -/
def wordsFrom (word : List Char) : List Char → List (List Char)
  | [] => [word.reverse]
  | c :: cs =>
      if partsWords c then word.reverse :: wordsFrom [] cs else wordsFrom (c :: word) cs

/-- The words of a name. -/
def words (name : String) : List (List Char) := (wordsFrom [] name.toList).filter (!·.isEmpty)

/-- A word with its first letter in upper case. -/
def capitalized : List Char → List Char
  | [] => []
  | c :: cs => upperChar c ++ cs

/-- The words of a name in one, each with a capital. -/
def pascalCase (name : String) : String := String.ofList ((words name).flatMap capitalized)

/-- Like `pascalCase`, but with a small first letter. -/
def camelCase (name : String) : String :=
  let pascal := pascalCase name
  lower (String.ofList (pascal.toList.take 1)) ++ drop 1 pascal

/-- A hyphen between each small letter or digit and a capital after it. -/
def withCaseEdges : List Char → List Char
  | a :: b :: cs =>
      if (a.isLower || a.isDigit) && b.isUpper then a :: '-' :: withCaseEdges (b :: cs)
      else a :: withCaseEdges (b :: cs)
  | cs => cs

/-- Every run of characters that part words as one hyphen. -/
def hyphenated (inGap : Bool) : List Char → List Char
  | [] => []
  | c :: cs =>
      if partsWords c then
        if inGap then hyphenated true cs else '-' :: hyphenated true cs
      else c :: hyphenated false cs

/-- The words of a name in small letters with hyphens between. -/
def kebabCase (name : String) : String :=
  lower (String.ofList (hyphenated false (withCaseEdges name.toList)))

/-- A name under a convention; an unknown convention changes nothing. -/
def named (convention name : String) : String :=
  if convention == "PascalCase" then pascalCase name
  else if convention == "camelCase" then camelCase name
  else if convention == "kebab-case" then kebabCase name
  else name

/-! ## Paths -/

/-- A file name without its last extension. -/
def stem (name : String) : String :=
  if name.toList.contains '.' then
    String.ofList ((name.toList.reverse.dropWhile (· != '.')).drop 1).reverse
  else name

/-- The directory of the target for a file. -/
def directoryFor (path : String) (s : FileStructure) : String :=
  let marked := "/" ++ path
  if contains "/pages/" marked || contains "/routes/" marked then s.pages
  else if contains "/components/" marked then s.components
  else if contains "/layouts/" marked then s.layouts
  else if contains "/api/" marked then s.api
  else Path.parent path

/-- The path of a file in the target. -/
def placed (path : String) (spec : Specification) : String :=
  if isScript path then
    let conventions := spec.target.componentConventions
    let name := named conventions.namingConvention (stem (Path.fileName path)) ++
      conventions.fileExtension
    let directory := directoryFor path spec.target.fileStructure
    if directory.isEmpty then name else directory ++ "/" ++ name
  else path

end WebMigration.Structure
