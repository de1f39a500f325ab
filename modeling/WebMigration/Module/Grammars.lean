import WebMigration.Module.Reference
import WebMigration.Spec.Basic
import WebMigration.Failure.Basic

/-!
# Registered grammars

Which grammar a file is read with.  A grammar is registered under a language name with the file
extensions that it claims and with further names.  The extension of a file counts before the
language that was declared for it; among grammars that claim one extension, the one first registered
counts.  Parsers are made once and kept until their language is registered again.  Nothing here looks
into a parser, so it may be anything that tells what its factory makes; files are read with dialects.
-/

namespace WebMigration.Module

open Syntax

/-- A registered grammar. -/
structure GrammarProfile (Parser : Type := Dialect) where
  language : String
  extensions : List String
  /-- What the factory of this grammar makes. -/
  parser : Parser
  aliases : List String
  deriving DecidableEq, Repr

/-- All registered grammars, the names that lead to them, and the parsers made so far. -/
structure Grammars (Parser : Type := Dialect) where
  profiles : Table (GrammarProfile Parser) := []
  names : Table String := []
  parsers : Table Parser := []

variable {Parser : Type}

def GrammarProfile.toJson (p : GrammarProfile Parser) : Json :=
  .record [("language", .string p.language), ("extensions", .strings p.extensions),
    ("aliases", .strings p.aliases)]

/-- The profile for a grammar, under the key of its language. -/
def GrammarProfile.of (language : String) (extensions : List String) (parser : Parser)
    (aliases : List String) : GrammarProfile Parser :=
  ⟨Text.normalizedKey language, extensions.map Text.lower, parser, aliases⟩

/-- The names that lead to a grammar once it is registered. -/
def GrammarProfile.names (p : GrammarProfile Parser) : List String :=
  p.language :: p.aliases.map Text.normalizedKey

namespace Grammars

/-- Registers a grammar, or registers it anew. -/
def register (g : Grammars Parser) (language : String) (extensions : List String) (parser : Parser)
    (aliases : List String) : GrammarProfile Parser × Grammars Parser :=
  let profile := GrammarProfile.of language extensions parser aliases
  (profile, {
    profiles := g.profiles.put profile.language profile
    names := profile.names.foldl (fun t n => t.put n profile.language) g.names
    parsers := g.parsers.erase profile.language })

/-- The grammar that a language name leads to. -/
def normalize? (g : Grammars Parser) (name : Option String) : Option String :=
  match name with
  | some n => if n.isEmpty then none else g.names.get? (Text.normalizedKey n)
  | none => none

/-- The extension of a path with its dot: what follows the last dot of the last segment, unless only
dots precede it. -/
def extension (path : String) : String :=
  let segment := (Text.afterLast "/" path).toList
  let stem := segment.dropWhile (· == '.')
  if stem.contains '.' then
    String.ofList ('.' :: (stem.reverse.takeWhile (· != '.')).reverse)
  else ""

/-- The language of the grammar that claims the extension of a path. -/
def detect? (g : Grammars Parser) (path : String) : Option String :=
  let ext := Text.lower (extension path)
  (g.profiles.find? fun p => p.2.extensions.contains ext).map (·.2.language)

/-- The language that a file is read with; an empty one is none. -/
def resolve (g : Grammars Parser) (language : Option String) (path : String) : String :=
  ((g.detect? path).filter (!·.isEmpty) <|> (g.normalize? language).filter (!·.isEmpty)).getD
    "javascript"

/-- A parser for a language, made now or before. -/
def parser (g : Grammars Parser) (language : Option String) :
    Except Fault (Parser × Grammars Parser) :=
  match g.normalize? language with
  | none =>
      let known := (g.profiles.map (·.1)).mergeSort (fun a b => !(b < a))
      .error (.value ("Unsupported language: " ++ language.getD "None" ++ ". Supported: [" ++
        Text.join ", " (known.map Text.quoted) ++ "]"))
  | some key =>
      match g.parsers.get? key with
      | some d => .ok (d, g)
      | none =>
          match g.profiles.get? key with
          | some p => .ok (p.parser, { g with parsers := g.parsers.put key p.parser })
          | none => .error (.of .key key)

/-- The parser that a file is read with. -/
def parserFor (g : Grammars Parser) (language : Option String) (path : String) :
    Except Fault (Parser × Grammars Parser) :=
  g.parser (some (g.resolve language path))

/-- The grammars that are registered from the start. -/
def builtIn : Grammars :=
  let g : Grammars := {}
  let g := (g.register "javascript" [".js", ".jsx", ".mjs", ".cjs"] .javascript
    ["js", "jsx", "ecmascript"]).2
  let g := (g.register "typescript" [".ts", ".mts", ".cts"] .typescript ["ts"]).2
  (g.register "tsx" [".tsx"] .tsx []).2

end Grammars

end WebMigration.Module
