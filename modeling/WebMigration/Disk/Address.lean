import WebMigration.Text.Path

/-!
# Addresses on a disk

An address is a path as it was given together with the names that it goes through from the root.  Two
dots among the names lead back up; an address is settled once they are cancelled.
-/

namespace WebMigration.Disk

/-- The names on the way from the root to something on the disk. -/
abbrev Location := List String

/-- A path with the names it goes through. -/
structure Address where
  /-- The path as it was given. -/
  text : String
  names : List String
  deriving DecidableEq, Repr

namespace Address

/-- The names of a path: single dots and empty names vanish. -/
def namesOf (path : String) : List String :=
  (Text.Path.segments path).filter fun name => !name.isEmpty && name != "."

/-- The path without single dots and empty names. -/
def spelled (path : String) : String :=
  let names := Text.join "/" (namesOf path)
  if Text.startsWith "/" path then "/" ++ names else if names.isEmpty then "." else names

/-- The address of a path that is given in a directory. -/
def ofPath (working : Location) (path : String) : Address :=
  ⟨spelled path, if Text.startsWith "/" path then namesOf path else working ++ namesOf path⟩

/-- The address of a location. -/
def ofLocation (l : Location) : Address := ⟨"/" ++ Text.join "/" l, l⟩

/-- The address with all dots cancelled, shown from the root on. -/
def settled (p : Address) : Address := ofLocation (Text.Path.cancel true p.names)

/-- The address of a path below a directory; a path from the root on stands on its own. -/
def below (directory : Address) (path : String) : Address :=
  ⟨Text.Path.below directory.text path,
    if Text.startsWith "/" path then namesOf path else directory.names ++ namesOf path⟩

/-- The address of the directory that holds something. -/
def parent (p : Address) : Address := ⟨Text.Path.parent p.text, p.names.dropLast⟩

end Address

end WebMigration.Disk
