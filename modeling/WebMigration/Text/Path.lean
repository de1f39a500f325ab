import WebMigration.Text.Basic

/-!
# File paths

Paths whose segments are parted by slashes: their last segment, their directory, and the path that a
chain of segments denotes once single and double dots are cancelled.
-/

namespace WebMigration.Text.Path

/-- The path with slashes in place of backslashes. -/
def withSlashes (path : String) : String :=
  String.ofList (path.toList.map fun c => if c == '\\' then '/' else c)

/-- The segments of a path. -/
def segments (path : String) : List String := splitOn "/" path

/-- What stands before and after the last slash; without one there is nothing before. -/
def splitLast (path : String) : String × String :=
  let after := (path.toList.reverse.takeWhile (· != '/')).reverse
  (String.ofList (path.toList.take (path.length - after.length - 1)), String.ofList after)

/-- The last segment. -/
def fileName (path : String) : String := (splitLast path).2

/-- The path without its last segment; without a slash it is empty. -/
def parent (path : String) : String := (splitLast path).1

/-- What stands before the last slash, or the whole path. -/
def beforeLastSlash (path : String) : String :=
  if path.toList.contains '/' then parent path else path

/-- The directory of a path; slashes at its end go, unless there is nothing else. -/
def directory (path : String) : String :=
  let head := path.toList.take (path.length - (fileName path).length)
  let bare := dropEndWhile (· == '/') head
  String.ofList (if bare.isEmpty then head else bare)

/-- A path below a directory; an absolute path stands on its own. -/
def below (directory path : String) : String :=
  if startsWith "/" path then path
  else if directory.isEmpty || endsWith "/" directory then directory ++ path
  else directory ++ "/" ++ path

/-- One segment after the segments so far, latest first: single dots and empty segments vanish, and
double dots cancel the segment before, but not at the root of an absolute path. -/
def step (absolute : Bool) (before : List String) (segment : String) : List String :=
  if segment.isEmpty || segment == "." then before
  else if segment != ".." then segment :: before
  else
    match before with
    | [] => if absolute then [] else [".."]
    | last :: rest => if last == ".." then ".." :: last :: rest else rest

/-- The segments that a chain of segments denotes. -/
def cancel (absolute : Bool) (segments : List String) : List String :=
  (segments.foldl (step absolute) []).reverse

/-- The number of slashes that mark a path as absolute: two count apart from one or from more. -/
def rootSlashes (path : String) : Nat :=
  let n := (path.toList.takeWhile (· == '/')).length
  if n == 0 then 0 else if n == 2 then 2 else 1

/-- The shortest spelling of a path. -/
def normalize (path : String) : String :=
  let roots := rootSlashes path
  let spelled := String.ofList (List.replicate roots '/') ++ join "/" (cancel (roots != 0) (segments path))
  if spelled.isEmpty then "." else spelled

/-- The number of slashes. -/
def depth (path : String) : Nat := path.toList.count '/'

end WebMigration.Text.Path
