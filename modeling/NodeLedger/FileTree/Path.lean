import NodeLedger.FileTree.Naming
import NodeLedger.Text.Field

/-!
# Paths and locations

A path is text as a user writes it: names between slashes, from the root or from the working
directory. A location is where an entry stands: the list of names from the root down to it, each as it
is read back from its bytes.

- `Path.names`: the names of a path; a run of slashes separates two names like one slash.
- `Path.join`, `Path.parent`: a path below a directory, and the directory part of a path.
- `Path.absolute`: a path from the root, `..` taken away together with the name before it.
- `Path.tidy`: a path without superfluous slashes and single dots.
-/

namespace NodeLedger

open Text

/-- Where an entry of a file tree stands: the names from the root down to it. -/
abbrev Location := List CodeText

/-- The path that leads to a location. -/
def Location.path (location : Location) : CodeText :=
  "/" ++ CodeText.join "/" location

namespace Path

/-- The names of a path. -/
def names (path : CodeText) : List CodeText :=
  ((fields (.char '/') path.points).filter (· ≠ [])).map CodeText.mk

/-- The path starts at the root. -/
def isAbsolute (path : CodeText) : Bool :=
  path.points.head? == some (.char '/')

/-- The path ends in a slash, and so asks for a directory. -/
def endsInSlash (path : CodeText) : Bool :=
  path.points.getLast? == some (.char '/')

/-- A path below a directory. A path from the root stays as it is. -/
def join (directory path : CodeText) : CodeText :=
  if isAbsolute path then path
  else if directory == "" || endsInSlash directory then directory ++ path
  else directory ++ "/" ++ path

/-- The directory part of a path: what stands before its last name, without the slashes in between.
It is empty for a single name. -/
def parent (path : CodeText) : CodeText :=
  let front := path.points.reverse.dropWhile (· != .char '/')
  let trimmed := front.dropWhile (· == .char '/')
  ⟨(if trimmed.isEmpty then front else trimmed).reverse⟩

/-- The slashes that a path from the root keeps at its front: two stay two, any other number becomes
one. -/
def root (path : CodeText) : CodeText :=
  let slashes := (path.points.takeWhile (· == .char '/')).length
  if slashes = 0 then "" else if slashes = 2 then "//" else "/"

/-- Go down a name, or up at `..`. -/
def step (above : List CodeText) (name : CodeText) : List CodeText :=
  if name == "." then above else if name == ".." then above.dropLast else above ++ [name]

/-- The path from the root that a path stands for, by its text alone. -/
def absolute (workDir : Location) (path : CodeText) : CodeText :=
  let whole := join workDir.path path
  root whole ++ CodeText.join "/" ((names whole).foldl step [])

/-- The path without superfluous slashes and single dots; the empty path is the working directory. -/
def tidy (path : CodeText) : CodeText :=
  let text := root path ++ CodeText.join "/" ((names path).filter (· != "."))
  if text == "" then "." else text

end Path

end NodeLedger
