import NodeLedger.FileTree.Tree

/-!
# Walking a path

A path is walked name by name through directories, and each name leads to the entry that is known by
it. A symbolic link on the way is replaced by its target; `..` goes to the directory above the one that
the walk has reached.

- `Refusal`: why a path leads nowhere, or an operation on it is refused.
- `Place`: where a walk ends: at a directory, or at an entry that a directory has or may get.
- `FileTree.stretch`: a walk up to the first link that has to be followed.
- `FileTree.walk`: a walk through links, of which at most so many are followed.
- `FileTree.locate`: the place of a path. Whether a link at its very end is followed, and whether an
  absent entry is going to be created there, is told by a `Purpose`.
-/

namespace NodeLedger

/-- Why an operation on a path is refused. -/
inductive Refusal where
  | missing
  | busy
  | taken
  | notADirectory
  | isADirectory
  | nameTooLong
  | tooManyLinks
  deriving Repr, DecidableEq

/-- The number of a refusal. -/
def Refusal.number : Refusal → Nat
  | missing => 2
  | busy => 16
  | taken => 17
  | notADirectory => 20
  | isADirectory => 21
  | nameTooLong => 36
  | tooManyLinks => 40

/-- The wording of a refusal. -/
def Refusal.wording : Refusal → String
  | missing => "No such file or directory"
  | busy => "Device or resource busy"
  | taken => "File exists"
  | notADirectory => "Not a directory"
  | isADirectory => "Is a directory"
  | nameTooLong => "File name too long"
  | tooManyLinks => "Too many levels of symbolic links"

/-- The bytes that a name may take. -/
def maxNameLength : Nat := 255

/-- The bytes that a path may take. -/
def maxPathLength : Nat := 4095

/-- The links that a walk may follow. -/
def maxLinks : Nat := 40

/-- What a walk is for. -/
inductive Purpose where
  /-- The entry is looked at; links are followed to the end. -/
  | look
  /-- The entry itself is taken away or replaced; a link at the end is kept. -/
  | replace
  /-- The entry is written, and created if absent; links are followed to the end, and the last name
  of a file is followed by no slash. -/
  | write
  deriving Repr, DecidableEq

/-- Where a walk ends. -/
inductive Place where
  /-- At a directory that was not reached by its name: the root, `.` or `..`. -/
  | directory (location : Location)
  /-- At an entry of a directory, present or absent. The flag tells that the path asks for a
  directory by a slash at its end. -/
  | entry (directory : Location) (name : CodeText) (slash : Bool)
  deriving Repr, DecidableEq

/-- How far a walk gets without following a link. -/
inductive Stretch where
  | arrival (place : Place)
  /-- At a link in a directory, with the names that are still to be walked. -/
  | detour (directory : Location) (target : CodeText) (rest : List CodeText)
  deriving Repr, DecidableEq

namespace FileTree

/-- Walk names from a directory, up to the first link that has to be followed. -/
def stretch (tree : FileTree) (purpose : Purpose) (slash : Bool) :
    Location → List CodeText → Except Refusal Stretch
  | directory, [] => .ok (.arrival (.directory directory))
  | directory, name :: rest =>
    if name = "." then tree.stretch purpose slash directory rest
    else if name = ".." then tree.stretch purpose slash directory.dropLast rest
    else if rest.isEmpty && slash && purpose = .write then .error .isADirectory
    else if maxNameLength < name.byteLength then .error .nameTooLong
    else
      match tree.node? (directory ++ [name.known]) with
      | none =>
        if rest.isEmpty then .ok (.arrival (.entry directory name.known slash)) else .error .missing
      | some (.file ..) =>
        if rest.isEmpty then .ok (.arrival (.entry directory name.known slash))
        else .error .notADirectory
      | some .directory =>
        if rest.isEmpty then .ok (.arrival (.entry directory name.known slash))
        else tree.stretch purpose slash (directory ++ [name.known]) rest
      | some (.link target) =>
        if rest.isEmpty && purpose = .replace then .ok (.arrival (.entry directory name.known slash))
        else .ok (.detour directory target rest)

/-- The directory that the target of a link starts from. -/
def detourStart (directory : Location) (target : CodeText) : Location :=
  if Path.isAbsolute target then [] else directory

/-- A walk through a link asks for a directory if the walk does, or if it ends with the link and the
link asks for one. -/
def detourSlash (slash : Bool) (target : CodeText) (rest : List CodeText) : Bool :=
  slash || (rest.isEmpty && Path.endsInSlash target)

/-- Walk names from a directory, following at most so many links. -/
def walk (tree : FileTree) (purpose : Purpose) :
    (links : Nat) → (slash : Bool) → Location → List CodeText → Except Refusal Place
  | 0, slash, directory, names =>
    match tree.stretch purpose slash directory names with
    | .error refusal => .error refusal
    | .ok (.arrival place) => .ok place
    | .ok (.detour ..) => .error .tooManyLinks
  | links + 1, slash, directory, names =>
    match tree.stretch purpose slash directory names with
    | .error refusal => .error refusal
    | .ok (.arrival place) => .ok place
    | .ok (.detour above target rest) =>
      tree.walk purpose links (detourSlash slash target rest) (detourStart above target)
        (Path.names target ++ rest)

/-- The place of a path. -/
def locate (tree : FileTree) (purpose : Purpose) (path : CodeText) : Except Refusal Place :=
  if path = "" then .error .missing
  else if maxPathLength < path.byteLength then .error .nameTooLong
  else
    tree.walk purpose maxLinks (Path.endsInSlash path)
      (if Path.isAbsolute path then [] else tree.workDir) (Path.names path)

end FileTree

end NodeLedger
