import NodeLedger.FileTree.Walk
import NodeLedger.Text.Quoted

/-!
# Reading and changing files

The operations on a file tree by paths. Each yields the tree as it is afterwards, or the fault that
kept it as it was.

- `FileTree.present`, `FileTree.isDirectory`: questions, answered no when the path leads nowhere.
- `FileTree.read`, `FileTree.write`, `FileTree.remove`: one file.
- `FileTree.createBeside`: a new file under a name that its directory does not have yet.
- `FileTree.erase_of_createBeside`: **a new file that is taken away again leaves no trace**.
- `FileTree.move`: a file put in place of another entry. A directory is never replaced.
-/

namespace NodeLedger

/-- Why an operation on files failed. -/
inductive FileFault where
  | refused (refusal : Refusal) (path : CodeText)
  | notMoved (refusal : Refusal) (source target : CodeText)
  /-- No file can have the path. -/
  | noPath (fault : PathFault)
  deriving Repr, DecidableEq

/-- The wording of a fault. -/
def FileFault.message : FileFault → String
  | refused refusal path => s!"[Errno {refusal.number}] {refusal.wording}: {Text.quote path}"
  | notMoved refusal source target =>
    s!"[Errno {refusal.number}] {refusal.wording}: {Text.quote source} -> {Text.quote target}"
  | noPath fault => fault.message

namespace FileTree

/-- An operation on a path that may be any text. -/
def onPath (path : CodeText) (outcome : Except Refusal α) : Except FileFault α :=
  match Path.fault? path with
  | some fault => .error (.noPath fault)
  | none => outcome.mapError (.refused · path)

section OnPath

variable {α : Type} {path : CodeText} {outcome : Except Refusal α}

theorem onPath_of_fault? {fault : PathFault} (h : Path.fault? path = some fault) :
    onPath path outcome = .error (.noPath fault) := by
  rw [onPath, h]

theorem onPath_of_none (h : Path.fault? path = none) :
    onPath path outcome = outcome.mapError (.refused · path) := by
  rw [onPath, h]

/-- An operation that was not refused has a path that a file can have. -/
theorem fault?_of_onPath {a : α} (h : onPath path outcome = .ok a) : Path.fault? path = none := by
  cases hpath : Path.fault? path with
  | none => rfl
  | some fault =>
    rw [onPath_of_fault? hpath] at h
    cases h

/-- What an operation on a path yields is what it yields at the path's place. -/
theorem eq_ok_of_onPath {a : α} (h : onPath path outcome = .ok a) : outcome = .ok a := by
  rw [onPath_of_none (fault?_of_onPath h)] at h
  cases outcome with
  | ok b =>
    have hok : (Except.ok b : Except FileFault α) = .ok a := h
    cases hok
    rfl
  | error refusal =>
    have herror : (Except.error (.refused refusal path) : Except FileFault α) = .ok a := h
    cases herror

end OnPath

/-- Whether a place is a directory, or nothing when there is nothing. -/
def directoryAt? (tree : FileTree) : Place → Option Bool
  | .directory _ => some true
  | .entry directory name slash =>
    match tree.node? (directory ++ [name]) with
    | some .directory => some true
    | some _ => if slash then none else some false
    | none => none

/-- Whether a path leads to a directory, or nothing when it leads nowhere. -/
def kindOf? (tree : FileTree) (path : CodeText) : Option Bool :=
  match Path.fault? path with
  | some _ => none
  | none =>
    match tree.locate .look path with
    | .ok place => tree.directoryAt? place
    | .error _ => none

theorem kindOf?_of_none {tree : FileTree} {path : CodeText} (h : Path.fault? path = none) :
    tree.kindOf? path =
      match tree.locate .look path with
      | .ok place => tree.directoryAt? place
      | .error _ => none := by
  rw [kindOf?, h]

/-- The path leads to a file or a directory. -/
def present (tree : FileTree) (path : CodeText) : Bool :=
  (tree.kindOf? path).isSome

/-- A path that leads anywhere is one that a file can have. -/
theorem fault?_of_present {tree : FileTree} {path : CodeText} (h : tree.present path = true) :
    Path.fault? path = none := by
  cases hpath : Path.fault? path with
  | none => rfl
  | some fault =>
    rw [present, kindOf?, hpath] at h
    cases h

/-- The path leads to a directory. -/
def isDirectory (tree : FileTree) (path : CodeText) : Bool :=
  tree.kindOf? path == some true

/-- The content of the file at a place. -/
def contentAt (tree : FileTree) : Place → Except Refusal (List UInt8)
  | .directory _ => .error .isADirectory
  | .entry directory name slash =>
    match tree.node? (directory ++ [name]) with
    | some (.file content _) => if slash then .error .notADirectory else .ok content
    | some .directory => .error .isADirectory
    | _ => .error .missing

/-- The content of a file. -/
def read (tree : FileTree) (path : CodeText) : Except FileFault (List UInt8) :=
  onPath path (tree.locate .look path >>= tree.contentAt)

/-- Give the file at a place a content. A file that is there keeps its permission bits. -/
def writeAt (tree : FileTree) (content : List UInt8) : Place → Except Refusal FileTree
  | .directory _ => .error .isADirectory
  | .entry directory name _ =>
    let location := directory ++ [name]
    match tree.node? location with
    | some (.file _ mode) => .ok (tree.insert location (.file content mode))
    | none => .ok (tree.insert location (.file content plainMode))
    | some _ => .error .isADirectory

/-- Give a file a content, and create it if it is absent. -/
def write (tree : FileTree) (path : CodeText) (content : List UInt8) : Except FileFault FileTree :=
  onPath path (tree.locate .write path >>= tree.writeAt content)

/-- Take away the file or the link at a place. -/
def removeAt (tree : FileTree) : Place → Except Refusal FileTree
  | .directory _ => .error .isADirectory
  | .entry directory name slash =>
    match tree.node? (directory ++ [name]) with
    | none => .error .missing
    | some .directory => .error .isADirectory
    | some _ => if slash then .error .notADirectory else .ok (tree.erase (directory ++ [name]))

/-- Take away a file, or a link itself. -/
def remove (tree : FileTree) (path : CodeText) : Except FileFault FileTree :=
  onPath path (tree.locate .replace path >>= tree.removeAt)

/-- The names that a new file may get, all of one length. -/
def temporaryName (n : Nat) : CodeText :=
  (".wni-" ++ String.ofList ((Nat.toDigits 10 n).leftpad 8 '0') ++ ".tmp" : String)

/-- A name for a new file in a directory. Of as many candidates as there are entries, and one more,
one is free. -/
def freeName? (tree : FileTree) (directory : Location) : Option CodeText :=
  ((List.range (tree.nodes.length + 1)).map temporaryName).find? fun name =>
    tree.nodes.all fun entry => entry.1 != directory ++ [name]

/-- A new file in a directory: its location and its name, with the tree that holds it. -/
def createIn (tree : FileTree) (content : List UInt8) : Place →
    Except Refusal (Location × CodeText × FileTree)
  | .directory _ => .error .taken
  | .entry directory _ _ =>
    match tree.freeName? directory with
    | none => .error .taken
    | some name =>
      let location := directory ++ [name]
      .ok (location, name, tree.insert location (.file content plainMode))

/-- A new file in the directory of a path: its location and its path, with the tree that holds it. -/
def createBeside (tree : FileTree) (path : CodeText) (content : List UInt8) :
    Except FileFault (Location × CodeText × FileTree) :=
  let directory := Path.parent (Path.absolute tree.workDir path)
  let candidate := Path.join directory (temporaryName 0)
  onPath candidate do
    let (location, name, tree) ← tree.locate .replace candidate >>= tree.createIn content
    return (location, Path.join directory name, tree)

theorem erase_of_createIn {tree written : FileTree} {content : List UInt8} {place : Place}
    {location : Location} {name : CodeText}
    (h : tree.createIn content place = .ok (location, name, written)) :
    written.erase location = tree := by
  unfold createIn at h
  split at h
  · cases h
  · split at h
    · cases h
    · rename_i hname
      cases h
      refine erase_insert fun entry he => ?_
      have hfree := List.find?_some hname
      simpa using List.all_eq_true.1 hfree entry he

/-- **A new file that is taken away again leaves the tree as it was.** -/
theorem erase_of_createBeside {tree written : FileTree} {path temporary : CodeText}
    {content : List UInt8} {location : Location}
    (h : tree.createBeside path content = .ok (location, temporary, written)) :
    written.erase location = tree := by
  have hplain := eq_ok_of_onPath h
  cases hplace : tree.locate .replace
      (Path.join (Path.parent (Path.absolute tree.workDir path)) (temporaryName 0)) with
  | error refusal => simp [hplace, bind, Except.bind] at hplain
  | ok place =>
    cases hcreate : tree.createIn content place with
    | error refusal => simp [hplace, hcreate, bind, Except.bind] at hplain
    | ok made =>
      simp only [hplace, hcreate, bind, Except.bind, pure, Except.pure, Except.ok.injEq,
        Prod.mk.injEq] at hplain
      obtain ⟨rfl, -, rfl⟩ := hplain
      exact erase_of_createIn hcreate

/-- Put the file of a location in place of the entry at a place. A file put in its own place stays
there. -/
def moveTo (tree : FileTree) (source : Location) : Place → Except Refusal FileTree
  | .directory _ => .error .busy
  | .entry directory name slash =>
    let target := directory ++ [name]
    if slash then .error .notADirectory
    else if target = source then .ok tree
    else
      match tree.node? target, tree.node? source with
      | some .directory, _ => .error .isADirectory
      | _, some node => .ok ((tree.insert target node).erase source)
      | _, none => .error .missing

/-- Put the file of a location, known by a path, in place of the entry that another path names. -/
def move (tree : FileTree) (source : Location) (sourcePath target : CodeText) :
    Except FileFault FileTree :=
  match Path.fault? target with
  | some fault => .error (.noPath fault)
  | none =>
    (tree.locate .replace target >>= tree.moveTo source).mapError (.notMoved · sourcePath target)

theorem move_of_none {tree : FileTree} {source : Location} {sourcePath target : CodeText}
    (h : Path.fault? target = none) :
    tree.move source sourcePath target =
      (tree.locate .replace target >>= tree.moveTo source).mapError
        (.notMoved · sourcePath target) := by
  rw [move, h]

/-- A move is refused for its path exactly if no file can have the path. -/
theorem move_eq_noPath_iff {tree : FileTree} {source : Location} {sourcePath target : CodeText}
    {fault : PathFault} :
    tree.move source sourcePath target = .error (.noPath fault) ↔ Path.fault? target = some fault := by
  cases hpath : Path.fault? target with
  | some other =>
    rw [move, hpath]
    exact ⟨fun h => by cases h; rfl, fun h => by cases h; rfl⟩
  | none =>
    rw [move_of_none hpath]
    refine iff_of_false ?_ fun h => nomatch h
    cases tree.locate .replace target >>= tree.moveTo source with
    | ok moved => exact fun hmoved => nomatch hmoved
    | error refusal => exact fun hmoved => nomatch hmoved

/-- A file was moved to a path that a file can have. -/
theorem fault?_of_move {tree moved : FileTree} {source : Location} {sourcePath target : CodeText}
    (h : tree.move source sourcePath target = .ok moved) : Path.fault? target = none := by
  cases hpath : Path.fault? target with
  | none => rfl
  | some fault =>
    rw [move_eq_noPath_iff.2 hpath] at h
    cases h

end FileTree

end NodeLedger
