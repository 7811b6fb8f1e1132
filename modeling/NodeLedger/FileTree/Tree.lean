import NodeLedger.FileTree.Path

/-!
# File trees

A file tree is the list of its entries with the working directory. The root is a directory without
an entry of its own.

- `FileTree.node?`: what stands at a location.
- `FileTree.insert`, `FileTree.erase`: a tree with an entry put in place, or taken away.
- `FileTree.insert_of_fresh`, `FileTree.erase_insert`: **a new entry that is taken away again leaves
  the tree as it was**.
-/

namespace NodeLedger

/-- An entry of a file tree. -/
inductive Node where
  | directory
  /-- A regular file with its permission bits. -/
  | file (content : List UInt8) (mode : Nat)
  /-- A symbolic link to a path. -/
  | link (target : CodeText)
  deriving Repr, DecidableEq

/-- The permission bits of a new file: its owner may read and write it, everyone else may read. -/
def plainMode : Nat := 0o644

/-- A file tree. -/
structure FileTree where
  nodes : List (Location × Node)
  workDir : Location
  deriving Repr, DecidableEq

namespace FileTree

/-- What stands at a location. -/
def node? (tree : FileTree) (location : Location) : Option Node :=
  if location = [] then some .directory
  else (tree.nodes.find? fun entry => entry.1 == location).map (·.2)

/-- Entries with one put in place of those at its location, or at the end. -/
def insertNode : List (Location × Node) → Location → Node → List (Location × Node)
  | [], location, node => [(location, node)]
  | entry :: entries, location, node =>
    if entry.1 = location then (location, node) :: entries
    else entry :: insertNode entries location node

/-- The tree with an entry put in place. -/
def insert (tree : FileTree) (location : Location) (node : Node) : FileTree :=
  { tree with nodes := insertNode tree.nodes location node }

/-- The tree without the entry at a location. -/
def erase (tree : FileTree) (location : Location) : FileTree :=
  { tree with nodes := tree.nodes.filter fun entry => entry.1 != location }

/-- The tree without the entry at a location and everything below it. -/
def prune (tree : FileTree) (location : Location) : FileTree :=
  { tree with nodes := tree.nodes.filter fun entry => !location.isPrefixOf entry.1 }

/-- The entries below a location, each with its path from there, in the order of the paths. -/
def listing (tree : FileTree) (location : Location) : List (CodeText × Node) :=
  let below := tree.nodes.filter fun entry =>
    location.isPrefixOf entry.1 && location.length < entry.1.length
  (below.map fun entry => (CodeText.join "/" (entry.1.drop location.length), entry.2)).mergeSort
    fun a b => a.1 ≤ b.1

/-! ## Entries and locations -/

theorem insertNode_of_fresh {nodes : List (Location × Node)} {location : Location} {node : Node}
    (h : ∀ entry ∈ nodes, entry.1 ≠ location) :
    insertNode nodes location node = nodes ++ [(location, node)] := by
  induction nodes with
  | nil => rfl
  | cons entry entries ih =>
    have hne : entry.1 ≠ location := h entry (by simp)
    have hrest := ih fun e he => h e (by simp [he])
    simp [insertNode, hne, hrest]

/-- A new entry comes last. -/
theorem insert_of_fresh {tree : FileTree} {location : Location} {node : Node}
    (h : ∀ entry ∈ tree.nodes, entry.1 ≠ location) :
    tree.insert location node = { tree with nodes := tree.nodes ++ [(location, node)] } := by
  simp [insert, insertNode_of_fresh h]

/-- **A new entry that is taken away again leaves the tree as it was.** -/
theorem erase_insert {tree : FileTree} {location : Location} {node : Node}
    (h : ∀ entry ∈ tree.nodes, entry.1 ≠ location) :
    (tree.insert location node).erase location = tree := by
  have hkeep : tree.nodes.filter (fun entry => entry.1 != location) = tree.nodes :=
    List.filter_eq_self.2 fun entry he => by simpa using h entry he
  rw [insert_of_fresh h]
  simp [erase, hkeep]

theorem find?_insertNode_self (nodes : List (Location × Node)) (location : Location) (node : Node) :
    (insertNode nodes location node).find? (fun entry => entry.1 == location)
      = some (location, node) := by
  induction nodes with
  | nil => simp [insertNode]
  | cons entry entries ih =>
    by_cases h : entry.1 = location
    · simp [insertNode, h]
    · simp [insertNode, h, ih]

theorem find?_insertNode_of_ne (nodes : List (Location × Node)) {location other : Location}
    (node : Node) (h : other ≠ location) :
    (insertNode nodes location node).find? (fun entry => entry.1 == other)
      = nodes.find? (fun entry => entry.1 == other) := by
  induction nodes with
  | nil => simp [insertNode, Ne.symm h]
  | cons entry entries ih =>
    by_cases he : entry.1 = location
    · have hne : ¬ location = other := Ne.symm h
      simp [insertNode, he, hne]
    · by_cases ho : entry.1 = other
      · simp [insertNode, ho, h]
      · simp [insertNode, he, ho, ih]

/-- An entry put in place stands at its location. -/
theorem node?_insert_self {tree : FileTree} {location : Location} {node : Node}
    (h : location ≠ []) : (tree.insert location node).node? location = some node := by
  simp [node?, insert, h, find?_insertNode_self]

/-- Putting an entry in place changes no other location. -/
theorem node?_insert_of_ne {tree : FileTree} {location other : Location} {node : Node}
    (h : other ≠ location) : (tree.insert location node).node? other = tree.node? other := by
  simp [node?, insert, find?_insertNode_of_ne tree.nodes node h]

/-- Nothing stands where an entry was taken away. -/
theorem node?_erase_self {tree : FileTree} {location : Location} (h : location ≠ []) :
    (tree.erase location).node? location = none := by
  simp [node?, erase, h]

/-- Taking an entry away changes no other location. -/
theorem node?_erase_of_ne {tree : FileTree} {location other : Location} (h : other ≠ location) :
    (tree.erase location).node? other = tree.node? other := by
  have hfind : (tree.nodes.filter fun entry => entry.1 != location).find?
      (fun entry => entry.1 == other) = tree.nodes.find? (fun entry => entry.1 == other) := by
    induction tree.nodes with
    | nil => rfl
    | cons entry entries ih =>
      by_cases he : entry.1 = location
      · have hne : ¬ location = other := Ne.symm h
        simp [he, hne, ih]
      · by_cases ho : entry.1 = other <;> simp [he, ho, ih, h]
  simp [node?, erase, hfind]

end FileTree

end NodeLedger
