import NodeLedger.FileTree.Access

/-!
# Laying out a tree

A tree is described entry by entry, each with a path and with what stands there. An entry is put in
place as a user would do it: directories on the way are made, and links are followed.

- `FileTree.layOut`: a tree with one more entry.
- `FileTree.clear`: a tree without an entry and everything below it.
-/

namespace NodeLedger.FileTree

/-- Put an entry at the end of a path, where nothing stands yet. -/
def addEntry (tree : FileTree) (path : CodeText) (node : Node) : FileTree :=
  match tree.locate .replace path with
  | .ok (.entry directory name _) =>
    let location := directory ++ [name]
    if (tree.node? location).isSome then tree else tree.insert location node
  | _ => tree

/-- A directory at the end of a path, and at the end of every path above it. -/
def makeDirectories (tree : FileTree) (path : CodeText) : FileTree :=
  let names := Path.names path
  (List.range names.length).foldl
    (fun tree n =>
      tree.addEntry (Path.root path ++ CodeText.join "/" (names.take (n + 1))) .directory)
    tree

/-- Give the file at the end of a path other permission bits. -/
def setMode (tree : FileTree) (path : CodeText) (mode : Nat) : FileTree :=
  match tree.locate .look path with
  | .ok (.entry directory name _) =>
    match tree.node? (directory ++ [name]) with
    | some (.file content _) => tree.insert (directory ++ [name]) (.file content mode)
    | _ => tree
  | _ => tree

/-- The tree with one more entry. -/
def layOut (tree : FileTree) (path : CodeText) : Node → Except FileFault FileTree
  | .directory => .ok (tree.makeDirectories path)
  | .link target => .ok ((tree.makeDirectories (Path.parent path)).addEntry path (.link target))
  | .file content mode => do
    let written ← (tree.makeDirectories (Path.parent path)).write path content
    return written.setMode path mode

/-- The tree without the entry at the end of a path and everything below it. -/
def clear (tree : FileTree) (path : CodeText) : FileTree :=
  match tree.locate .replace path with
  | .ok (.entry directory name _) => tree.prune (directory ++ [name])
  | _ => tree

end NodeLedger.FileTree
