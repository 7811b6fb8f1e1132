import NodeLedger.Proofs.FileTree.Steps

/-!
# Paths beside files that come and go

A walk leads through directories and links, never through a file. So a walk that succeeds may end
where a file stands or may be put, but it does not pass through there. Files that come and go
therefore change neither whether a path leads somewhere nor where it leads.

- `Alike`: trees that differ in files only.
- `locate_of_alike`: **a path that leads somewhere leads to the same place** in every such tree.
- `FilledAt`: two trees that differ by a file, at most, at a location where the first has nothing.
- `locate_look_of_replace`: a path whose entry is no link is looked at where it is replaced.
-/

namespace NodeLedger.FileTree

/-! ## Trees that differ in files -/

/-- What stands at a location, unless it is a file. -/
def fixture? (tree : FileTree) (location : Location) : Option Node :=
  match tree.node? location with
  | some (.file ..) => none
  | fixture => fixture

/-- The trees differ in files only: they have the same directories and the same links. -/
structure Alike (tree later : FileTree) : Prop where
  workDir : later.workDir = tree.workDir
  fixture : ∀ l, later.fixture? l = tree.fixture? l

section Fixture

variable {tree : FileTree} {location : Location}

theorem fixture?_of_none (h : tree.node? location = none) : tree.fixture? location = none := by
  rw [fixture?, h]

theorem fixture?_of_file {content : List UInt8} {mode : Nat}
    (h : tree.node? location = some (.file content mode)) : tree.fixture? location = none := by
  rw [fixture?, h]

theorem fixture?_of_directory (h : tree.node? location = some .directory) :
    tree.fixture? location = some .directory := by
  rw [fixture?, h]

theorem fixture?_of_link {target : CodeText} (h : tree.node? location = some (.link target)) :
    tree.fixture? location = some (.link target) := by
  rw [fixture?, h]

theorem node?_of_fixture? {node : Node} (h : tree.fixture? location = some node) :
    tree.node? location = some node := by
  unfold fixture? at h
  split at h
  · cases h
  · exact h

end Fixture

section Alike

variable {tree middle later : FileTree} {location directory : Location} {purpose : Purpose}
  {slash : Bool} {names : List CodeText}

theorem Alike.refl (tree : FileTree) : Alike tree tree :=
  ⟨rfl, fun _ => rfl⟩

theorem Alike.symm (h : Alike tree later) : Alike later tree :=
  ⟨h.workDir.symm, fun l => (h.fixture l).symm⟩

theorem Alike.trans (h : Alike tree middle) (h' : Alike middle later) : Alike tree later :=
  ⟨h'.workDir.trans h.workDir, fun l => (h'.fixture l).trans (h.fixture l)⟩

theorem noLinkAt_of_alike (h : Alike tree later) {place : Place} (hlink : tree.NoLinkAt place) :
    later.NoLinkAt place := by
  cases place with
  | directory => trivial
  | entry directory name slash =>
    intro target hnode
    refine hlink target (node?_of_fixture? ?_)
    rw [← h.fixture]
    exact fixture?_of_link hnode

/-- A stretch passes through directories and ends before links; files are neither. -/
theorem Leads.of_alike (h : Alike tree later) {stretch : Stretch}
    (hs : Leads tree purpose slash directory names stretch) :
    Leads later purpose slash directory names stretch := by
  induction hs with
  | ended directory => exact .ended directory
  | dot _ ih => exact .dot ih
  | up _ ih => exact .up ih
  | arrives hname hlink => exact .arrives hname fun hother => noLinkAt_of_alike h (hlink hother)
  | enters hname hnode hrest _ ih =>
    exact .enters hname (node?_of_fixture? ((h.fixture _).trans (fixture?_of_directory hnode))) hrest ih
  | turns hname hnode hrest =>
    exact .turns hname (node?_of_fixture? ((h.fixture _).trans (fixture?_of_link hnode))) hrest

/-- **A path that leads somewhere leads to the same place** in every tree that differs in files
only. -/
theorem locate_of_alike (h : Alike tree later) {path : CodeText} {place : Place}
    (hp : tree.locate purpose path = .ok place) : later.locate purpose path = .ok place := by
  obtain ⟨hpath, hwalk⟩ := locate_eq_ok_iff.1 hp
  refine locate_eq_ok_iff.2 ⟨hpath, ?_⟩
  rw [h.workDir]
  exact walk_of_steps (fun _ _ _ _ hs _ => hs.of_alike h) hwalk

/-- A change at one location, where neither a directory nor a link is before or after it. -/
theorem alike_of_other (hworkDir : later.workDir = tree.workDir)
    (hbefore : tree.fixture? location = none) (hafter : later.fixture? location = none)
    (hother : ∀ l, l ≠ location → later.node? l = tree.node? l) : Alike tree later where
  workDir := hworkDir
  fixture l := by
    by_cases hl : l = location
    · rw [hl, hbefore, hafter]
    · rw [fixture?, fixture?, hother l hl]

end Alike

/-! ## A file that comes and goes -/

/-- The later tree differs from the tree by a file, at most, at a location where nothing stood. -/
structure FilledAt (location : Location) (tree later : FileTree) : Prop where
  workDir : later.workDir = tree.workDir
  vacant : tree.node? location = none
  file : ∀ node, later.node? location = some node → ∃ content mode, node = .file content mode
  other : ∀ l, l ≠ location → later.node? l = tree.node? l

section Filled

variable {location : Location} {tree later : FileTree} {purpose : Purpose}

theorem FilledAt.ne_nil (h : FilledAt location tree later) : location ≠ [] := by
  rintro rfl
  exact absurd h.vacant (by rw [node?, if_pos rfl]; exact Option.some_ne_none _)

theorem FilledAt.fixture?_eq_none (h : FilledAt location tree later) :
    later.fixture? location = none := by
  cases hnode : later.node? location with
  | none => exact fixture?_of_none hnode
  | some node =>
    obtain ⟨content, mode, rfl⟩ := h.file node hnode
    exact fixture?_of_file hnode

theorem FilledAt.alike (h : FilledAt location tree later) : Alike tree later :=
  alike_of_other h.workDir (fixture?_of_none h.vacant) h.fixture?_eq_none h.other

/-- A file is put where there was nothing. -/
theorem filledAt_insert (hne : location ≠ [])
    (hvacant : tree.node? location = none) (content : List UInt8) (mode : Nat) :
    FilledAt location tree (tree.insert location (.file content mode)) where
  workDir := rfl
  vacant := hvacant
  file node hnode := by
    rw [node?_insert_self hne] at hnode
    cases hnode
    exact ⟨content, mode, rfl⟩
  other _ hl := node?_insert_of_ne hl

/-- A path that leads somewhere leads to the same place when a file comes. -/
theorem locate_of_filledAt (h : FilledAt location tree later) {path : CodeText} {place : Place}
    (hp : tree.locate purpose path = .ok place) : later.locate purpose path = .ok place :=
  locate_of_alike h.alike hp

end Filled

/-! ## Looking at what would be replaced -/

section Look

variable {tree : FileTree} {directory : Location} {slash : Bool} {names : List CodeText}

theorem Leads.look_of_replace {stretch : Stretch}
    (h : Leads tree .replace slash directory names stretch)
    (hlink : ∀ place, stretch = .arrival place → tree.NoLinkAt place) :
    Leads tree .look slash directory names stretch := by
  induction h with
  | ended directory => exact .ended directory
  | dot _ ih => exact .dot (ih hlink)
  | up _ ih => exact .up (ih hlink)
  | arrives hname _ => exact .arrives (hname.look _ _) fun _ => hlink _ rfl
  | enters hname hnode hrest _ ih => exact .enters (hname.look _ _) hnode hrest (ih hlink)
  | turns hname hnode _ => exact .turns (hname.look _ _) hnode fun _ => by decide

/-- **A path whose entry is no link is looked at where it is replaced.** -/
theorem locate_look_of_replace {path : CodeText} {place : Place}
    (hp : tree.locate .replace path = .ok place) (hlink : tree.NoLinkAt place) :
    tree.locate .look path = .ok place := by
  obtain ⟨hpath, hwalk⟩ := locate_eq_ok_iff.1 hp
  refine locate_eq_ok_iff.2 ⟨hpath, walk_of_steps (fun _ _ _ _ hs hplace => ?_) hwalk⟩
  -- Where a stretch arrives, the walk ends, and that is not at a link.
  refine hs.look_of_replace fun reached heq => ?_
  rw [hplace reached heq]
  exact hlink

end Look

end NodeLedger.FileTree
