import NodeLedger.Proofs.FileTree.Frame
import NodeLedger.Proofs.Sequence

/-!
# One entry that changes

A new file is moved over whatever stands at the end of a path, unless that is a directory: a file, a
link, or nothing. A link is replaced itself, and what it leads to stays as it is.

- `DiffersAt`: two trees that differ at one location, at most.
- `filledAt_of_createBeside`, `exists_of_move`, `exists_of_remove`, `exists_of_write`: **what an
  operation has done that was not refused**, whatever stood there before.
-/

namespace NodeLedger.FileTree

/-- The trees differ at the location, at most. -/
structure DiffersAt (location : Location) (tree later : FileTree) : Prop where
  workDir : later.workDir = tree.workDir
  other : ∀ l, l ≠ location → later.node? l = tree.node? l

/-- A file that comes and goes makes trees differ at its location only. -/
theorem FilledAt.of_differsAt {location : Location} {tree later moved : FileTree}
    {content : List UInt8} {mode : Nat} (h : FilledAt location tree later)
    (hdiffers : DiffersAt location later moved)
    (hnode : moved.node? location = some (.file content mode)) : FilledAt location tree moved where
  workDir := hdiffers.workDir.trans h.workDir
  vacant := h.vacant
  file node hthere := by
    rw [hnode] at hthere
    cases hthere
    exact ⟨content, mode, rfl⟩
  other l hl := (hdiffers.other l hl).trans (h.other l hl)

section Operations

variable {tree later created written moved rest : FileTree} {path temporary name : CodeText}
  {directory location source : Location} {content : List UInt8}

theorem append_singleton_ne_nil (directory : Location) (name : CodeText) : directory ++ [name] ≠ [] :=
  List.append_ne_nil_of_right_ne_nil _ (List.cons_ne_nil _ _)

theorem node?_eq_none_of_fresh (hne : location ≠ [])
    (h : ∀ entry ∈ tree.nodes, entry.1 ≠ location) : tree.node? location = none := by
  have hfind : tree.nodes.find? (fun entry => entry.1 == location) = none :=
    List.find?_eq_none.2 fun entry hentry heq => h entry hentry (beq_iff_eq.1 heq)
  rw [node?, if_neg hne, hfind]
  rfl

/-! ## Operations that were not refused -/

/-- A new file has appeared where there was nothing. -/
theorem filledAt_of_createIn {place : Place}
    (h : tree.createIn content place = .ok (location, name, written)) :
    FilledAt location tree written ∧ written.node? location = some (.file content plainMode) := by
  unfold createIn at h
  split at h
  · cases h
  rename_i above first slash
  split at h
  · cases h
  rename_i free hfree
  cases h
  have hne := append_singleton_ne_nil above name
  have hfresh : ∀ entry ∈ tree.nodes, entry.1 ≠ above ++ [name] := by
    intro entry hentry
    have hfound := List.find?_some hfree
    exact bne_iff_ne.1 (List.all_eq_true.1 hfound entry hentry)
  exact ⟨filledAt_insert hne (node?_eq_none_of_fresh hne hfresh) content plainMode,
    node?_insert_self hne⟩

@[inherit_doc filledAt_of_createIn]
theorem filledAt_of_createBeside
    (h : tree.createBeside path content = .ok (location, temporary, written)) :
    FilledAt location tree written ∧ written.node? location = some (.file content plainMode) := by
  obtain ⟨⟨made, name, after⟩, hcreated, h⟩ := exists_of_bind_eq_ok (eq_ok_of_onPath h)
  cases h
  obtain ⟨place, -, hcreated⟩ := exists_of_bind_eq_ok hcreated
  exact filledAt_of_createIn hcreated

/-- A new file that was put in place of an entry stands there, and nothing else has changed. -/
theorem differsAt_of_moveTo {slash : Bool} (hcreated : FilledAt source tree created)
    (hsource : created.node? source = some (.file content plainMode))
    (h : created.moveTo source (.entry directory name slash) = .ok moved) :
    slash = false ∧ DiffersAt (directory ++ [name]) tree moved ∧
      moved.node? (directory ++ [name]) = some (.file content plainMode) := by
  have hne := append_singleton_ne_nil directory name
  rw [moveTo] at h
  split at h
  · cases h
  rename_i hslash
  refine ⟨Bool.not_eq_true _ ▸ hslash, ?_⟩
  split at h
  · -- The new file was created in the very place it is meant for.
    rename_i hsame
    cases h
    subst hsame
    exact ⟨⟨hcreated.workDir, hcreated.other⟩, hsource⟩
  · rename_i hother
    rw [hsource] at h
    split at h
    · cases h
    · rename_i heq _
      cases heq
      cases h
      have hself : ((created.insert (directory ++ [name]) (.file content plainMode)).erase
          source).node? (directory ++ [name]) = some (.file content plainMode) := by
        rw [node?_erase_of_ne hother, node?_insert_self hne]
      refine ⟨⟨hcreated.workDir, fun l hl => ?_⟩, hself⟩
      by_cases hgone : l = source
      · rw [hgone, node?_erase_self hcreated.ne_nil, hcreated.vacant]
      · rw [node?_erase_of_ne hgone, node?_insert_of_ne hl, hcreated.other l hgone]
    · rename_i heq _
      cases heq

/-- **A new file that was moved** stands at the entry that the path named before it was created. -/
theorem exists_of_move (hcreated : FilledAt source tree created)
    (hsource : created.node? source = some (.file content plainMode))
    (h : created.move source temporary path = .ok moved) :
    ∃ directory name, tree.locate .replace path = .ok (.entry directory name false) ∧
      DiffersAt (directory ++ [name]) tree moved ∧
      moved.node? (directory ++ [name]) = some (.file content plainMode) := by
  unfold move at h
  split at h
  · cases h
  obtain ⟨place, hplace, h⟩ := exists_of_bind_eq_ok (eq_ok_of_mapError_eq_ok h)
  cases place with
  | directory location => cases h
  | entry directory name slash =>
    obtain ⟨rfl, hmoved⟩ := differsAt_of_moveTo hcreated hsource h
    -- The path was walked beside the new file, which is in the way of no walk.
    exact ⟨directory, name, locate_of_alike hcreated.alike.symm hplace, hmoved⟩

/-- **An entry that was removed** is gone, and nothing else has changed. -/
theorem exists_of_remove (h : tree.remove path = .ok rest) :
    ∃ directory name, tree.locate .replace path = .ok (.entry directory name false) ∧
      DiffersAt (directory ++ [name]) tree rest ∧ rest.node? (directory ++ [name]) = none := by
  obtain ⟨place, hplace, h⟩ := exists_of_bind_eq_ok (eq_ok_of_onPath h)
  cases place with
  | directory location => cases h
  | entry directory name slash =>
    rw [removeAt] at h
    split at h
    · cases h
    · cases h
    · split at h
      · cases h
      rename_i hslash
      cases h
      obtain rfl := Bool.not_eq_true _ ▸ hslash
      exact ⟨directory, name, hplace, ⟨rfl, fun l hl => node?_erase_of_ne hl⟩,
        node?_erase_self (append_singleton_ne_nil directory name)⟩

/-- **A file that was written** stands at the entry that its path led to. -/
theorem exists_of_write (h : tree.write path content = .ok written) :
    ∃ directory name slash mode, tree.locate .write path = .ok (.entry directory name slash) ∧
      DiffersAt (directory ++ [name]) tree written ∧ tree.fixture? (directory ++ [name]) = none ∧
      written.node? (directory ++ [name]) = some (.file content mode) := by
  obtain ⟨place, hplace, h⟩ := exists_of_bind_eq_ok (eq_ok_of_onPath h)
  cases place with
  | directory location => cases h
  | entry directory name slash =>
    have hne := append_singleton_ne_nil directory name
    rw [writeAt] at h
    split at h
    · rename_i old mode hnode
      cases h
      exact ⟨directory, name, slash, mode, hplace, ⟨rfl, fun l hl => node?_insert_of_ne hl⟩,
        fixture?_of_file hnode, node?_insert_self hne⟩
    · rename_i hnode
      cases h
      exact ⟨directory, name, slash, plainMode, hplace, ⟨rfl, fun l hl => node?_insert_of_ne hl⟩,
        fixture?_of_none hnode, node?_insert_self hne⟩
    · cases h

end Operations

end NodeLedger.FileTree
