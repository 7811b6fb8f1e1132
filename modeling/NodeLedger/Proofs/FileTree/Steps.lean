import NodeLedger.FileTree.Access

/-!
# The steps of a walk

A walk is made of stretches between the links that it follows, and a stretch is made of steps from name
to name. A stretch that is not refused has one shape of step for each thing that can stand at a name,
so what holds of every walk is proved by one case for each shape.

- `Leads`: the steps of a stretch that is not refused. `leads_of_stretch`, `stretch_of_leads`: **a
  stretch is made of its steps**.
- `cases_of_walk_eq_ok`: a walk ends with its first stretch, or follows a link.
- `walk_of_steps`: **a walk is the same in another tree, or for another purpose**, if its stretches are.
-/

namespace NodeLedger.FileTree

open Text

/-! ## Steps of a stretch -/

/-- No link stands at the place. -/
def NoLinkAt (tree : FileTree) : Place → Prop
  | .directory _ => True
  | .entry directory name _ => ∀ target, tree.node? (directory ++ [name]) ≠ some (.link target)

/-- A name that is neither a dot nor too long, in a walk that may end with it. -/
structure Walkable (purpose : Purpose) (slash : Bool) (name : CodeText) (rest : List CodeText) :
    Prop where
  ne_dot : name ≠ "."
  ne_up : name ≠ ".."
  ends : ¬ (rest.isEmpty && slash && purpose = .write) = true
  short : ¬ maxNameLength < name.byteLength

/-- The steps of a stretch that is not refused: through directories, to an entry or to a link that
has to be followed. -/
inductive Leads (tree : FileTree) (purpose : Purpose) (slash : Bool) :
    Location → List CodeText → Stretch → Prop
  | ended (directory : Location) : Leads tree purpose slash directory []
      (.arrival (.directory directory))
  | dot {directory rest stretch} (h : Leads tree purpose slash directory rest stretch) :
      Leads tree purpose slash directory ("." :: rest) stretch
  | up {directory rest stretch} (h : Leads tree purpose slash directory.dropLast rest stretch) :
      Leads tree purpose slash directory (".." :: rest) stretch
  | arrives {directory name} (hname : Walkable purpose slash name [])
      (hlink : purpose ≠ .replace → tree.NoLinkAt (.entry directory name.known slash)) :
      Leads tree purpose slash directory [name] (.arrival (.entry directory name.known slash))
  | enters {directory name rest stretch} (hname : Walkable purpose slash name rest)
      (hnode : tree.node? (directory ++ [name.known]) = some .directory) (hrest : rest ≠ [])
      (h : Leads tree purpose slash (directory ++ [name.known]) rest stretch) :
      Leads tree purpose slash directory (name :: rest) stretch
  | turns {directory name target rest} (hname : Walkable purpose slash name rest)
      (hnode : tree.node? (directory ++ [name.known]) = some (.link target))
      (hrest : rest = [] → purpose ≠ .replace) :
      Leads tree purpose slash directory (name :: rest) (.detour directory target rest)

/-- A name that can be walked can be looked at, wherever in a path. -/
theorem Walkable.look {purpose : Purpose} {slash : Bool} {name : CodeText} {rest : List CodeText}
    (h : Walkable purpose slash name rest) (slash' : Bool) (rest' : List CodeText) :
    Walkable .look slash' name rest' :=
  ⟨h.ne_dot, h.ne_up, by simp, h.short⟩

section Steps

variable {tree later : FileTree} {purpose : Purpose} {slash : Bool} {directory : Location}
  {name : CodeText} {names rest : List CodeText} {stretch : Stretch} {links : Nat} {place : Place}

theorem stretch_of_walkable (h : Walkable purpose slash name rest) :
    tree.stretch purpose slash directory (name :: rest) =
      match tree.node? (directory ++ [name.known]) with
      | none =>
        if rest.isEmpty then .ok (.arrival (.entry directory name.known slash)) else .error .missing
      | some (.file ..) =>
        if rest.isEmpty then .ok (.arrival (.entry directory name.known slash))
        else .error .notADirectory
      | some .directory =>
        if rest.isEmpty then .ok (.arrival (.entry directory name.known slash))
        else tree.stretch purpose slash (directory ++ [name.known]) rest
      | some (.link target) =>
        if rest.isEmpty && purpose = .replace then .ok (.arrival (.entry directory name.known slash))
        else .ok (.detour directory target rest) := by
  rw [FileTree.stretch, if_neg h.ne_dot, if_neg h.ne_up, if_neg h.ends]
  exact if_neg h.short

/-- What stands at a name decides how a stretch goes on. -/
theorem leads_of_walkable (hname : Walkable purpose slash name rest)
    (hrest : ∀ inner, tree.stretch purpose slash inner rest = .ok stretch →
      Leads tree purpose slash inner rest stretch)
    (h : tree.stretch purpose slash directory (name :: rest) = .ok stretch) :
    Leads tree purpose slash directory (name :: rest) stretch := by
  rw [stretch_of_walkable hname] at h
  have harrives : (∀ target, tree.node? (directory ++ [name.known]) ≠ some (.link target)) →
      rest.isEmpty = true → stretch = .arrival (.entry directory name.known slash) →
      Leads tree purpose slash directory (name :: rest) stretch := by
    intro hlink hend heq
    rw [List.isEmpty_iff] at hend
    subst hend heq
    exact .arrives hname fun _ => hlink
  cases hnode : tree.node? (directory ++ [name.known]) with
  | none =>
    rw [hnode] at h harrives
    dsimp only at h
    split at h
    · rename_i hend
      cases h
      exact harrives (fun _ hlink => by cases hlink) hend rfl
    · cases h
  | some node =>
    rw [hnode] at h harrives
    cases node with
    | file content mode =>
      dsimp only at h
      split at h
      · rename_i hend
        cases h
        exact harrives (fun _ hlink => by cases hlink) hend rfl
      · cases h
    | directory =>
      dsimp only at h
      split at h
      · rename_i hend
        cases h
        exact harrives (fun _ hlink => by cases hlink) hend rfl
      · rename_i hmore
        exact .enters hname hnode (mt List.isEmpty_iff.2 hmore) (hrest _ h)
    | link target =>
      dsimp only at h
      split at h
      · rename_i hreplace
        rw [Bool.and_eq_true, decide_eq_true_iff, List.isEmpty_iff] at hreplace
        obtain ⟨rfl, hreplace⟩ := hreplace
        cases h
        exact .arrives hname fun hother => absurd hreplace hother
      · rename_i hreplace
        rw [Bool.and_eq_true, decide_eq_true_iff, List.isEmpty_iff, not_and] at hreplace
        cases h
        exact .turns hname hnode hreplace

theorem leads_of_stretch (h : tree.stretch purpose slash directory names = .ok stretch) :
    Leads tree purpose slash directory names stretch := by
  induction names generalizing directory with
  | nil =>
    cases h
    exact .ended directory
  | cons name rest ih =>
    have hstretch := h
    rw [FileTree.stretch] at h
    split at h
    · rename_i hdot
      subst hdot
      exact .dot (ih h)
    rename_i hdot
    split at h
    · rename_i hup
      subst hup
      exact .up (ih h)
    rename_i hup
    split at h
    · cases h
    rename_i hends
    split at h
    · cases h
    rename_i hshort
    exact leads_of_walkable ⟨hdot, hup, hends, hshort⟩ (fun _ => ih) hstretch

theorem stretch_of_leads (h : Leads tree purpose slash directory names stretch) :
    tree.stretch purpose slash directory names = .ok stretch := by
  induction h with
  | ended directory => rfl
  | dot _ ih => rw [FileTree.stretch, if_pos rfl, ih]
  | up _ ih => rw [FileTree.stretch, if_neg (by decide), if_pos rfl, ih]
  | @arrives directory name hname hlink =>
    rw [stretch_of_walkable hname]
    cases hnode : tree.node? (directory ++ [name.known]) with
    | none => rfl
    | some node =>
      cases node with
      | file content mode => rfl
      | directory => rfl
      | link target =>
        have hreplace : purpose = .replace :=
          Decidable.of_not_not fun hother => hlink hother target hnode
        rw [hreplace]
        rfl
  | enters hname hnode hrest _ ih =>
    rw [stretch_of_walkable hname, hnode]
    dsimp only
    rw [if_neg (mt List.isEmpty_iff.1 hrest), ih]
  | turns hname hnode hrest =>
    rw [stretch_of_walkable hname, hnode]
    dsimp only
    rw [if_neg]
    rw [Bool.and_eq_true, decide_eq_true_iff, List.isEmpty_iff, not_and]
    exact hrest

/-- A walk that is not refused ends with its first stretch, or follows a link with the links that are
left. -/
theorem cases_of_walk_eq_ok (h : tree.walk purpose links slash directory names = .ok place) :
    Leads tree purpose slash directory names (.arrival place) ∨
      ∃ left start target rest, links = left + 1 ∧
        Leads tree purpose slash directory names (.detour start target rest) ∧
        tree.walk purpose left (detourSlash slash target rest) (detourStart start target)
          (Path.names target ++ rest) = .ok place := by
  cases links with
  | zero =>
    rw [walk] at h
    split at h
    · cases h
    · rename_i hs
      cases h
      exact .inl (leads_of_stretch hs)
    · cases h
  | succ left =>
    rw [walk] at h
    split at h
    · cases h
    · rename_i hs
      cases h
      exact .inl (leads_of_stretch hs)
    · rename_i start target rest hs
      exact .inr ⟨left, start, target, rest, rfl, leads_of_stretch hs, h⟩

theorem walk_of_leads_detour {start : Location} {target : CodeText}
    (h : Leads tree purpose slash directory names (.detour start target rest)) :
    tree.walk purpose (links + 1) slash directory names =
      tree.walk purpose links (detourSlash slash target rest) (detourStart start target)
        (Path.names target ++ rest) := by
  rw [walk, stretch_of_leads h]

theorem walk_of_arrival (h : tree.stretch purpose slash directory names = .ok (.arrival place)) :
    tree.walk purpose links slash directory names = .ok place := by
  cases links with
  | zero => rw [walk, h]
  | succ links => rw [walk, h]

theorem walk_of_refusal {refusal : Refusal}
    (h : tree.stretch purpose slash directory names = .error refusal) :
    tree.walk purpose links slash directory names = .error refusal := by
  cases links with
  | zero => rw [walk, h]
  | succ links => rw [walk, h]

/-- **A walk is the same in another tree, or for another purpose**, if its stretches are: those that
end at a link, and the one that ends where the walk does. -/
theorem walk_of_steps {other : Purpose}
    (hsteps : ∀ slash directory names stretch, Leads tree purpose slash directory names stretch →
      (∀ reached, stretch = .arrival reached → reached = place) →
        Leads later other slash directory names stretch)
    (h : tree.walk purpose links slash directory names = .ok place) :
    later.walk other links slash directory names = .ok place := by
  have harrives : ∀ {links slash directory names},
      Leads tree purpose slash directory names (.arrival place) →
        later.walk other links slash directory names = .ok place := fun hs =>
    walk_of_arrival (stretch_of_leads (hsteps _ _ _ _ hs fun _ heq => (Stretch.arrival.inj heq).symm))
  induction links generalizing slash directory names with
  | zero =>
    rcases cases_of_walk_eq_ok h with hs | ⟨_, _, _, _, hzero, -⟩
    · exact harrives hs
    · cases hzero
  | succ links ih =>
    rcases cases_of_walk_eq_ok h with hs | ⟨left, start, target, rest, hleft, hs, h⟩
    · exact harrives hs
    · cases hleft
      -- A stretch that ends at a link arrives nowhere.
      rw [walk_of_leads_detour (hsteps _ _ _ _ hs fun _ heq => by cases heq)]
      exact ih h

/-- A path that leads somewhere is not empty and not too long, and its names are walked. -/
theorem locate_eq_ok_iff {path : CodeText} :
    tree.locate purpose path = .ok place ↔
      (path ≠ "" ∧ ¬ maxPathLength < path.byteLength) ∧
        tree.walk purpose maxLinks (Path.endsInSlash path)
          (if Path.isAbsolute path then [] else tree.workDir) (Path.names path) = .ok place := by
  unfold locate
  split
  · rename_i hempty
    exact iff_of_false (fun h => by cases h) fun h => h.1.1 hempty
  rename_i hempty
  split
  · rename_i hlong
    exact iff_of_false (fun h => by cases h) fun h => h.1.2 hlong
  · rename_i hlong
    exact (and_iff_right ⟨hempty, hlong⟩).symm

end Steps

end NodeLedger.FileTree
