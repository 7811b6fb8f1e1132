import NodeLedger.Proofs.FileTree.Naming
import NodeLedger.Proofs.FileTree.Replace

/-!
# Files beside a file

A file is put beside another one by a path of its own: the directory part of the other path, and a
name. The two walks are the same until the last name, through whatever links the directory part
leads; so they end at two entries of one directory.

- `Path.IsName`: what a file can be called.
- `Path.directoryOf`: the directory of a path. `exists_names_beside` compares the names of a path
  with those of a path beside it.
- `Path.fault?_beside_iff`: a file can have the path beside a path of its own if it can have the name.
- `cases_of_walk`: a walk comes to the same directory whatever name is at its end.
- `locate_beside`: **a path beside another one leads to the entry of its name** in the same directory,
  unless it is too long.
-/

namespace NodeLedger

open Text

namespace Path

/-- A name that an entry of a directory can have. -/
def IsName (name : CodeText) : Prop :=
  name ≠ "" ∧ name ≠ "." ∧ name ≠ ".." ∧ .char '/' ∉ name.points ∧ fault? name = none

instance (name : CodeText) : Decidable (IsName name) :=
  inferInstanceAs (Decidable (_ ∧ _))

/-- The directory of a path, as a path itself. -/
def directoryOf (path : CodeText) : CodeText :=
  if parent path = "" then "." else parent path

/-! ## The names of a path -/

section Names

variable {path name above : CodeText}

theorem points_append_slash (above name : CodeText) :
    (above ++ "/" ++ name).points = above.points ++ .char '/' :: name.points := by
  simp

theorem points_ne_nil (h : name ≠ "") : name.points ≠ [] :=
  fun hnil => h (CodeText.ext hnil)

theorem names_append_slash (above name : CodeText) :
    names (above ++ "/" ++ name) = names above ++ names name := by
  rw [names, points_append_slash, fields_append_sep, List.filter_append, List.map_append]
  rfl

theorem names_of_notMem (hne : name ≠ "") (hslash : .char '/' ∉ name.points) : names name = [name] := by
  rw [names, fields_of_notMem hslash, List.filter_cons_of_pos (by simpa using points_ne_nil hne)]
  rfl

/-- Slashes at its end make no difference to the names of a path. -/
theorem names_rdropWhile (points : List CodePoint) :
    names ⟨points.rdropWhile (· == .char '/')⟩ = names ⟨points⟩ := by
  induction points using List.reverseRecOn with
  | nil => rfl
  | append_singleton points point ih =>
    rw [List.rdropWhile_concat]
    split
    · rename_i hpoint
      obtain rfl := beq_iff_eq.1 hpoint
      have hpath : (⟨points ++ [.char '/']⟩ : CodeText) = ⟨points⟩ ++ "/" ++ "" :=
        CodeText.ext (points_append_slash ⟨points⟩ "").symm
      rw [ih, hpath, names_append_slash]
      exact (List.append_nil _).symm
    · rfl

/-- A path with a slash is cut at its last one. -/
theorem exists_eq_append_slash (h : .char '/' ∈ path.points) :
    ∃ above last : CodeText, path = above ++ "/" ++ last ∧ .char '/' ∉ last.points := by
  obtain ⟨back, front, heq, hback⟩ := List.eq_append_cons_of_mem (List.mem_reverse.2 h)
  refine ⟨⟨front.reverse⟩, ⟨back.reverse⟩, CodeText.ext ?_, by rwa [List.mem_reverse]⟩
  rw [← List.reverse_reverse path.points, heq]
  simp

/-- The directory part of a path is what stands before its last slash, without the slashes at the end
of that, unless there are only slashes. -/
theorem parent_append_slash (above : CodeText) {last : CodeText} (h : .char '/' ∉ last.points) :
    parent (above ++ "/" ++ last) =
      if above.points.rdropWhile (· == .char '/') = [] then above ++ "/"
      else ⟨above.points.rdropWhile (· == .char '/')⟩ := by
  have hfront : (above ++ "/" ++ last).points.reverse.dropWhile (· != .char '/')
      = .char '/' :: above.points.reverse := by
    have hpoints : (above ++ "/" ++ last).points.reverse
        = last.points.reverse ++ .char '/' :: above.points.reverse := by
      simp
    rw [hpoints, List.dropWhile_append_of_pos]
    · rfl
    · intro point hpoint
      rw [List.mem_reverse] at hpoint
      exact bne_iff_ne.2 fun hslash => h (hslash ▸ hpoint)
  have htrimmed : (.char '/' :: above.points.reverse).dropWhile (· == .char '/')
      = (above.points.rdropWhile (· == .char '/')).reverse :=
    (List.reverse_reverse _).symm
  rw [parent, hfront, htrimmed, List.isEmpty_reverse]
  by_cases hempty : above.points.rdropWhile (· == .char '/') = []
  · rw [hempty, if_pos rfl, if_pos List.isEmpty_nil]
    exact CodeText.ext (by simp)
  · rw [if_neg hempty, if_neg (by simpa using hempty), List.reverse_reverse]

theorem isAbsolute_append (h : above ≠ "") (name : CodeText) :
    isAbsolute (above ++ name) = isAbsolute above := by
  rw [isAbsolute, isAbsolute, CodeText.points_append, List.head?_append_of_ne_nil _ (points_ne_nil h)]

theorem endsInSlash_of_isName (h : IsName name) : endsInSlash name = false := by
  rw [endsInSlash, beq_eq_false_iff_ne]
  exact fun hlast => h.2.2.2.1 (List.mem_of_getLast? hlast)

theorem endsInSlash_append (above : CodeText) (h : IsName name) :
    endsInSlash (above ++ name) = false := by
  rw [endsInSlash, CodeText.points_append, List.getLast?_append_of_ne_nil _ (points_ne_nil h.1)]
  exact endsInSlash_of_isName h

theorem append_slash_ne (above : CodeText) : above ++ "/" ≠ "" := by
  intro hempty
  simpa using congrArg CodeText.points hempty

theorem parent_append_slash_ne (above : CodeText) {last : CodeText} (h : .char '/' ∉ last.points) :
    parent (above ++ "/" ++ last) ≠ "" := by
  rw [parent_append_slash above h]
  split
  · exact append_slash_ne above
  · rename_i hne
    exact fun hempty => hne (congrArg CodeText.points hempty)

theorem parent_of_notMem (h : .char '/' ∉ path.points) : parent path = "" := by
  have hfront : path.points.reverse.dropWhile (· != .char '/') = [] := by
    rw [List.dropWhile_eq_nil_iff]
    intro point hpoint
    rw [List.mem_reverse] at hpoint
    exact bne_iff_ne.2 fun hslash => h (hslash ▸ hpoint)
  rw [parent, hfront]
  rfl

theorem isAbsolute_of_notMem (h : .char '/' ∉ path.points) : isAbsolute path = false := by
  rw [isAbsolute, beq_eq_false_iff_ne]
  exact fun hhead => h (List.mem_of_head? hhead)

/-- A path beside another one that has a slash: what stands before its last slash has the same names
and starts in the same place. -/
theorem exists_join_parent (above : CodeText) {last : CodeText} (hlast : .char '/' ∉ last.points)
    (h : IsName name) :
    ∃ front, join (parent (above ++ "/" ++ last)) name = front ++ "/" ++ name ∧
      names front = names above ∧ isAbsolute (front ++ "/") = isAbsolute (above ++ "/") := by
  rw [parent_append_slash above hlast, join, isAbsolute_of_notMem h.2.2.2.1, if_neg Bool.false_ne_true]
  by_cases hempty : above.points.rdropWhile (· == .char '/') = []
  · have hslash : endsInSlash (above ++ "/") = true := by simp [endsInSlash]
    rw [if_pos hempty, hslash, Bool.or_true, if_pos rfl]
    exact ⟨above, rfl, rfl, rfl⟩
  · obtain ⟨rest, hrest⟩ := List.rdropWhile_prefix (· == .char '/') above.points
    have hfront : above = ⟨above.points.rdropWhile (· == .char '/')⟩ ++ ⟨rest⟩ := CodeText.ext hrest.symm
    have hlastPoint := List.rdropWhile_last_not (· == .char '/') above.points hempty
    have hnames := names_rdropWhile above.points
    rw [if_neg hempty]
    generalize above.points.rdropWhile (· == .char '/') = trimmed at *
    have hne : (⟨trimmed⟩ : CodeText) ≠ "" := fun heq => hempty (congrArg CodeText.points heq)
    have hnotSlash : endsInSlash ⟨trimmed⟩ = false := by
      rw [endsInSlash, List.getLast?_eq_some_getLast hempty, beq_eq_false_iff_ne]
      simpa using hlastPoint
    rw [hnotSlash, Bool.or_false, if_neg (by simpa using hne)]
    refine ⟨⟨trimmed⟩, rfl, hnames, ?_⟩
    rw [hfront, CodeText.append_assoc, isAbsolute_append hne, isAbsolute_append hne]

theorem endsInSlash_join (above : CodeText) (h : IsName name) :
    endsInSlash (join above name) = false := by
  unfold join
  split
  · exact endsInSlash_of_isName h
  · split
    · exact endsInSlash_append above h
    · exact endsInSlash_append (above ++ "/") h

/-- The names of a path that ends in no slash are those of its directory part and a last one; a path
beside it has the same, and a name in the place of the last one. -/
theorem exists_names_beside (hne : path ≠ "") (hslash : endsInSlash path = false) :
    ∃ above last, names path = above ++ [last] ∧ ∀ name, IsName name →
      isAbsolute (join (directoryOf path) name) = isAbsolute path ∧
        (names (join (directoryOf path) name) = above ++ [name] ∨
          names (join (directoryOf path) name) = CodeText.ofString "." :: (above ++ [name])) := by
  by_cases hmem : .char '/' ∈ path.points
  · obtain ⟨above, last, rfl, hlast⟩ := exists_eq_append_slash hmem
    have hlastNe : last ≠ "" := by
      rintro rfl
      simp [endsInSlash] at hslash
    refine ⟨names above, last, ?_, fun name hname => ?_⟩
    · rw [names_append_slash, names_of_notMem hlastNe hlast]
    · obtain ⟨front, hjoin, hnames, habsolute⟩ := exists_join_parent above hlast hname
      rw [directoryOf, if_neg (parent_append_slash_ne above hlast), hjoin]
      constructor
      · calc isAbsolute (front ++ "/" ++ name) = isAbsolute (front ++ "/") :=
              isAbsolute_append (append_slash_ne front) name
          _ = isAbsolute (above ++ "/") := habsolute
          _ = isAbsolute (above ++ "/" ++ last) := (isAbsolute_append (append_slash_ne above) last).symm
      · rw [names_append_slash, names_of_notMem hname.1 hname.2.2.2.1, hnames]
        exact .inl rfl
  · refine ⟨[], path, names_of_notMem hne hmem, fun name hname => ?_⟩
    have hjoin : join "." name = "." ++ "/" ++ name := by
      rw [join, isAbsolute_of_notMem hname.2.2.2.1]
      rfl
    rw [directoryOf, if_pos (parent_of_notMem hmem), hjoin]
    constructor
    · rw [isAbsolute_of_notMem hmem, CodeText.append_assoc, isAbsolute_append (by decide)]
      rfl
    · rw [names_append_slash, names_of_notMem hname.1 hname.2.2.2.1]
      exact .inr rfl

/-- A file can have a path beside one that a file can have if it can have its name. -/
theorem fault?_beside_iff (hpath : fault? path = none) (name : CodeText) :
    fault? (join (directoryOf path) name) = none ↔ fault? name = none := by
  refine fault?_join_iff ?_
  rw [directoryOf]
  split
  · decide
  · exact fault?_parent hpath

end Names

end Path

namespace FileTree

/-! ## Walks with the same directory part -/

section Walk

variable {tree : FileTree} {purpose : Purpose} {slash : Bool} {links : Nat} {above : List CodeText}
  {directory : Location} {name : CodeText}

theorem isEmpty_append_singleton (above : List CodeText) (name : CodeText) :
    (above ++ [name]).isEmpty = false := by
  rw [List.isEmpty_eq_false_iff]
  exact List.append_ne_nil_of_right_ne_nil _ (List.cons_ne_nil _ _)

/-- A stretch does the same whatever name is at its end: it is refused, it comes to a directory, or
it comes to a link. -/
theorem cases_of_stretch (tree : FileTree) (directory : Location) (above : List CodeText) :
    (∃ refusal, ∀ purpose name,
        tree.stretch purpose false directory (above ++ [name]) = .error refusal) ∨
      (∃ reached, ∀ purpose name, tree.stretch purpose false directory (above ++ [name])
        = tree.stretch purpose false reached [name]) ∨
      ∃ start target rest, ∀ purpose name, tree.stretch purpose false directory (above ++ [name])
        = .ok (.detour start target (rest ++ [name])) := by
  induction above generalizing directory with
  | nil => exact .inr (.inl ⟨directory, fun _ _ => rfl⟩)
  | cons first above ih =>
    simp only [List.cons_append, stretch, isEmpty_append_singleton, Bool.false_and, Bool.false_eq_true, if_false]
    by_cases hdot : first = "."
    · simp only [if_pos hdot]
      exact ih directory
    simp only [if_neg hdot]
    by_cases hup : first = ".."
    · simp only [if_pos hup]
      exact ih directory.dropLast
    simp only [if_neg hup]
    by_cases hlong : maxNameLength < first.byteLength
    · simp only [if_pos hlong]
      exact .inl ⟨_, fun _ _ => rfl⟩
    simp only [if_neg hlong]
    cases tree.node? (directory ++ [first.known]) with
    | none => exact .inl ⟨_, fun _ _ => rfl⟩
    | some node =>
      cases node with
      | file content mode => exact .inl ⟨_, fun _ _ => rfl⟩
      | directory => exact ih (directory ++ [first.known])
      | link target => exact .inr (.inr ⟨directory, target, above, fun _ _ => rfl⟩)

/-- A walk does the same whatever name is at its end: it is refused, or it comes to a directory with
so many links left. -/
theorem cases_of_walk (tree : FileTree) (links : Nat) (directory : Location) (above : List CodeText) :
    (∃ refusal, ∀ purpose name,
        tree.walk purpose links false directory (above ++ [name]) = .error refusal) ∨
      ∃ left reached, ∀ purpose name, tree.walk purpose links false directory (above ++ [name])
        = tree.walk purpose left false reached [name] := by
  induction links generalizing directory above with
  | zero =>
    rcases tree.cases_of_stretch directory above with
      ⟨refusal, hs⟩ | ⟨reached, hs⟩ | ⟨start, target, rest, hs⟩
    · exact .inl ⟨refusal, fun purpose name => by rw [walk, hs]⟩
    · exact .inr ⟨0, reached, fun purpose name => by rw [walk, hs, walk]⟩
    · exact .inl ⟨.tooManyLinks, fun purpose name => by rw [walk, hs]⟩
  | succ links ih =>
    rcases tree.cases_of_stretch directory above with
      ⟨refusal, hs⟩ | ⟨reached, hs⟩ | ⟨start, target, rest, hs⟩
    · exact .inl ⟨refusal, fun purpose name => by rw [walk, hs]⟩
    · exact .inr ⟨links + 1, reached, fun purpose name => by rw [walk, hs, walk]⟩
    · -- The link is followed with one link less, and the name is still at the end.
      have hslash : ∀ name, detourSlash false target (rest ++ [name]) = false := fun name => by
        rw [detourSlash, isEmpty_append_singleton]
        rfl
      have hwalk : ∀ purpose name, tree.walk purpose (links + 1) false directory (above ++ [name])
          = tree.walk purpose links false (detourStart start target)
            (Path.names target ++ rest ++ [name]) := fun purpose name => by
        rw [walk, hs]
        dsimp only
        rw [hslash, List.append_assoc]
      simp only [hwalk]
      exact ih _ _

/-- The last name of a walk that ends where an entry would be replaced is the name of the entry. -/
theorem eq_of_walk_replace {last : CodeText} {reached : Location}
    (h : tree.walk .replace links false reached [last] = .ok (.entry directory name false)) :
    reached = directory ∧ last.known = name := by
  rcases cases_of_walk_eq_ok h with hs | ⟨left, start, target, rest, -, hs, -⟩
  · cases hs with
    | dot hs => cases hs
    | up hs => cases hs
    | arrives hname hlink => exact ⟨rfl, rfl⟩
    | enters hname hnode hrest hs => exact absurd rfl hrest
  · -- A link at the end would be replaced itself.
    cases hs with
    | dot hs => cases hs
    | up hs => cases hs
    | enters hname hnode hrest hs => exact absurd rfl hrest
    | turns hname hnode hrest => exact absurd rfl (hrest rfl)

/-- A name that is no link is where the walk ends, whatever it is for. -/
theorem walk_singleton (hname : Path.IsName name)
    (hlink : tree.NoLinkAt (.entry directory name.known false)) :
    tree.walk purpose links false directory [name] =
      if maxNameLength < name.byteLength then .error .nameTooLong
      else .ok (.entry directory name.known false) := by
  obtain ⟨-, hdot, hup, -⟩ := hname
  by_cases hlong : maxNameLength < name.byteLength
  · rw [if_pos hlong]
    refine walk_of_refusal ?_
    rw [stretch, if_neg hdot, if_neg hup, if_neg (by simp), if_pos hlong]
  · rw [if_neg hlong]
    exact walk_of_arrival (stretch_of_leads (.arrives ⟨hdot, hup, by simp, hlong⟩ fun _ => hlink))

theorem slash_of_leads {names : List CodeText} {reached : Location} {last : Bool}
    (h : Leads tree purpose slash directory names (.arrival (.entry reached name last))) :
    last = slash := by
  generalize hend : Stretch.arrival (.entry reached name last) = stretch at h
  induction h with
  | ended => cases hend
  | dot _ ih => exact ih hend
  | up _ ih => exact ih hend
  | arrives =>
    cases hend
    rfl
  | enters _ _ _ _ ih => exact ih hend
  | turns => cases hend

/-- A walk that asks for a directory asks for one where it ends. -/
theorem slash_of_walk {names : List CodeText} {reached : Location}
    (h : tree.walk purpose links slash directory names = .ok (.entry reached name false)) :
    slash = false := by
  induction links generalizing slash directory names with
  | zero =>
    rcases cases_of_walk_eq_ok h with hs | ⟨_, _, _, _, hzero, -⟩
    · exact (slash_of_leads hs).symm
    · cases hzero
  | succ links ih =>
    rcases cases_of_walk_eq_ok h with hs | ⟨left, start, target, rest, hleft, -, hrest⟩
    · exact (slash_of_leads hs).symm
    · cases hleft
      have hdetour := ih hrest
      rw [detourSlash, Bool.or_eq_false_iff] at hdetour
      exact hdetour.1

theorem walk_dot {names : List CodeText} :
    tree.walk purpose links slash directory ("." :: names)
      = tree.walk purpose links slash directory names := by
  cases links with
  | zero => rw [walk, walk, stretch, if_pos rfl]
  | succ links => rw [walk, walk, stretch, if_pos rfl]

end Walk

/-! ## A path beside another one -/

/-- A path beside another one, or its name, is longer than a file system takes. -/
def TooLong (path name : CodeText) : Prop :=
  maxPathLength < (Path.join (Path.directoryOf path) name).byteLength ∨
    maxNameLength < name.byteLength

instance (path name : CodeText) : Decidable (TooLong path name) :=
  inferInstanceAs (Decidable (_ ∨ _))

/-- **A path beside another one leads to the entry of its name** in the same directory, whatever the
walk is for, if no link stands there. -/
theorem locate_beside {tree : FileTree} {path name last : CodeText} {directory : Location}
    (hplace : tree.locate .replace path = .ok (.entry directory last false))
    (hname : Path.IsName name) (hlink : tree.NoLinkAt (.entry directory name.known false))
    (purpose : Purpose) :
    tree.locate purpose (Path.join (Path.directoryOf path) name) =
      if TooLong path name then .error .nameTooLong
      else .ok (.entry directory name.known false) := by
  rw [locate] at hplace
  split at hplace
  · cases hplace
  rename_i hne
  split at hplace
  · cases hplace
  have hslash := slash_of_walk hplace
  obtain ⟨above, final, hnames, hbeside⟩ := Path.exists_names_beside hne hslash
  obtain ⟨habsolute, hjoined⟩ := hbeside name hname
  -- The path beside is walked like the path, with another name at the end.
  rw [hslash, hnames] at hplace
  rcases tree.cases_of_walk maxLinks (if Path.isAbsolute path then [] else tree.workDir) above with
    ⟨refusal, hwalk⟩ | ⟨left, reached, hwalk⟩
  · rw [hwalk] at hplace
    cases hplace
  rw [hwalk] at hplace
  obtain ⟨rfl, -⟩ := eq_of_walk_replace hplace
  have hnonempty : Path.join (Path.directoryOf path) name ≠ "" := by
    intro hempty
    rcases hjoined with hjoined | hjoined
    · rw [hempty] at hjoined
      exact absurd hjoined.symm (List.append_ne_nil_of_right_ne_nil _ (List.cons_ne_nil _ _))
    · rw [hempty] at hjoined
      cases hjoined
  have hends : Path.endsInSlash (Path.join (Path.directoryOf path) name) = false :=
    Path.endsInSlash_join _ hname
  rw [locate, if_neg hnonempty]
  by_cases hlong : maxPathLength < (Path.join (Path.directoryOf path) name).byteLength
  · rw [if_pos hlong, if_pos (.inl hlong)]
  · rw [if_neg hlong, hends, habsolute]
    have hall : tree.walk purpose maxLinks false (if Path.isAbsolute path then [] else tree.workDir)
        (Path.names (Path.join (Path.directoryOf path) name)) =
          tree.walk purpose left false reached [name] := by
      rcases hjoined with hjoined | hjoined
      · rw [hjoined, hwalk]
      · rw [hjoined, walk_dot, hwalk]
    rw [hall, walk_singleton hname hlink]
    exact if_congr (or_iff_right hlong).symm rfl rfl

end FileTree

end NodeLedger
