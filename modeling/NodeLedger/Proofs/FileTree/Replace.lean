import Mathlib.Data.List.Nodup
import Mathlib.Data.List.Perm.Subperm
import NodeLedger.Proofs.FileTree.OneEntry
import NodeLedger.Proofs.Text.Numeral

/-!
# Creating, moving and removing a file

A file is replaced by creating another one beside it and moving that one over it. Creating never
fails for want of a name: there is one candidate more than there are entries, and no two candidates
are the same.

- `exists_freeName?`: **a directory has a free name**.
- `Vacancy`: a path where a file may be put. Nothing stands there, and a new file can be created
  beside it.
- `Vacancy.exists_createBeside`, `Vacancy.exists_move`: what creating a file beside the path does,
  and what moving it over the entry does, at every later time.
- `Vacancy.present`, `Vacancy.read_of_file`, `Vacancy.remove`: the file under its path.
  `exists_place_of_read`: what is known of any path that was read.
-/

namespace NodeLedger.FileTree

open Text

/-! ## Free names -/

theorem decimalNumber_replicate_append (k : Nat) (cs : List Char) :
    decimalNumber (List.replicate k '0' ++ cs) = decimalNumber cs := by
  induction k with
  | zero => rfl
  | succ k ih =>
    rw [List.replicate_succ, List.cons_append, ← ih]
    rfl

theorem temporaryName_injective {m n : Nat} (h : temporaryName m = temporaryName n) : m = n := by
  have hdigits : (Nat.toDigits 10 m).leftpad 8 '0' = (Nat.toDigits 10 n).leftpad 8 '0' := by
    have hchars := congrArg String.toList (CodeText.ofString_inj.1 h)
    simp only [String.toList_append, String.toList_ofList] at hchars
    exact List.append_cancel_left (List.append_cancel_right hchars)
  have hnumber := congrArg decimalNumber hdigits
  rw [List.leftpad, List.leftpad, decimalNumber_replicate_append, decimalNumber_replicate_append] at hnumber
  exact (decimalNumber_decimal m).symm.trans (hnumber.trans (decimalNumber_decimal n))

/-- **A directory has a free name.** -/
theorem exists_freeName? (tree : FileTree) (directory : Location) :
    ∃ name, tree.freeName? directory = some name := by
  cases hname : tree.freeName? directory with
  | some name => exact ⟨name, rfl⟩
  | none =>
    -- Then every candidate names an entry, and there are more candidates than entries.
    have htaken : ∀ i ∈ List.range (tree.nodes.length + 1),
        directory ++ [temporaryName i] ∈ tree.nodes.map (·.1) := by
      intro i hi
      have hnone := List.find?_eq_none.1 hname _ (List.mem_map_of_mem hi)
      rw [List.all_eq_true] at hnone
      by_contra hfree
      refine hnone fun entry hentry => bne_iff_ne.2 fun heq => hfree ?_
      exact List.mem_map.2 ⟨entry, hentry, heq⟩
    have hinjective : Function.Injective fun i => directory ++ [temporaryName i] := by
      intro i j heq
      exact temporaryName_injective (List.singleton_inj.1 (List.append_cancel_left heq))
    have hnodup : ((List.range (tree.nodes.length + 1)).map (directory ++ [temporaryName ·])).Nodup :=
      List.nodup_range.map hinjective
    have hsubset : (List.range (tree.nodes.length + 1)).map (directory ++ [temporaryName ·])
        ⊆ tree.nodes.map (·.1) := by
      intro location hlocation
      obtain ⟨i, hi, rfl⟩ := List.mem_map.1 hlocation
      exact htaken i hi
    have hlength := (List.subperm_of_subset hnodup hsubset).length_le
    rw [List.length_map, List.length_map, List.length_range] at hlength
    omega

/-! ## A place for a file -/

/-- A path where a file may be put: it leads to an entry of a directory and ends in no slash,
nothing stands there, and a new file can be created beside it. -/
structure Vacancy (tree : FileTree) (path : CodeText) (directory : Location) (name : CodeText) :
    Prop where
  noFault : Path.fault? path = none
  place : tree.locate .replace path = .ok (.entry directory name false)
  vacant : tree.node? (directory ++ [name]) = none
  beside : ∃ made, tree.createBeside path [] = .ok made

section Vacancy

variable {tree later : FileTree} {path name : CodeText} {directory : Location}

theorem vacancy_iff : Vacancy tree path directory name ↔
    Path.fault? path = none ∧ tree.locate .replace path = .ok (.entry directory name false) ∧
      tree.node? (directory ++ [name]) = none ∧ (tree.createBeside path []).isOk = true := by
  constructor
  · rintro ⟨hfault, hplace, hvacant, made, hmade⟩
    exact ⟨hfault, hplace, hvacant, by rw [hmade]; rfl⟩
  · rintro ⟨hfault, hplace, hvacant, hbeside⟩
    refine ⟨hfault, hplace, hvacant, ?_⟩
    cases hmade : tree.createBeside path [] with
    | error fault =>
      rw [hmade] at hbeside
      cases hbeside
    | ok made => exact ⟨made, rfl⟩

instance (tree : FileTree) (path : CodeText) (directory : Location) (name : CodeText) :
    Decidable (Vacancy tree path directory name) :=
  decidable_of_iff _ vacancy_iff.symm

theorem FilledAt.refl {location : Location} (h : tree.node? location = none) :
    FilledAt location tree tree where
  workDir := rfl
  vacant := h
  file node hnode := by
    rw [h] at hnode
    cases hnode
  other _ _ := rfl

/-- Nothing but a file ever stands at the place. -/
theorem FilledAt.noLinkAt {slash : Bool} (h : FilledAt (directory ++ [name]) tree later) :
    later.NoLinkAt (.entry directory name slash) := by
  intro target hnode
  obtain ⟨content, mode, heq⟩ := h.file _ hnode
  cases heq

theorem Vacancy.locate_replace (hvacancy : Vacancy tree path directory name)
    (h : FilledAt (directory ++ [name]) tree later) :
    later.locate .replace path = .ok (.entry directory name false) :=
  locate_of_filledAt h hvacancy.place

theorem Vacancy.locate_look (hvacancy : Vacancy tree path directory name)
    (h : FilledAt (directory ++ [name]) tree later) :
    later.locate .look path = .ok (.entry directory name false) :=
  locate_look_of_replace (hvacancy.locate_replace h) h.noLinkAt

/-! ## The file under its path -/

/-- A file that was read has a path that a file can have, and the path leads to it. -/
theorem exists_place_of_read {bytes : List UInt8} (h : tree.read path = .ok bytes) :
    Path.fault? path = none ∧
      ∃ place, tree.locate .look path = .ok place ∧ tree.directoryAt? place = some false := by
  obtain ⟨place, hplace, hcontent⟩ := exists_of_bind_eq_ok (eq_ok_of_onPath h)
  refine ⟨fault?_of_onPath h, place, hplace, ?_⟩
  cases place with
  | directory location => cases hcontent
  | entry directory name slash =>
    rw [contentAt] at hcontent
    split at hcontent
    · rename_i hnode
      split at hcontent
      · cases hcontent
      · rename_i hslash
        rw [directoryAt?, hnode]
        exact if_neg hslash
    · cases hcontent
    · cases hcontent

theorem present_of_read {bytes : List UInt8} (h : tree.read path = .ok bytes) : tree.present path = true := by
  obtain ⟨hfault, place, hplace, hkind⟩ := exists_place_of_read h
  rw [present, kindOf?_of_none hfault, hplace]
  dsimp only
  rw [hkind]
  rfl

theorem Vacancy.present (hvacancy : Vacancy tree path directory name)
    (h : FilledAt (directory ++ [name]) tree later) :
    later.present path = (later.node? (directory ++ [name])).isSome := by
  rw [FileTree.present, kindOf?_of_none hvacancy.noFault, hvacancy.locate_look h]
  dsimp only [directoryAt?]
  cases hnode : later.node? (directory ++ [name]) with
  | none => rfl
  | some node =>
    obtain ⟨content, mode, rfl⟩ := h.file node hnode
    rfl

theorem read_of_locate (hfault : Path.fault? path = none)
    (hplace : tree.locate .look path = .ok (.entry directory name false)) {content : List UInt8}
    {mode : Nat} (hnode : tree.node? (directory ++ [name]) = some (.file content mode)) :
    tree.read path = .ok content := by
  rw [read, onPath_of_none hfault, hplace]
  show ((tree.contentAt (.entry directory name false)).mapError _) = _
  rw [contentAt, hnode]
  rfl

theorem Vacancy.read_of_file (hvacancy : Vacancy tree path directory name)
    (h : FilledAt (directory ++ [name]) tree later) {content : List UInt8} {mode : Nat}
    (hnode : later.node? (directory ++ [name]) = some (.file content mode)) :
    later.read path = .ok content :=
  read_of_locate hvacancy.noFault (hvacancy.locate_look h) hnode

theorem Vacancy.read_of_none (hvacancy : Vacancy tree path directory name)
    (h : FilledAt (directory ++ [name]) tree later)
    (hnode : later.node? (directory ++ [name]) = none) :
    later.read path = .error (.refused .missing path) := by
  rw [read, onPath_of_none hvacancy.noFault, hvacancy.locate_look h]
  show ((later.contentAt (.entry directory name false)).mapError _) = _
  rw [contentAt, hnode]
  rfl

/-- A file that is removed leaves the place as it was. -/
theorem Vacancy.remove (hvacancy : Vacancy tree path directory name)
    (h : FilledAt (directory ++ [name]) tree later) {content : List UInt8} {mode : Nat}
    (hnode : later.node? (directory ++ [name]) = some (.file content mode)) :
    later.remove path = .ok (later.erase (directory ++ [name])) := by
  rw [FileTree.remove, onPath_of_none hvacancy.noFault, hvacancy.locate_replace h]
  show ((later.removeAt (.entry directory name false)).mapError _) = _
  rw [removeAt, hnode]
  rfl

theorem FilledAt.erase {location : Location} (h : FilledAt location tree later) :
    FilledAt location tree (later.erase location) where
  workDir := h.workDir
  vacant := h.vacant
  file node hnode := by
    rw [node?_erase_self h.ne_nil] at hnode
    cases hnode
  other l hl := by rw [node?_erase_of_ne hl, h.other l hl]

/-! ## Replacing it -/

theorem createIn_of_freeName? {content : List UInt8} {free first : CodeText} {slash : Bool}
    (h : tree.freeName? directory = some free) :
    tree.createIn content (.entry directory first slash) =
      .ok (directory ++ [free], free, tree.insert (directory ++ [free]) (.file content plainMode)) := by
  rw [createIn, h]

theorem createBeside_of_createIn {content : List UInt8} {above candidate free : CodeText}
    {location : Location} {place : Place} {written : FileTree}
    (habove : Path.parent (Path.absolute tree.workDir path) = above)
    (hcandidate : Path.join above (temporaryName 0) = candidate)
    (hfault : Path.fault? candidate = none)
    (hplace : tree.locate .replace candidate = .ok place)
    (hcreate : tree.createIn content place = .ok (location, free, written)) :
    tree.createBeside path content = .ok (location, Path.join above free, written) := by
  subst habove hcandidate
  rw [createBeside, onPath_of_none hfault, hplace]
  show Except.mapError _ (tree.createIn content place >>= _) = _
  rw [hcreate]
  rfl

/-- The candidate for the name of a new file beside the path is an entry of a directory. -/
theorem Vacancy.exists_candidate (hvacancy : Vacancy tree path directory name) :
    ∃ above first slash,
      Path.fault? (Path.join (Path.parent (Path.absolute tree.workDir path)) (temporaryName 0)) = none ∧
      tree.locate .replace (Path.join (Path.parent (Path.absolute tree.workDir path))
        (temporaryName 0)) = .ok (.entry above first slash) := by
  obtain ⟨made, hmade⟩ := hvacancy.beside
  have hplain := eq_ok_of_onPath hmade
  cases hplace : tree.locate .replace
      (Path.join (Path.parent (Path.absolute tree.workDir path)) (temporaryName 0)) with
  | error refusal =>
    rw [hplace] at hplain
    cases hplain
  | ok place =>
    rw [hplace] at hplain
    cases place with
    | directory => cases hplain
    | entry above first slash => exact ⟨above, first, slash, fault?_of_onPath hmade, rfl⟩

/-- **What creating a file beside the path does**, at any later time: a new entry appears where there
was none. -/
theorem Vacancy.exists_createBeside (hvacancy : Vacancy tree path directory name)
    (h : FilledAt (directory ++ [name]) tree later) (content : List UInt8) :
    ∃ location temporary,
      later.createBeside path content
          = .ok (location, temporary, later.insert location (.file content plainMode)) ∧
        FilledAt location later (later.insert location (.file content plainMode)) := by
  obtain ⟨above, first, slash, hfault, hplace⟩ := hvacancy.exists_candidate
  -- The free name is another one than it would have been in the tree at the beginning.
  obtain ⟨free, hfree⟩ := exists_freeName? later above
  have hcreate : later.createBeside path content = .ok (above ++ [free],
      Path.join (Path.parent (Path.absolute tree.workDir path)) free,
      later.insert (above ++ [free]) (.file content plainMode)) :=
    createBeside_of_createIn (by rw [h.workDir]) rfl hfault (locate_of_filledAt h hplace)
      (createIn_of_freeName? hfree)
  exact ⟨_, _, hcreate, (filledAt_of_createBeside hcreate).1⟩

/-- A new file is put in place of a file or of nothing. -/
theorem FilledAt.exists_moveTo (h : FilledAt (directory ++ [name]) tree later)
    {created : FileTree} {source : Location} {content : List UInt8}
    (hcreated : FilledAt source later created)
    (hsource : created.node? source = some (.file content plainMode)) :
    ∃ moved, created.moveTo source (.entry directory name false) = .ok moved := by
  rw [moveTo, if_neg Bool.false_ne_true]
  split
  · exact ⟨created, rfl⟩
  rename_i hother
  rw [hsource, hcreated.other _ hother]
  cases hold : later.node? (directory ++ [name]) with
  | none => exact ⟨_, rfl⟩
  | some node =>
    obtain ⟨old, mode, rfl⟩ := h.file node hold
    exact ⟨_, rfl⟩

/-- **What moving a new file over the entry does**: the entry holds the new content, and nothing
else has changed. -/
theorem Vacancy.exists_move (hvacancy : Vacancy tree path directory name)
    (h : FilledAt (directory ++ [name]) tree later) {created : FileTree} {source : Location}
    {content : List UInt8} (hcreated : FilledAt source later created)
    (hsource : created.node? source = some (.file content plainMode)) (temporary : CodeText) :
    ∃ moved, created.move source temporary path = .ok moved ∧
      FilledAt (directory ++ [name]) tree moved ∧
      moved.node? (directory ++ [name]) = some (.file content plainMode) := by
  obtain ⟨moved, hmove⟩ := h.exists_moveTo hcreated hsource
  obtain ⟨-, hdiffers, hnode⟩ := differsAt_of_moveTo hcreated hsource hmove
  refine ⟨moved, ?_, h.of_differsAt hdiffers hnode, hnode⟩
  rw [move_of_none hvacancy.noFault, locate_of_filledAt hcreated (hvacancy.locate_replace h)]
  show Except.mapError _ (moveTo _ source (.entry directory name false)) = _
  rw [hmove]
  rfl

end Vacancy

end NodeLedger.FileTree
