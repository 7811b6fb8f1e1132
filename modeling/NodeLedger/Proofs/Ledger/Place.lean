import NodeLedger.Proofs.Ledger.Kept
import NodeLedger.Proofs.Ledger.Refinement

/-!
# The ledger file in its place

Other files come and go beside the ledger file while it is in use. What keeps it in order is local:
the file holds the bytes of the two sets, and its path would lead to a free place if the file were
not there. Neither depends on any other file.

- `InPlace`: the ledger file of a path is at an entry of a directory, and holds two sets as the
  updates leave them.
- `SameBut`: two trees that differ at one location only, and there in files only.
- `InPlace.elsewhere`: **files that come and go elsewhere leave the ledger in its place**.
- `inPlace_listing`: the file of a ledger in ascending order is in its place.
- `InPlace.append`, `InPlace.remove`: an update ends as the sets say, leaves the ledger in its place,
  and changes nothing else.
-/

namespace NodeLedger

open FileTree Ledger

/-! ## A place that other files do not change -/

namespace FileTree

/-- The trees differ at the location only, and there in files only. -/
structure SameBut (location : Location) (tree later : FileTree) : Prop where
  alike : Alike tree later
  other : ∀ l, l ≠ location → later.node? l = tree.node? l

section Place

variable {tree later : FileTree} {path name : CodeText} {directory location : Location}

/-- A place stays free while files come and go elsewhere. -/
theorem Vacancy.of_alike (hvacancy : Vacancy tree path directory name) (h : Alike tree later)
    (hvacant : later.node? (directory ++ [name]) = none) : Vacancy later path directory name where
  noFault := hvacancy.noFault
  place := locate_of_alike h hvacancy.place
  vacant := hvacant
  beside := by
    obtain ⟨above, first, slash, hfault, hplace⟩ := hvacancy.exists_candidate
    obtain ⟨free, hfree⟩ := exists_freeName? later above
    exact ⟨_, createBeside_of_createIn (by rw [h.workDir]) rfl hfault (locate_of_alike h hplace)
      (createIn_of_freeName? hfree)⟩

end Place

end FileTree

/-- The ledger file of the path is at the entry of the directory, and holds the state as the updates
leave it: no entry is empty, and none splits a character into halves. -/
structure InPlace (path : CodeText) (directory : Location) (name : CodeText) (tree : FileTree)
    (state : Tracked) : Prop where
  vacancy : (tree.erase (directory ++ [name])).Vacancy path directory name
  node : tree.node? (directory ++ [name]) = state.node?
  instances : ∀ e ∈ state.instances, e.Unsplit ∧ e ≠ ""
  groups : ∀ e ∈ state.groups, e.Unsplit ∧ e ≠ ""

namespace InPlace

section Place

variable {tree later : FileTree} {path name : CodeText} {directory : Location}
  {state after : Tracked} {I G : Finset CodeText}

/-- Without a file, the ledger of nothing is in its place. -/
theorem absent (hvacancy : tree.Vacancy path directory name) :
    InPlace path directory name tree .absent where
  vacancy := hvacancy.of_alike (FilledAt.refl hvacancy.vacant).erase.alike
    (node?_erase_self (FilledAt.refl hvacancy.vacant).ne_nil)
  node := hvacancy.vacant
  instances e he := absurd he (Finset.notMem_empty e)
  groups e he := absurd he (Finset.notMem_empty e)

theorem filled (h : InPlace path directory name tree state) :
    FilledAt (directory ++ [name]) (tree.erase (directory ++ [name])) tree where
  workDir := rfl
  vacant := h.vacancy.vacant
  file node hnode := by
    rw [h.node, Tracked.node?] at hnode
    obtain ⟨ledger, -, rfl⟩ := Option.map_eq_some_iff.1 hnode
    exact ⟨_, _, rfl⟩
  other l hl := (node?_erase_of_ne hl).symm

theorem holds (h : InPlace path directory name tree state) :
    Tracked.Holds (directory ++ [name]) (tree.erase (directory ++ [name])) tree state where
  filled := h.filled
  node := h.node
  instances e he := (h.instances e he).1
  groups e he := (h.groups e he).1

theorem load_present [Json.Nesting] (h : InPlace path directory name tree (.present I G)) :
    load tree path = .ok (ofSets I G) :=
  h.holds.load_present h.vacancy

theorem load_absent [Json.Nesting] (h : InPlace path directory name tree .absent) :
    load tree path = .error (.ledger (.noFile path)) :=
  h.holds.load_absent h.vacancy

theorem present_eq (h : InPlace path directory name tree state) :
    tree.present path = state.ledger?.isSome :=
  h.holds.present_eq h.vacancy

/-- **Files that come and go elsewhere leave the ledger in its place.** -/
theorem elsewhere (h : InPlace path directory name tree state) (halike : Alike tree later)
    (hnode : later.node? (directory ++ [name]) = tree.node? (directory ++ [name])) :
    InPlace path directory name later state where
  vacancy := by
    have hfile : later.fixture? (directory ++ [name]) = none :=
      (halike.fixture _).trans h.filled.fixture?_eq_none
    have hgone : (later.erase (directory ++ [name])).node? (directory ++ [name]) = none :=
      node?_erase_self h.filled.ne_nil
    have herase : Alike later (later.erase (directory ++ [name])) :=
      alike_of_other rfl hfile (fixture?_of_none hgone) fun l hl => node?_erase_of_ne hl
    exact h.vacancy.of_alike ((h.filled.alike.trans halike).trans herase) hgone
  node := hnode.trans h.node
  instances := h.instances
  groups := h.groups

theorem of_holds (h : InPlace path directory name tree state)
    (hholds : Tracked.Holds (directory ++ [name]) (tree.erase (directory ++ [name])) later after)
    (hinstances : ∀ e ∈ after.instances, e ≠ "") (hgroups : ∀ e ∈ after.groups, e ≠ "") :
    InPlace path directory name later after ∧ SameBut (directory ++ [name]) tree later := by
  have halike : Alike tree later := h.filled.alike.symm.trans hholds.filled.alike
  constructor
  · exact
      { vacancy := h.vacancy.of_alike hholds.filled.erase.alike
          (node?_erase_self h.filled.ne_nil)
        node := hholds.node
        instances := fun e he => ⟨hholds.instances e he, hinstances e he⟩
        groups := fun e he => ⟨hholds.groups e he, hgroups e he⟩ }
  · refine ⟨halike, fun l hl => ?_⟩
    rw [hholds.filled.other l hl, h.filled.other l hl]

/-- The file of what remains lists it, and is missing if nothing does. -/
theorem load_of_remaining [Json.Nesting] (h : InPlace path directory name tree (.remaining I G)) :
    if I = ∅ ∧ G = ∅ then tree.node? (directory ++ [name]) = none
    else load tree path = .ok (ofSets I G) := by
  rw [Tracked.remaining] at h
  split
  · rename_i hnone
    rw [if_pos hnone] at h
    exact h.node
  · rename_i hsome
    rw [if_neg hsome] at h
    exact h.load_present

/-- What the file lists. -/
theorem groupsIn_eq [Json.Nesting] (h : InPlace path directory name tree state) :
    groupsIn tree path = ascending state.groups := by
  cases state with
  | absent => rw [groupsIn, h.load_absent, Tracked.groups, ascending, Finset.sort_empty]
  | present I G => rw [groupsIn, h.load_present]; rfl

@[inherit_doc groupsIn_eq]
theorem instancesIn_eq [Json.Nesting] (h : InPlace path directory name tree state) :
    instancesIn tree path = ascending state.instances := by
  cases state with
  | absent => rw [instancesIn, h.load_absent, Tracked.instances, ascending, Finset.sort_empty]
  | present I G => rw [instancesIn, h.load_present]; rfl

end Place

/-! ## Updates -/

section Update

variable {σ : Type} {host : Host σ} {path name : CodeText} {directory : Location} {state : Tracked}
  {instances groups : List CodeText} {I G : Finset CodeText}

theorem ne_of_mem_entrySet {entries : List CodeText} {e : CodeText} (h : e ∈ entrySet entries) :
    e ≠ "" := by
  simpa using List.of_mem_filter (mem_entrySet.1 h)

/-- **Entries are remembered as the sets say**, and no other file changes. -/
theorem append [Json.Nesting] (h : InPlace path directory name host.files state)
    (hunsplit : Ledger.Unsplit ⟨instances, groups⟩) :
    let result := (Ledger.append instances groups path).runOn host
    Tracked.EndsAs result.1 (state.step (.append instances groups)).1 ∧
      InPlace path directory name result.2.files (state.step (.append instances groups)).2 ∧
      SameBut (directory ++ [name]) host.files result.2.files := by
  obtain ⟨hends, hholds⟩ := Tracked.step_append_of_holds h.vacancy h.holds hunsplit
  refine ⟨hends, h.of_holds hholds ?_ ?_⟩
  · intro e he
    rw [Tracked.step] at he
    split at he
    · rcases Finset.mem_union.1 he with he | he
      · exact (h.instances e he).2
      · exact ne_of_mem_entrySet he
    · exact (h.instances e he).2
  · intro e he
    rw [Tracked.step] at he
    split at he
    · rcases Finset.mem_union.1 he with he | he
      · exact (h.groups e he).2
      · exact ne_of_mem_entrySet he
    · exact (h.groups e he).2

/-- An update that remembers entries ends as the sets say, even if an entry splits a character. -/
theorem endsAs_append [Json.Nesting] (h : InPlace path directory name host.files state)
    (instances groups : List CodeText) :
    Tracked.EndsAs ((Ledger.append instances groups path).runOn host).1
      (state.step (.append instances groups)).1 := by
  have hload := h.holds.loadOrEmpty h.vacancy
  rw [Tracked.step]
  by_cases hjoins : Joins state.instances instances ∧ Joins state.groups groups
  · obtain ⟨saved, hsave, -⟩ := Ledger.exists_save h.vacancy h.filled
      (ofSets (state.instances ∪ entrySet instances) (state.groups ∪ entrySet groups))
    obtain ⟨log, hrun⟩ := exists_runOn_append hload (add_ofSets hjoins.1 hjoins.2) hsave
    rw [hrun, if_pos hjoins]
    trivial
  · obtain ⟨e, hadd⟩ := add_ofSets_of_not hjoins
    rw [runOn_append_of_error hload hadd, if_neg hjoins]
    rfl

/-- How an update ends that remembers entries: they are there, or some of them were there before and
nothing has changed. -/
theorem cases_of_runOn_append [Json.Nesting] (h : InPlace path directory name host.files state)
    (hunsplit : Ledger.Unsplit ⟨instances, groups⟩) :
    ∃ outcome after, (Ledger.append instances groups path).runOn host = (outcome, after) ∧
      SameBut (directory ++ [name]) host.files after.files ∧
      ((Joins state.instances instances ∧ Joins state.groups groups ∧ outcome = .ok () ∧
          InPlace path directory name after.files (.present (state.instances ∪ entrySet instances)
            (state.groups ∪ entrySet groups))) ∨
        ¬ (Joins state.instances instances ∧ Joins state.groups groups) ∧
          (∃ fault, outcome = .error fault ∧ fault.isOf .ledger = true ∧
            fault.isOf .duplicate = true) ∧
          InPlace path directory name after.files state) := by
  obtain ⟨hends, hplace, hsame⟩ := h.append hunsplit
  refine ⟨_, _, rfl, hsame, ?_⟩
  rw [Tracked.step] at hends hplace
  by_cases hjoins : Joins state.instances instances ∧ Joins state.groups groups
  · rw [if_pos hjoins] at hends hplace
    exact .inl ⟨hjoins.1, hjoins.2, Tracked.eq_ok_of_endsAs hends, hplace⟩
  · rw [if_neg hjoins] at hends hplace
    obtain ⟨fault, hfault, hclass⟩ := Tracked.exists_of_endsAs hends
    refine .inr ⟨hjoins, ⟨fault, hfault, ?_, ?_⟩, hplace⟩
    · rw [Fault.isOf, hclass]
      rfl
    · rw [Fault.isOf, hclass]
      rfl

/-- **Entries of the ledger are forgotten**, and no other file changes. -/
theorem remove [Json.Nesting] (h : InPlace path directory name host.files (.present I G))
    (hinstances : instances.Nodup) (hI : ∀ e ∈ instances, e ∈ I) (hgroups : groups.Nodup)
    (hG : ∀ e ∈ groups, e ∈ G) :
    let result := (Ledger.remove instances groups path).runOn host
    result.1 = .ok () ∧
      InPlace path directory name result.2.files
        (.remaining (I \ instances.toFinset) (G \ groups.toFinset)) ∧
      SameBut (directory ++ [name]) host.files result.2.files := by
  have hneI : ∀ e ∈ instances, e ≠ "" := fun e he => (h.instances e (hI e he)).2
  have hneG : ∀ e ∈ groups, e ≠ "" := fun e he => (h.groups e (hG e he)).2
  have hstep : Tracked.step (.present I G) (.remove instances groups)
      = (none, .remaining (I \ instances.toFinset) (G \ groups.toFinset)) := by
    rw [Tracked.step, entrySet_of_forall_ne hneI, entrySet_of_forall_ne hneG, if_pos]
    constructor
    · rw [Leaves, filled_of_forall_ne hneI, entrySet_of_forall_ne hneI]
      exact ⟨hinstances, fun e he => hI e (List.mem_toFinset.1 he)⟩
    · rw [Leaves, filled_of_forall_ne hneG, entrySet_of_forall_ne hneG]
      exact ⟨hgroups, fun e he => hG e (List.mem_toFinset.1 he)⟩
  have hremoved : Tracked.EndsAs ((Ledger.remove instances groups path).runOn host).1
        (Tracked.step (.present I G) (.remove instances groups)).1 ∧
      Tracked.Holds (directory ++ [name]) (host.files.erase (directory ++ [name]))
        ((Ledger.remove instances groups path).runOn host).2.files
        (Tracked.step (.present I G) (.remove instances groups)).2 :=
    Tracked.step_remove_of_holds h.vacancy h.holds
  rw [hstep] at hremoved
  obtain ⟨hends, hholds⟩ := hremoved
  refine ⟨Tracked.eq_ok_of_endsAs hends, h.of_holds hholds ?_ ?_⟩
  · intro e he
    rw [Tracked.instances_remaining] at he
    exact (h.instances e (Finset.mem_sdiff.1 he).1).2
  · intro e he
    rw [Tracked.groups_remaining] at he
    exact (h.groups e (Finset.mem_sdiff.1 he).1).2

end Update

end InPlace

/-! ## A file that lists entries -/

section Listing

variable {tree : FileTree} {path name : CodeText} {directory : Location}
  {instances groups : List CodeText}

/-- The tree with the file of a ledger. -/
def listing (tree : FileTree) (location : Location) (instances groups : List CodeText) : FileTree :=
  tree.insert location (.file (Text.encode (Ledger.text ⟨instances, groups⟩).toList) plainMode)

theorem inPlace_listing (hvacancy : tree.Vacancy path directory name)
    (hinstances : instances.Pairwise (· < ·)) (hgroups : groups.Pairwise (· < ·))
    (hI : ∀ e ∈ instances, e.Unsplit ∧ e ≠ "") (hG : ∀ e ∈ groups, e.Unsplit ∧ e ≠ "") :
    InPlace path directory name (listing tree (directory ++ [name]) instances groups)
      (.present instances.toFinset groups.toFinset) := by
  have hlocation : directory ++ [name] ≠ [] :=
    List.append_ne_nil_of_right_ne_nil _ (List.cons_ne_nil _ _)
  have hgone : ((listing tree (directory ++ [name]) instances groups).erase
      (directory ++ [name])).node? (directory ++ [name]) = none := node?_erase_self hlocation
  constructor
  case vacancy =>
    refine hvacancy.of_alike (alike_of_other rfl (fixture?_of_none hvacancy.vacant)
      (fixture?_of_none hgone) fun l hl => ?_) hgone
    rw [node?_erase_of_ne hl, listing, node?_insert_of_ne hl]
  case node =>
    rw [listing, node?_insert_self hlocation, Tracked.node?, Tracked.ledger?, ofSets,
      ascending_toFinset hinstances, ascending_toFinset hgroups]
    rfl
  case instances => exact fun e he => hI e (List.mem_toFinset.1 he)
  case groups => exact fun e he => hG e (List.mem_toFinset.1 he)

end Listing

end NodeLedger
