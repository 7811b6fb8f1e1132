import NodeLedger.Proofs.Json.Halves
import NodeLedger.Proofs.Ledger.Storage
import NodeLedger.Proofs.Ledger.Update

/-!
# A ledger that is kept in its place

Where a file may be put, and any ledger or none is there already, entries that are fresh are
remembered, and entries that are not change nothing. The file may have been written by anyone: its
lists may be in any order, and its texts in any spelling.

- `unsplit_of_load`: **no ledger that was loaded splits a character**.
- `Keeps`: a tree keeps a ledger at a place.
- `exists_runOn_append_of_fresh`, `exists_runOn_append_of_not_fresh`: **what remembering entries
  does** to a ledger that is kept.
- `groupsIn`, `instancesIn`: the groups and the instances that a file lists. `lists_of_loadOrEmpty`:
  those of the ledger that is kept.
-/

namespace NodeLedger.Ledger

open FileTree

section Content

variable {value : Json} {ledger : Ledger}

theorem mem_of_mapM_str? {items : List Json} {entries : List CodeText}
    (h : items.mapM Json.str? = some entries) : ∀ e ∈ entries, .str e ∈ items := by
  induction items generalizing entries with
  | nil =>
    cases h
    exact fun e he => absurd he List.not_mem_nil
  | cons item items ih =>
    rw [List.mapM_cons] at h
    obtain ⟨first, hfirst, h⟩ := Option.bind_eq_some_iff.1 h
    obtain ⟨rest, hrest, h⟩ := Option.bind_eq_some_iff.1 h
    cases h
    have hitem : item = .str first := by
      cases item with
      | str text =>
        cases hfirst
        rfl
      | _ => cases hfirst
    intro e he
    rcases List.mem_cons.1 he with rfl | he
    · exact hitem ▸ List.mem_cons_self
    · exact List.mem_cons_of_mem _ (ih hrest e he)

/-- The entries of a list that was read are unsplit. -/
theorem unsplit_of_entriesOf {members : List (CodeText × Json)} {key : String}
    {entries : List CodeText} (hread : (Json.obj members).IsRead)
    (h : entriesOf members key = .ok entries) : ∀ e ∈ entries, e.Unsplit := by
  unfold entriesOf at h
  split at h
  · -- Sorting adds no entry; an absent list and null have none.
    rename_i listed hlisted
    cases h
    intro e he
    rw [mem_sortEntries] at he
    unfold strings? at hlisted
    split at hlisted
    · cases hlisted
      cases he
    · cases hlisted
      cases he
    · rename_i items hmember
      obtain ⟨member, hfind, hlist⟩ := Option.map_eq_some_iff.1 hmember
      have hitems := hread.of_mem_obj (List.mem_of_find?_eq_some hfind)
      rw [hlist] at hitems
      exact (hitems.of_mem_arr (mem_of_mapM_str? hlisted e he)).unsplit
    · cases hlisted
  · cases h

theorem unsplit_of_ofJson (hread : value.IsRead) (h : ofJson value = .ok ledger) :
    ledger.Unsplit := by
  unfold ofJson at h
  split at h
  · obtain ⟨instances, hinstances, h⟩ := exists_of_bind_eq_ok h
    obtain ⟨groups, hgroups, h⟩ := exists_of_bind_eq_ok h
    cases h
    exact ⟨unsplit_of_entriesOf hread hinstances, unsplit_of_entriesOf hread hgroups⟩
  · cases h

/-- **No ledger that was loaded splits a character.** -/
theorem unsplit_of_load [Json.Nesting] {tree : FileTree} {path : CodeText}
    (h : load tree path = .ok ledger) :
    ledger.Unsplit := by
  unfold load at h
  split at h
  · cases h
  · rename_i value hfile
    have hread : value.IsRead := by
      unfold Json.readFile at hfile
      split at hfile
      · cases hfile
      · exact Json.isRead_of_readBytes hfile
    exact unsplit_of_ofJson hread (eq_ok_of_mapError_eq_ok h)

theorem unsplit_of_loadOrEmpty [Json.Nesting] {tree : FileTree} {path : CodeText}
    (h : loadOrEmpty tree path = .ok ledger) : ledger.Unsplit := by
  unfold loadOrEmpty at h
  split at h
  · exact unsplit_of_load h
  · cases h
    exact ⟨List.forall_mem_nil _, List.forall_mem_nil _⟩

end Content

/-! ## Fresh entries -/

section Fit

variable {ledger : Ledger} {instances groups : List CodeText}

theorem add_of_fresh (hinstances : Fresh ledger.instances instances)
    (hgroups : Fresh ledger.groups groups) :
    ledger.add instances groups = .ok ⟨sortEntries (filled instances ++ ledger.instances),
      sortEntries (filled groups ++ ledger.groups)⟩ := by
  rw [add, addEntries_of_fresh hinstances, addEntries_of_fresh hgroups]
  rfl

theorem add_of_not_fresh
    (h : ¬ (Fresh ledger.instances instances ∧ Fresh ledger.groups groups)) :
    ∃ e, ledger.add instances groups = .error (.present e) := by
  rw [add]
  by_cases hinstances : Fresh ledger.instances instances
  · obtain ⟨e, hgroups⟩ := addEntries_of_not_fresh fun hgroups => h ⟨hinstances, hgroups⟩
    rw [addEntries_of_fresh hinstances, hgroups]
    exact ⟨e, rfl⟩
  · obtain ⟨e, hinstances⟩ := addEntries_of_not_fresh hinstances
    rw [hinstances]
    exact ⟨e, rfl⟩

theorem subtract_of_held (hinstances : Held ledger.instances instances)
    (hgroups : Held ledger.groups groups) :
    ledger.subtract instances groups = .ok ⟨sortEntries (ledger.instances.diff (filled instances)),
      sortEntries (ledger.groups.diff (filled groups))⟩ := by
  rw [subtract, removeEntries_of_held hinstances, removeEntries_of_held hgroups]
  rfl

/-- What is added splits no character, and neither does what it is added to. -/
theorem unsplit_of_added (h : ledger.Unsplit) (hnew : Ledger.Unsplit ⟨instances, groups⟩) :
    Ledger.Unsplit ⟨sortEntries (filled instances ++ ledger.instances),
      sortEntries (filled groups ++ ledger.groups)⟩ := by
  have hentries : ∀ {entries new : List CodeText}, (∀ e ∈ entries, e.Unsplit) →
      (∀ e ∈ new, e.Unsplit) → ∀ e ∈ sortEntries (filled new ++ entries), e.Unsplit := by
    intro entries new hold hnew e he
    rcases List.mem_append.1 (mem_sortEntries.1 he) with he | he
    · exact hnew e (List.mem_filter.1 he).1
    · exact hold e he
  exact ⟨hentries h.1 hnew.1, hentries h.2 hnew.2⟩

end Fit

/-! ## The place of a ledger -/

/-- The groups that a file lists. A file that cannot be loaded lists none. -/
def groupsIn [Json.Nesting] (tree : FileTree) (path : CodeText) : List CodeText :=
  match load tree path with
  | .ok ledger => ledger.groups
  | .error _ => []

/-- The instances that a file lists. A file that cannot be loaded lists none. -/
def instancesIn [Json.Nesting] (tree : FileTree) (path : CodeText) : List CodeText :=
  match load tree path with
  | .ok ledger => ledger.instances
  | .error _ => []

theorem exists_read_of_load [Json.Nesting] {tree : FileTree} {path : CodeText} {ledger : Ledger}
    (h : load tree path = .ok ledger) : ∃ bytes, tree.read path = .ok bytes := by
  unfold load Json.readFile at h
  cases hread : tree.read path with
  | ok bytes => exact ⟨bytes, rfl⟩
  | error fault =>
    rw [hread] at h
    cases h

/-- What is kept is listed: where there is no file, none can be loaded. -/
theorem lists_of_loadOrEmpty [Json.Nesting] {tree : FileTree} {path : CodeText} {old : Ledger}
    (h : loadOrEmpty tree path = .ok old) :
    instancesIn tree path = old.instances ∧ groupsIn tree path = old.groups := by
  unfold loadOrEmpty at h
  split at h
  · rw [instancesIn, groupsIn, h]
    exact ⟨rfl, rfl⟩
  · rename_i habsent
    cases h
    cases hload : load tree path with
    | ok ledger =>
      obtain ⟨bytes, hread⟩ := exists_read_of_load hload
      exact absurd (present_of_read hread) habsent
    | error fault =>
      rw [instancesIn, groupsIn, hload]
      exact ⟨rfl, rfl⟩

/-- The later tree keeps the ledger at a place where nothing stands in the tree. Without a file it
keeps the ledger without entries. -/
structure Keeps [Json.Nesting] (path : CodeText) (location : Location) (tree later : FileTree)
    (ledger : Ledger) :
    Prop where
  filled : FilledAt location tree later
  loads : loadOrEmpty later path = .ok ledger

section Keeps

variable [Json.Nesting] {σ : Type} {tree later : FileTree} {path name : CodeText}
  {directory : Location} {ledger : Ledger} {host : Host σ} {instances groups : List CodeText}

/-- A ledger that was saved in order is kept. -/
theorem Keeps.exists_save (h : Keeps path (directory ++ [name]) tree later ledger)
    (hvacancy : tree.Vacancy path directory name) {new : Ledger} (hunsplit : new.Unsplit)
    (hinstances : sortEntries new.instances = new.instances)
    (hgroups : sortEntries new.groups = new.groups) :
    ∃ saved, new.save path later = (.ok (), saved) ∧
      Keeps path (directory ++ [name]) tree saved new := by
  obtain ⟨saved, hsave, hfilled, hnode⟩ := Ledger.exists_save hvacancy h.filled new
  refine ⟨saved, hsave, hfilled, ?_⟩
  have hpresent : saved.present path = true := by
    rw [hvacancy.present hfilled, hnode]
    rfl
  rw [loadOrEmpty, if_pos hpresent, load_of_file hvacancy hfilled hunsplit hnode, hinstances,
    hgroups]

/-- **Fresh entries are remembered**, beside those that are kept. -/
theorem exists_runOn_append_of_fresh
    (h : Keeps path (directory ++ [name]) tree host.files ledger)
    (hvacancy : tree.Vacancy path directory name) (hunsplit : Ledger.Unsplit ⟨instances, groups⟩)
    (hinstances : Fresh ledger.instances instances) (hgroups : Fresh ledger.groups groups) :
    ∃ saved log, (append instances groups path).runOn host = (.ok (), ⟨saved, log, host.outside⟩) ∧
      Keeps path (directory ++ [name]) tree saved
        ⟨sortEntries (filled instances ++ ledger.instances),
          sortEntries (filled groups ++ ledger.groups)⟩ := by
  have hnew := unsplit_of_added (unsplit_of_loadOrEmpty h.loads) hunsplit
  -- The lists are sorted before they are saved, so they are loaded in the same order.
  obtain ⟨saved, hsave, hkeeps⟩ :=
    h.exists_save hvacancy hnew (sortEntries_sortEntries _) (sortEntries_sortEntries _)
  obtain ⟨log, hrun⟩ := exists_runOn_append h.loads (add_of_fresh hinstances hgroups) hsave
  exact ⟨saved, log, hrun, hkeeps⟩

/-- **Entries that are not fresh are refused**, and nothing changes. -/
theorem exists_runOn_append_of_not_fresh
    (h : Keeps path (directory ++ [name]) tree host.files ledger)
    (hstale : ¬ (Fresh ledger.instances instances ∧ Fresh ledger.groups groups)) :
    ∃ e, (append instances groups path).runOn host
      = (.error (.ledger (.entry (.present e))), host) := by
  obtain ⟨e, hadd⟩ := add_of_not_fresh hstale
  exact ⟨e, runOn_append_of_error h.loads hadd⟩

end Keeps

end NodeLedger.Ledger
