import NodeLedger.Proofs.Ledger.Contract
import NodeLedger.Proofs.Ledger.Place

/-!
# Entries that are listed more than once

The ledger never lists an entry twice in a file of its own. A file that another tool wrote may, and
then loading puts its entries in order and keeps all of them. Adding and taking away count: a call that
adds leaves repeats as they are, and a call that takes an entry away takes it away as often as it names
it. So what a call leaves behind repeats an entry unless the call itself has taken the repeats away.

- `KeepsRepeats`: how a list is left by a call, entry by entry. `keepsRepeats_of_add`,
  `keepsRepeats_of_remove`: **adding and taking away leave lists in this way**.
- `LedgerCall.load_after`: **what a call has stored is loaded again** through the same path, whatever
  stood there before.
- `LedgerCall.stored_after_update`: **what a call stores when the file lists anything at all**.
- `repeats_outlast_updates`: an instance that is listed twice.
-/

namespace NodeLedger

open Text FileTree

namespace Ledger

/-! ## Counting entries -/

section Count

variable {entries added taken old new : List CodeText} {e : CodeText}

/-- Entries in order are in strict order if none comes twice. -/
theorem pairwise_lt_iff_nodup (h : entries.Pairwise (· ≤ ·)) :
    entries.Pairwise (· < ·) ↔ entries.Nodup :=
  ⟨fun hlt => hlt.imp ne_of_lt, fun hne => (h.and hne).imp fun hle => lt_of_le_of_ne hle.1 hle.2⟩

theorem count_filled_of_ne (h : e ≠ "") (entries : List CodeText) :
    (filled entries).count e = entries.count e :=
  List.count_filter (by simpa using h)

/-- How a list is left by a call that takes entries away from it: in order; in strict order if no entry
was there more than once beside those that were taken away; and without the entries that were taken
away, unless they were there more often than they were named. -/
structure KeepsRepeats (taken old new : List CodeText) : Prop where
  ordered : new.Pairwise (· ≤ ·)
  strict_iff : new.Pairwise (· < ·) ↔ ∀ e, old.count e ≤ (filled taken).count e + 1
  listed_iff : ∀ e ∈ taken, e ≠ "" → (e ∈ new ↔ taken.count e < old.count e)

/-- Adding takes nothing away; the entries that are added come once each. -/
theorem keepsRepeats_of_add (h : addEntries old added = .ok new) : KeepsRepeats [] old new := by
  obtain ⟨hfresh, rfl⟩ := addEntries_eq_ok_iff.1 h
  have hordered := pairwise_sortEntries (filled added ++ old)
  refine ⟨hordered, ?_, fun e he => absurd he List.not_mem_nil⟩
  have hdisjoint : (filled added).Disjoint old := fun e he => hfresh.2 e he
  -- What is added comes once and is new, so a repeat can only be one of the file's own.
  rw [pairwise_lt_iff_nodup hordered, (sortEntries_perm _).nodup_iff, List.nodup_append',
    and_iff_right hfresh.1, and_iff_left hdisjoint, List.nodup_iff_count_le_one]
  rfl

/-- Taking away leaves the difference. -/
theorem keepsRepeats_of_remove (h : removeEntries old taken = .ok new) :
    KeepsRepeats taken old new := by
  obtain ⟨-, rfl⟩ := removeEntries_eq_ok_iff.1 h
  have hordered := pairwise_sortEntries (old.diff (filled taken))
  have hcount : ∀ e, (sortEntries (old.diff (filled taken))).count e
      = old.count e - (filled taken).count e := fun e =>
    ((sortEntries_perm _).count_eq e).trans (List.count_diff e old (filled taken))
  -- An entry goes as often as it is named, so both facts compare how often an entry comes.
  refine ⟨hordered, ?_, fun e _ hne => ?_⟩
  · rw [pairwise_lt_iff_nodup hordered, List.nodup_iff_count_le_one]
    refine forall_congr' fun e => ?_
    rw [hcount]
    omega
  · rw [← List.count_pos_iff, hcount, count_filled_of_ne hne]
    omega

theorem mem_of_removeEntries (h : removeEntries old taken = .ok new) (he : e ∈ new) : e ∈ old := by
  obtain ⟨-, rfl⟩ := removeEntries_eq_ok_iff.1 h
  exact List.diff_subset old (filled taken) (mem_sortEntries.1 he)

end Count

/-! ## Loading what was stored -/

section Load

variable {tree : FileTree} {path : CodeText} {ledger : Ledger}

theorem loadOrEmpty_of_load [Json.Nesting]
    (h : load tree path = .ok ledger) : loadOrEmpty tree path = .ok ledger := by
  obtain ⟨bytes, hread⟩ := exists_read_of_load h
  rw [loadOrEmpty_of_read hread, h]

theorem isEmpty_eq_false_of_mem {e : CodeText} (h : e ∈ ledger.instances) : ledger.isEmpty = false := by
  rw [isEmpty, List.isEmpty_eq_false_iff_exists_mem.2 ⟨e, h⟩, Bool.false_and]

end Load

end Ledger

namespace LedgerCall

variable {σ : Type} {call : LedgerCall} {path name : CodeText} {directory : Location}
  {old new : Ledger} {tree later : FileTree} {host : Host σ}

/-- The entries that a call takes away. -/
def taken : LedgerCall → Ledger
  | append _ _ => .empty
  | remove instances groups => ⟨instances, groups⟩

theorem lists_of_append [Json.Nesting] {instances groups : List CodeText}
    (hload : Ledger.loadOrEmpty tree path = .ok old)
    (h : (append instances groups).result tree path = .ok new) :
    Ledger.addEntries old.instances instances = .ok new.instances ∧
      Ledger.addEntries old.groups groups = .ok new.groups := by
  rw [result, hload] at h
  obtain ⟨I, hinstances, h⟩ := exists_of_bind_eq_ok (eq_ok_of_mapError_eq_ok h)
  obtain ⟨G, hgroups, h⟩ := exists_of_bind_eq_ok h
  cases h
  exact ⟨hinstances, hgroups⟩

theorem eq_of_append [Json.Nesting] {instances groups : List CodeText}
    (hload : Ledger.loadOrEmpty tree path = .ok old)
    (h : (append instances groups).result tree path = .ok new) :
    new = ⟨Ledger.sortEntries (Ledger.filled instances ++ old.instances),
      Ledger.sortEntries (Ledger.filled groups ++ old.groups)⟩ := by
  obtain ⟨hinstances, hgroups⟩ := lists_of_append hload h
  exact congrArg₂ Ledger.mk (Ledger.addEntries_eq_ok_iff.1 hinstances).2
    (Ledger.addEntries_eq_ok_iff.1 hgroups).2

theorem lists_of_remove [Json.Nesting] {instances groups : List CodeText}
    (hload : Ledger.load tree path = .ok old)
    (h : (remove instances groups).result tree path = .ok new) :
    Ledger.removeEntries old.instances instances = .ok new.instances ∧
      Ledger.removeEntries old.groups groups = .ok new.groups := by
  rw [result, hload] at h
  obtain ⟨I, hinstances, h⟩ := exists_of_bind_eq_ok (eq_ok_of_mapError_eq_ok h)
  obtain ⟨G, hgroups, h⟩ := exists_of_bind_eq_ok h
  cases h
  exact ⟨hinstances, hgroups⟩

theorem keepsRepeats_of_result [Json.Nesting] (hload : Ledger.load tree path = .ok old)
    (h : call.result tree path = .ok new) :
    Ledger.KeepsRepeats call.taken.instances old.instances new.instances ∧
      Ledger.KeepsRepeats call.taken.groups old.groups new.groups := by
  cases call with
  | append instances groups =>
    obtain ⟨hinstances, hgroups⟩ := lists_of_append (Ledger.loadOrEmpty_of_load hload) h
    exact ⟨Ledger.keepsRepeats_of_add hinstances, Ledger.keepsRepeats_of_add hgroups⟩
  | remove instances groups =>
    obtain ⟨hinstances, hgroups⟩ := lists_of_remove hload h
    exact ⟨Ledger.keepsRepeats_of_remove hinstances, Ledger.keepsRepeats_of_remove hgroups⟩

theorem unsplit_of_result [Json.Nesting] (hunsplit : call.Unsplit)
    (hload : Ledger.load tree path = .ok old)
    (h : call.result tree path = .ok new) : new.Unsplit := by
  have hold := Ledger.unsplit_of_load hload
  cases call with
  | append instances groups =>
    rw [eq_of_append (Ledger.loadOrEmpty_of_load hload) h]
    exact Ledger.unsplit_of_added hold hunsplit
  | remove instances groups =>
    obtain ⟨hinstances, hgroups⟩ := lists_of_remove hload h
    exact ⟨fun e he => hold.1 e (Ledger.mem_of_removeEntries hinstances he),
      fun e he => hold.2 e (Ledger.mem_of_removeEntries hgroups he)⟩

/-- **What a call has stored is loaded again**, if the entries that it adds split no character. -/
theorem load_after [Json.Nesting] (hload : Ledger.load tree path = .ok old)
    (h : call.Replaces path new directory name tree later) (hclears : call.clears new = false)
    (hunsplit : call.Unsplit) : Ledger.load later path = .ok new := by
  obtain ⟨bytes, hread⟩ := Ledger.exists_read_of_load hload
  obtain ⟨hinstances, hgroups⟩ := keepsRepeats_of_result hload h.result
  have hentry := h.entry
  rw [stored?, hclears, if_neg Bool.false_ne_true] at hentry
  have hlater := read_of_differsAt hread h.place h.differs hentry
  -- Loading sorts what it reads; the lists that were stored are in order already.
  rw [Ledger.load_of_read (unsplit_of_result hunsplit hload h.result) hlater,
    Ledger.sortEntries_of_pairwise hinstances.ordered, Ledger.sortEntries_of_pairwise hgroups.ordered]

/-- **What a call stores when the file lists anything at all**: the entry that the path names holds
lists that are in order, and in strict order if the file listed no entry more than once beside those
that the call takes away. An entry that the call takes away is still there if the file listed it more
often. -/
theorem stored_after_update [Json.Nesting] (hload : Ledger.load host.files path = .ok old)
    (hok : ((call.job path).runOn host).1 = .ok ()) :
    ∃ new directory name,
      call.Replaces path new directory name host.files ((call.job path).runOn host).2.files ∧
      (call.clears new = false → call.Unsplit →
        Ledger.load ((call.job path).runOn host).2.files path = .ok new) ∧
      Ledger.KeepsRepeats call.taken.instances old.instances new.instances ∧
      Ledger.KeepsRepeats call.taken.groups old.groups new.groups := by
  obtain ⟨new, directory, name, hreplaces⟩ := exists_replaces hok
  exact ⟨new, directory, name, hreplaces, load_after hload hreplaces,
    keepsRepeats_of_result hload hreplaces.result⟩

/-! ## An instance that is listed twice -/

/-- A directory with nothing in it. -/
def bareDirectory : FileTree := ⟨[(["srv"], .directory)], ["srv"]⟩

theorem vacancy_bareDirectory : bareDirectory.Vacancy "ids.json" ["srv"] "ids.json" := by
  decide +kernel

/-- The ledger of a file that lists an instance twice. -/
def twice : Ledger := ⟨["i-1", "i-1"], []⟩

attribute [local instance] Json.Nesting.usual

/-- A host with that file. -/
def listedTwice : Host Unit :=
  ⟨listing bareDirectory ["srv", "ids.json"] twice.instances twice.groups, [], ()⟩

theorem filledAt_listedTwice :
    FilledAt (["srv"] ++ ["ids.json"]) bareDirectory listedTwice.files :=
  filledAt_insert (append_singleton_ne_nil _ _) vacancy_bareDirectory.vacant _ _

theorem load_listedTwice : Ledger.load listedTwice.files "ids.json" = .ok twice := by
  have hnode : listedTwice.files.node? (["srv"] ++ ["ids.json"])
      = some (.file (encode twice.text.toList) plainMode) :=
    node?_insert_self (List.cons_ne_nil _ _)
  have hunsplit : twice.Unsplit := by decide +kernel
  have hinstances : twice.instances.Pairwise (· ≤ ·) := List.pairwise_pair.2 (le_refl _)
  have hgroups : twice.groups.Pairwise (· ≤ ·) := List.Pairwise.nil
  rw [Ledger.load_of_file vacancy_bareDirectory filledAt_listedTwice hunsplit hnode,
    Ledger.sortEntries_of_pairwise hinstances, Ledger.sortEntries_of_pairwise hgroups]

/-- Nothing keeps the file from being replaced. -/
theorem ok_append_listedTwice :
    (((append [] ["sg-1"]).job "ids.json").runOn listedTwice).1 = .ok () := by
  have hkeeps : Ledger.Keeps "ids.json" (["srv"] ++ ["ids.json"]) bareDirectory listedTwice.files
      twice := ⟨filledAt_listedTwice, Ledger.loadOrEmpty_of_load load_listedTwice⟩
  have hinstances : Ledger.Fresh twice.instances [] :=
    ⟨List.nodup_nil, fun e he => absurd he List.not_mem_nil⟩
  have hgroups : Ledger.Fresh twice.groups ["sg-1"] :=
    ⟨List.nodup_singleton _, fun e _ => List.not_mem_nil⟩
  obtain ⟨saved, log, hrun, -⟩ := Ledger.exists_runOn_append_of_fresh hkeeps vacancy_bareDirectory
    (by decide +kernel) hinstances hgroups
  exact congrArg Prod.fst hrun

@[inherit_doc ok_append_listedTwice]
theorem ok_remove_listedTwice :
    (((remove ["i-1"] []).job "ids.json").runOn listedTwice).1 = .ok () := by
  have hinstances : Ledger.Held twice.instances ["i-1"] := (List.sublist_cons_self _ _).subperm
  have hgroups : Ledger.Held twice.groups [] := List.nil_subperm
  have hsubtract := Ledger.subtract_of_held hinstances hgroups
  generalize hnew : Ledger.mk (Ledger.sortEntries (twice.instances.diff (Ledger.filled ["i-1"])))
    (Ledger.sortEntries (twice.groups.diff (Ledger.filled []))) = new at hsubtract
  have hleft : CodeText.ofString "i-1" ∈ new.instances := by
    rw [← hnew]
    exact Ledger.mem_sortEntries.2 (by decide +kernel)
  obtain ⟨saved, hsave, -⟩ :=
    Ledger.exists_save vacancy_bareDirectory filledAt_listedTwice new
  have hempty := Ledger.isEmpty_eq_false_of_mem hleft
  exact congrArg Prod.fst
    (Ledger.runOn_remove_of_not_isEmpty load_listedTwice hsubtract (Bool.eq_false_iff.1 hempty) hsave)

/-- What is added does not undo the repeat, and one of two is left when one is taken away. -/
theorem repeats_outlast_updates :
    Ledger.load listedTwice.files "ids.json" = .ok twice ∧
      ((((append [] ["sg-1"]).job "ids.json").runOn listedTwice).1 = .ok () ∧ ∃ new,
        Ledger.load (((append [] ["sg-1"]).job "ids.json").runOn listedTwice).2.files "ids.json"
            = .ok new ∧ ¬ new.instances.Pairwise (· < ·)) ∧
      (((remove ["i-1"] []).job "ids.json").runOn listedTwice).1 = .ok () ∧ ∃ new,
        Ledger.load (((remove ["i-1"] []).job "ids.json").runOn listedTwice).2.files "ids.json"
            = .ok new ∧ CodeText.ofString "i-1" ∈ new.instances := by
  refine ⟨load_listedTwice, ⟨ok_append_listedTwice, ?_⟩, ok_remove_listedTwice, ?_⟩
  · obtain ⟨new, directory, name, hreplaces⟩ := exists_replaces ok_append_listedTwice
    obtain ⟨hinstances, -⟩ := keepsRepeats_of_result load_listedTwice hreplaces.result
    refine ⟨new, load_after load_listedTwice hreplaces rfl (by decide +kernel), fun hstrict => ?_⟩
    have hcount := hinstances.strict_iff.1 hstrict "i-1"
    revert hcount
    decide
  · obtain ⟨new, directory, name, hreplaces⟩ := exists_replaces ok_remove_listedTwice
    obtain ⟨hinstances, -⟩ := keepsRepeats_of_result load_listedTwice hreplaces.result
    have hleft : CodeText.ofString "i-1" ∈ new.instances :=
      (hinstances.listed_iff "i-1" (List.mem_singleton_self _) (by decide)).2 (by decide)
    have hclears : (remove ["i-1"] []).clears new = false := Ledger.isEmpty_eq_false_of_mem hleft
    exact ⟨new, load_after load_listedTwice hreplaces hclears (by decide +kernel), hleft⟩

theorem instance_left_of_two :
    Ledger.load listedTwice.files "ids.json" = .ok twice ∧
      (((remove ["i-1"] []).job "ids.json").runOn listedTwice).1 = .ok () ∧
      ∃ new directory name,
        (remove ["i-1"] []).Replaces "ids.json" new directory name listedTwice.files
            (((remove ["i-1"] []).job "ids.json").runOn listedTwice).2.files ∧
          new.instances.Pairwise (· < ·) ∧ CodeText.ofString "i-1" ∈ new.instances := by
  obtain ⟨new, directory, name, hreplaces, -, hinstances, -⟩ :=
    stored_after_update load_listedTwice ok_remove_listedTwice
  refine ⟨load_listedTwice, ok_remove_listedTwice, new, directory, name, hreplaces, ?_, ?_⟩
  · refine hinstances.strict_iff.2 fun e => ?_
    show (["i-1", "i-1"] : List CodeText).count e ≤ (["i-1"] : List CodeText).count e + 1
    rw [List.count_cons]
    split <;> omega
  · exact (hinstances.listed_iff "i-1" (List.mem_singleton_self _) (by decide)).2 (by decide)

end LedgerCall

end NodeLedger
