import Mathlib.Data.Finset.Sort
import Mathlib.Data.Finset.SDiff
import NodeLedger.Ledger.Content
import NodeLedger.Proofs.Ledger.Entries

/-!
# Ledgers of sets

A ledger that only adding and taking away have changed lists every entry once, in ascending order: it
is the pair of sets of its entries, and it changes as they do.

- `Ledger.ofSets`: the ledger that lists two sets.
- `Joins`, `Leaves`: when entries can be added to a set, and when they can be taken away from it.
- `add_ofSets`, `subtract_ofSets` and their counterparts: **adding is the union, and taking away is
  the difference**; all other entries are refused.
-/

namespace NodeLedger.Ledger

/-! ## Sets of entries -/

/-- The set of the entries that count. -/
def entrySet (entries : List CodeText) : Finset CodeText :=
  (filled entries).toFinset

/-- The entries can be added to the set: none comes twice, and none is in the set. -/
def Joins (set : Finset CodeText) (new : List CodeText) : Prop :=
  (filled new).Nodup ∧ Disjoint (entrySet new) set

/-- The entries can be taken away from the set: none comes twice, and all are in the set. -/
def Leaves (set : Finset CodeText) (old : List CodeText) : Prop :=
  (filled old).Nodup ∧ entrySet old ⊆ set

instance (set : Finset CodeText) (new : List CodeText) : Decidable (Joins set new) :=
  inferInstanceAs (Decidable (_ ∧ _))

instance (set : Finset CodeText) (old : List CodeText) : Decidable (Leaves set old) :=
  inferInstanceAs (Decidable (_ ∧ _))

/-- The entries of a set, in ascending order. -/
def ascending (set : Finset CodeText) : List CodeText :=
  set.sort (· ≤ ·)

section Ascending

variable {set : Finset CodeText} {entries new old : List CodeText} {entry : CodeText}

@[simp] theorem mem_entrySet : entry ∈ entrySet entries ↔ entry ∈ filled entries :=
  List.mem_toFinset

@[simp] theorem mem_ascending : entry ∈ ascending set ↔ entry ∈ set :=
  Finset.mem_sort _

theorem filled_of_forall_ne (h : ∀ e ∈ entries, e ≠ "") : filled entries = entries :=
  List.filter_eq_self.2 fun e he => decide_eq_true (h e he)

/-- Without empty ones, all entries count. -/
theorem entrySet_of_forall_ne (h : ∀ e ∈ entries, e ≠ "") : entrySet entries = entries.toFinset := by
  rw [entrySet, filled_of_forall_ne h]

theorem nodup_ascending (set : Finset CodeText) : (ascending set).Nodup :=
  Finset.sort_nodup _ _

theorem pairwise_ascending (set : Finset CodeText) : (ascending set).Pairwise (· < ·) :=
  (Finset.sortedLT_sort set).pairwise

/-- Entries without repeats are sorted into the ascending order of their set. -/
theorem sortEntries_eq_ascending (hnodup : entries.Nodup) (hmem : ∀ e, e ∈ entries ↔ e ∈ set) :
    sortEntries entries = ascending set := by
  have hperm : (ascending set).Perm entries := by
    rw [List.perm_ext_iff_of_nodup (nodup_ascending set) hnodup]
    intro e
    rw [mem_ascending, hmem]
  exact (eq_sortEntries (Finset.pairwise_sort set _) hperm).symm

@[simp] theorem sortEntries_ascending (set : Finset CodeText) :
    sortEntries (ascending set) = ascending set :=
  sortEntries_eq_ascending (nodup_ascending set) fun _ => mem_ascending

/-- Entries in ascending order are the order of their set. -/
theorem ascending_toFinset (h : entries.Pairwise (· < ·)) : ascending entries.toFinset = entries := by
  rw [← sortEntries_eq_ascending (h.imp ne_of_lt) fun _ => List.mem_toFinset.symm]
  exact (eq_sortEntries (h.imp le_of_lt) (.refl _)).symm

/-- The order of a set is the order of its parts. -/
theorem ascending_filter (set : Finset CodeText) (P : CodeText → Prop) [DecidablePred P] :
    ascending (set.filter fun e => P e) = (ascending set).filter fun e => P e := by
  have hsorted : ((ascending set).filter fun e => P e).Pairwise (· ≤ ·) :=
    (Finset.pairwise_sort set _).filter _
  rw [← sortEntries_eq_ascending ((nodup_ascending set).filter fun e => P e) fun e => ?_]
  · exact (eq_sortEntries hsorted (.refl _)).symm
  · rw [List.mem_filter, Finset.mem_filter, mem_ascending, decide_eq_true_eq]

@[simp] theorem ascending_isEmpty_iff : (ascending set).isEmpty = true ↔ set = ∅ := by
  rw [List.isEmpty_iff, List.eq_nil_iff_forall_not_mem, Finset.eq_empty_iff_forall_notMem]
  exact forall_congr' fun e => not_congr mem_ascending

/-! ## One set -/

theorem fresh_ascending_iff : Fresh (ascending set) new ↔ Joins set new := by
  refine and_congr_right fun _ => ?_
  rw [Finset.disjoint_left]
  exact forall_congr' fun e => imp_congr mem_entrySet.symm (not_congr mem_ascending)

theorem held_ascending_iff : Held (ascending set) old ↔ Leaves set old := by
  constructor
  · rintro ⟨found, hperm, hsublist⟩
    have hnodup : (filled old).Nodup := hperm.nodup ((nodup_ascending set).sublist hsublist)
    refine ⟨hnodup, fun e he => mem_ascending.1 (hsublist.subset ?_)⟩
    exact hperm.mem_iff.2 (mem_entrySet.1 he)
  · rintro ⟨hnodup, hsubset⟩
    exact List.subperm_of_subset hnodup fun e he => mem_ascending.2 (hsubset (mem_entrySet.2 he))

theorem entrySet_singleton (hne : entry ≠ "") : entrySet [entry] = {entry} := by
  rw [entrySet_of_forall_ne (List.forall_mem_singleton.2 hne)]
  rfl

theorem joins_nil (set : Finset CodeText) : Joins set [] :=
  ⟨List.nodup_nil, Finset.disjoint_empty_left _⟩

/-- One entry can be added unless it is there. -/
theorem joins_singleton_iff (hne : entry ≠ "") : Joins set [entry] ↔ entry ∉ set := by
  rw [Joins, entrySet_singleton hne, filled_of_forall_ne (List.forall_mem_singleton.2 hne),
    and_iff_right (List.nodup_singleton entry), Finset.disjoint_singleton_left]

/-- Entries that join a set make up the union. -/
theorem addEntries_ascending (h : Joins set new) :
    addEntries (ascending set) new = .ok (ascending (set ∪ entrySet new)) := by
  have hfresh : Fresh (ascending set) new := fresh_ascending_iff.2 h
  have hnodup : (filled new ++ ascending set).Nodup :=
    List.nodup_append'.2 ⟨h.1, nodup_ascending set, hfresh.2⟩
  rw [addEntries_of_fresh hfresh]
  refine congrArg Except.ok (sortEntries_eq_ascending hnodup fun e => ?_)
  rw [List.mem_append, Finset.mem_union, mem_entrySet, mem_ascending, or_comm]

/-- Entries that leave a set leave the difference. -/
theorem removeEntries_ascending (h : Leaves set old) :
    removeEntries (ascending set) old = .ok (ascending (set \ entrySet old)) := by
  have hnodup : (ascending set).Nodup := nodup_ascending set
  rw [removeEntries_of_held (held_ascending_iff.2 h)]
  refine congrArg Except.ok (sortEntries_eq_ascending hnodup.diff fun e => ?_)
  rw [hnodup.mem_sdiff_iff, Finset.mem_sdiff, mem_entrySet, mem_ascending]

end Ascending

/-! ## Two sets -/

/-- The ledger that lists two sets. -/
def ofSets (instances groups : Finset CodeText) : Ledger :=
  ⟨ascending instances, ascending groups⟩

section OfSets

variable {I G : Finset CodeText} {instances groups : List CodeText}

theorem ofSets_empty : ofSets ∅ ∅ = empty := by
  rw [ofSets, ascending, Finset.sort_empty]
  rfl

theorem isEmpty_ofSets_iff : (ofSets I G).isEmpty = true ↔ I = ∅ ∧ G = ∅ := by
  rw [isEmpty, Bool.and_eq_true]
  exact and_congr ascending_isEmpty_iff ascending_isEmpty_iff

/-- **Adding is the union.** -/
theorem add_ofSets (hinstances : Joins I instances) (hgroups : Joins G groups) :
    (ofSets I G).add instances groups
      = .ok (ofSets (I ∪ entrySet instances) (G ∪ entrySet groups)) := by
  rw [add, ofSets, addEntries_ascending hinstances, addEntries_ascending hgroups]
  rfl

/-- **Entries that do not join are refused**, in whichever list they come. -/
theorem add_ofSets_of_not (h : ¬ (Joins I instances ∧ Joins G groups)) :
    ∃ e, (ofSets I G).add instances groups = .error (.present e) := by
  -- Instances that do not join are noticed before the groups are looked at.
  by_cases hinstances : Joins I instances
  · have hgroups : ¬ Fresh (ascending G) groups := fun hfresh =>
      h ⟨hinstances, fresh_ascending_iff.1 hfresh⟩
    obtain ⟨e, he⟩ := addEntries_of_not_fresh hgroups
    refine ⟨e, ?_⟩
    rw [add, ofSets, addEntries_ascending hinstances, he]
    rfl
  · obtain ⟨e, he⟩ := addEntries_of_not_fresh (mt fresh_ascending_iff.1 hinstances)
    refine ⟨e, ?_⟩
    rw [add, ofSets, he]
    rfl

/-- **Taking away is the difference.** -/
theorem subtract_ofSets (hinstances : Leaves I instances) (hgroups : Leaves G groups) :
    (ofSets I G).subtract instances groups
      = .ok (ofSets (I \ entrySet instances) (G \ entrySet groups)) := by
  rw [subtract, ofSets, removeEntries_ascending hinstances, removeEntries_ascending hgroups]
  rfl

/-- **Entries that do not leave are refused**, in whichever list they come. -/
theorem subtract_ofSets_of_not (h : ¬ (Leaves I instances ∧ Leaves G groups)) :
    ∃ e, (ofSets I G).subtract instances groups = .error (.absent e) := by
  by_cases hinstances : Leaves I instances
  · have hgroups : ¬ Held (ascending G) groups := fun hheld =>
      h ⟨hinstances, held_ascending_iff.1 hheld⟩
    obtain ⟨e, he⟩ := removeEntries_of_not_held hgroups
    refine ⟨e, ?_⟩
    rw [subtract, ofSets, removeEntries_ascending hinstances, he]
    rfl
  · obtain ⟨e, he⟩ := removeEntries_of_not_held (mt held_ascending_iff.1 hinstances)
    refine ⟨e, ?_⟩
    rw [subtract, ofSets, he]
    rfl

end OfSets

end NodeLedger.Ledger
