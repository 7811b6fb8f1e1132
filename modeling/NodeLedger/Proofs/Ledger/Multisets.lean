import Mathlib.Data.Multiset.Sort
import NodeLedger.Proofs.Ledger.Entries

/-!
# Entries as multisets

Sorted entries stand for a multiset. A binary search answers with a position: the entries before it
are smaller, and those from it on are not. The entry that is looked for is there exactly if it stands
at that position, so adding and taking away act on that position alone, and the entries stay sorted.

- `Parts`: the positions that a binary search may answer; sorted entries have one for every entry.
- `halve`, `parts_halve`: **a binary search** keeps all smaller entries before what is left of the
  list, and all others behind it.
- `addEntry_of_parts`, `dropEntry_of_parts`, `addEntries_eq_foldlM`, `removeEntries_eq_foldlM`: entries
  are put in and taken out at these positions.
- `addEntries_removeEntries_multiset`: **adding is the sum of multisets and taking away is their
  difference**, and entries that were added can be taken away again in any order.
-/

namespace NodeLedger.Ledger

section Positions

variable {entries named : List CodeText} {entry : CodeText} {position : Nat}

/-! ## Positions in sorted entries -/

/-- The position parts the entries: those before it are smaller than the entry, and the others are
not. -/
structure Parts (entries : List CodeText) (entry : CodeText) (position : Nat) : Prop where
  le_length : position ≤ entries.length
  smaller : ∀ e ∈ entries.take position, e < entry
  others : ∀ e ∈ entries.drop position, ¬ e < entry

/-- One of the halves of a stretch of the entries is searched further, until nothing is left of it. -/
def halve (entries : List CodeText) (entry : CodeText) (low high : Nat) : Nat :=
  if low < high then
    let middle := (low + high) / 2
    if entries[middle]?.any (· < entry) then halve entries entry (middle + 1) high
    else halve entries entry low middle
  else low
termination_by high - low

/-- The position of an entry by binary search. -/
def positionOf (entries : List CodeText) (entry : CodeText) : Nat :=
  halve entries entry 0 entries.length

/-- Before the middle of sorted entries nothing is greater than what stands there. -/
theorem le_of_mem_take (hsorted : entries.Pairwise (· ≤ ·)) {middle : Nat} {e : CodeText}
    (hmiddle : entries[middle]? = some e) : ∀ e' ∈ entries.take (middle + 1), e' ≤ e := by
  intro e' he'
  obtain ⟨hlt, rfl⟩ := List.getElem?_eq_some_iff.1 hmiddle
  obtain ⟨i, hi, rfl⟩ := List.mem_take_iff_getElem.1 he'
  have hle : i ≤ middle := by omega
  rcases hle.eq_or_lt with rfl | hbefore
  · exact le_refl _
  · exact List.pairwise_iff_getElem.1 hsorted i middle _ hlt hbefore

/-- From the middle of sorted entries on nothing is smaller than what stands there. -/
theorem le_of_mem_drop (hsorted : entries.Pairwise (· ≤ ·)) {middle : Nat} {e : CodeText}
    (hmiddle : entries[middle]? = some e) : ∀ e' ∈ entries.drop middle, e ≤ e' := by
  intro e' he'
  obtain ⟨hlt, rfl⟩ := List.getElem?_eq_some_iff.1 hmiddle
  obtain ⟨i, hi, rfl⟩ := List.mem_drop_iff_getElem.1 he'
  rcases Nat.eq_zero_or_pos i with rfl | hpos
  · exact le_refl _
  · exact List.pairwise_iff_getElem.1 hsorted middle (middle + i) hlt _ (by omega)

/-- **A binary search parts sorted entries.** What is left of the list has all smaller entries before
it or in it, and all others in it or behind it. -/
theorem parts_halve (hsorted : entries.Pairwise (· ≤ ·)) (low high : Nat) (hle : low ≤ high)
    (hhigh : high ≤ entries.length) (hsmaller : ∀ e ∈ entries.take low, e < entry)
    (hothers : ∀ e ∈ entries.drop high, ¬ e < entry) :
    Parts entries entry (halve entries entry low high) := by
  fun_induction halve entries entry low high with
  | case1 low high hlt middle hbelow ih =>
    obtain ⟨e, hmiddle, he⟩ := (Option.any_eq_true _ _).1 hbelow
    have hlength := (List.getElem?_eq_some_iff.1 hmiddle).1
    refine ih (by omega) hhigh (fun e' he' => ?_) hothers
    exact (le_of_mem_take hsorted hmiddle e' he').trans_lt (of_decide_eq_true he)
  | case2 low high hlt middle hnot ih =>
    refine ih (by omega) (by omega) hsmaller fun e' he' hbelow => hnot ?_
    have hmiddle : entries[middle]? = some entries[middle] := List.getElem?_eq_getElem (by omega)
    rw [hmiddle, Option.any_some, decide_eq_true_iff]
    exact (le_of_mem_drop hsorted hmiddle e' he').trans_lt hbelow
  | case3 low high hnot =>
    obtain rfl : low = high := by omega
    exact ⟨hhigh, hsmaller, hothers⟩

theorem parts_positionOf (hsorted : entries.Pairwise (· ≤ ·)) (entry : CodeText) :
    Parts entries entry (positionOf entries entry) :=
  parts_halve hsorted 0 entries.length (Nat.zero_le _) le_rfl (by simp) (by simp)

/-- At the position that parts the entries stands the entry itself, or one that is greater. -/
theorem Parts.cases (h : Parts entries entry position) :
    ∃ before after, entries = before ++ after ∧ before.length = position ∧
      (∀ e ∈ before, e < entry) ∧ (after = [] ∨ ∃ e rest, after = e :: rest ∧ ¬ e < entry) := by
  refine ⟨entries.take position, entries.drop position, (List.take_append_drop ..).symm,
    List.length_take_of_le h.le_length, h.smaller, ?_⟩
  cases hafter : entries.drop position with
  | nil => exact .inl rfl
  | cons e rest =>
    refine .inr ⟨e, rest, rfl, h.others e ?_⟩
    rw [hafter]
    exact List.mem_cons_self

/-! ## One entry at its position -/

theorem inserted?_append {before : List CodeText} (hbefore : ∀ e ∈ before, e < entry)
    (after : List CodeText) :
    inserted? entry (before ++ after) = (inserted? entry after).map (before ++ ·) := by
  induction before with
  | nil => simp
  | cons e before ih =>
    obtain ⟨he, hrest⟩ := List.forall_mem_cons.1 hbefore
    rw [List.cons_append, inserted?, if_pos he, ih hrest, Option.map_map]
    rfl

theorem removed?_append {before : List CodeText} (hbefore : ∀ e ∈ before, e < entry)
    (after : List CodeText) :
    removed? entry (before ++ after) = (removed? entry after).map (before ++ ·) := by
  induction before with
  | nil => simp
  | cons e before ih =>
    obtain ⟨he, hrest⟩ := List.forall_mem_cons.1 hbefore
    rw [List.cons_append, removed?, if_pos he, ih hrest, Option.map_map]
    rfl

theorem insertIdx_append_length (before after : List CodeText) (entry : CodeText) :
    (before ++ after).insertIdx before.length entry = before ++ entry :: after := by
  induction before with
  | nil => rfl
  | cons e before ih => rw [List.cons_append, List.length_cons, List.insertIdx_succ_cons, ih,
      List.cons_append]

/-- Add an entry at a position, unless it stands there. -/
def addAt (entries : List CodeText) (entry : CodeText) (position : Nat) :
    Except EntryFault (List CodeText) :=
  if entries[position]? = some entry then .error (.present entry)
  else .ok (entries.insertIdx position entry)

/-- Take an entry away from a position, if it stands there. -/
def dropAt (entries : List CodeText) (entry : CodeText) (position : Nat) :
    Except EntryFault (List CodeText) :=
  if entries[position]? = some entry then .ok (entries.eraseIdx position)
  else .error (.absent entry)

/-- An entry is added at the position that parts the entries. -/
theorem addEntry_of_parts (hne : entry ≠ "") (h : Parts entries entry position) :
    addEntry entries entry = addAt entries entry position := by
  obtain ⟨before, after, rfl, rfl, hbefore, rfl | ⟨e, rest, rfl, hnot⟩⟩ := h.cases
  · rw [addEntry, if_neg hne, inserted?_append hbefore, inserted?, addAt]
    simp
  · rw [addEntry, if_neg hne, inserted?_append hbefore, inserted?, if_neg hnot, addAt]
    by_cases heq : e = entry
    · simp [heq]
    · simp [heq, insertIdx_append_length]

/-- An entry is taken away from the position that parts the entries. -/
theorem dropEntry_of_parts (hne : entry ≠ "") (h : Parts entries entry position) :
    dropEntry entries entry = dropAt entries entry position := by
  obtain ⟨before, after, rfl, rfl, hbefore, rfl | ⟨e, rest, rfl, hnot⟩⟩ := h.cases
  · rw [dropEntry, if_neg hne, removed?_append hbefore, removed?, dropAt]
    simp
  · rw [dropEntry, if_neg hne, removed?_append hbefore, removed?, if_neg hnot, dropAt]
    by_cases heq : e = entry
    · simp [heq, List.eraseIdx_append_of_length_le]
    · simp [heq]

/-! ## Entries one after the other -/

/-- Add an entry where a binary search says; an empty one is skipped. -/
def addSearched (entries : List CodeText) (entry : CodeText) : Except EntryFault (List CodeText) :=
  if entry = "" then .ok entries else addAt entries entry (positionOf entries entry)

/-- Take an entry away from where a binary search says; an empty one is skipped. -/
def dropSearched (entries : List CodeText) (entry : CodeText) : Except EntryFault (List CodeText) :=
  if entry = "" then .ok entries else dropAt entries entry (positionOf entries entry)

theorem addEntry_eq_addSearched (hsorted : entries.Pairwise (· ≤ ·)) (entry : CodeText) :
    addEntry entries entry = addSearched entries entry := by
  rw [addSearched]
  split
  · rename_i hempty
    rw [hempty, addEntry_empty]
  · rename_i hne
    exact addEntry_of_parts hne (parts_positionOf hsorted entry)

theorem dropEntry_eq_dropSearched (hsorted : entries.Pairwise (· ≤ ·)) (entry : CodeText) :
    dropEntry entries entry = dropSearched entries entry := by
  rw [dropSearched]
  split
  · rename_i hempty
    rw [hempty, dropEntry_empty]
  · rename_i hne
    exact dropEntry_of_parts hne (parts_positionOf hsorted entry)

/-- Adding an entry keeps entries sorted. -/
theorem pairwise_of_addEntry {result : List CodeText} (hsorted : entries.Pairwise (· ≤ ·))
    (h : addEntry entries entry = .ok result) : result.Pairwise (· ≤ ·) := by
  rw [addEntry] at h
  split at h
  · cases h
    exact hsorted
  · split at h
    · rename_i hinserted
      cases h
      exact pairwise_of_inserted? hsorted hinserted
    · cases h

/-- Taking an entry away keeps entries sorted. -/
theorem pairwise_of_dropEntry {result : List CodeText} (hsorted : entries.Pairwise (· ≤ ·))
    (h : dropEntry entries entry = .ok result) : result.Pairwise (· ≤ ·) := by
  by_cases hempty : entry = ""
  · rw [hempty, dropEntry_empty] at h
    cases h
    exact hsorted
  · by_cases hmem : entry ∈ entries
    · rw [dropEntry_of_mem hsorted hempty hmem] at h
      cases h
      exact pairwise_erase hsorted entry
    · rw [dropEntry_of_notMem hempty hmem] at h
      cases h

/-- Two steps that agree on sorted entries, and keep them sorted, make the same run. -/
theorem foldlM_congr_of_sorted {step search : List CodeText → CodeText →
      Except EntryFault (List CodeText)}
    (heq : ∀ entries entry, entries.Pairwise (· ≤ ·) → step entries entry = search entries entry)
    (hkeeps : ∀ entries entry result, entries.Pairwise (· ≤ ·) →
      step entries entry = .ok result → result.Pairwise (· ≤ ·))
    (hsorted : entries.Pairwise (· ≤ ·)) (named : List CodeText) :
    named.foldlM step entries = named.foldlM search entries := by
  induction named generalizing entries with
  | nil => rfl
  | cons entry named ih =>
    rw [List.foldlM_cons, List.foldlM_cons, ← heq entries entry hsorted]
    cases hstep : step entries entry with
    | error fault => rfl
    | ok result => exact ih (hkeeps entries entry result hsorted hstep)

/-- **Entries are added where a binary search says.** -/
theorem addEntries_eq_foldlM (entries named : List CodeText) :
    addEntries entries named = named.foldlM addSearched (sortEntries entries) :=
  foldlM_congr_of_sorted (fun _ entry hsorted => addEntry_eq_addSearched hsorted entry)
    (fun _ _ _ => pairwise_of_addEntry) (pairwise_sortEntries entries) named

/-- **Entries are taken away from where a binary search says.** -/
theorem removeEntries_eq_foldlM (entries named : List CodeText) :
    removeEntries entries named = named.foldlM dropSearched (sortEntries entries) :=
  foldlM_congr_of_sorted (fun _ entry hsorted => dropEntry_eq_dropSearched hsorted entry)
    (fun _ _ _ => pairwise_of_dropEntry) (pairwise_sortEntries entries) named

end Positions

/-! ## Sums and differences -/

section Multisets

variable {entries named other result : List CodeText}

theorem held_iff_le : Held entries named ↔ (filled named : Multiset CodeText) ≤ entries :=
  Multiset.coe_le.symm

theorem not_fresh_iff :
    ¬ Fresh entries named ↔ ¬ (filled named).Nodup ∨ ∃ e ∈ filled named, e ∈ entries := by
  rw [Fresh, not_and_or]
  simp only [not_forall, not_not, exists_prop]

theorem sortEntries_eq_sort (entries : List CodeText) :
    sortEntries entries = (entries : Multiset CodeText).sort :=
  (Multiset.coe_sort ..).symm

theorem addEntries_eq_ok_iff_sum :
    addEntries entries named = .ok result ↔
      Fresh entries named ∧ result = (entries + filled named : Multiset CodeText).sort := by
  rw [addEntries_eq_ok_iff, sortEntries_eq_sort, Multiset.add_comm, Multiset.coe_add]

theorem removeEntries_eq_ok_iff_difference :
    removeEntries entries named = .ok result ↔
      Held entries named ∧ result = (entries - filled named : Multiset CodeText).sort := by
  rw [removeEntries_eq_ok_iff, sortEntries_eq_sort, Multiset.coe_sub]

theorem exists_present_iff :
    (∃ e, addEntries entries named = .error (.present e)) ↔ ¬ Fresh entries named := by
  refine ⟨?_, addEntries_of_not_fresh⟩
  rintro ⟨e, herror⟩ hfresh
  rw [addEntries_of_fresh hfresh] at herror
  cases herror

theorem exists_absent_iff :
    (∃ e, removeEntries entries named = .error (.absent e)) ↔ ¬ Held entries named := by
  refine ⟨?_, removeEntries_of_not_held⟩
  rintro ⟨e, herror⟩ hheld
  rw [removeEntries_of_held hheld] at herror
  cases herror

/-- Entries that were added can be taken away again, in any order. -/
theorem removeEntries_of_addEntries (h : addEntries entries named = .ok result)
    (hperm : named.Perm other) :
    removeEntries result other = .ok (entries : Multiset CodeText).sort := by
  obtain ⟨-, rfl⟩ := addEntries_eq_ok_iff_sum.1 h
  have hfilled : (filled named : Multiset CodeText) = filled other :=
    Multiset.coe_eq_coe.2 (hperm.filter _)
  refine removeEntries_eq_ok_iff_difference.2 ⟨?_, ?_⟩
  · rw [held_iff_le, Multiset.sort_eq, hfilled]
    exact Multiset.le_add_left _ _
  · rw [Multiset.sort_eq, hfilled, Multiset.add_sub_cancel_right]

/-- **Adding is the sum of multisets and taking away is their difference**, whatever the order of the
entries and however often they come; empty ones are skipped. One entry after the other is put in or
taken out of the sorted entries where a binary search says. Adding is refused exactly when an entry is
named twice or there already, and taking away exactly when an entry is named more often than it is
there. Entries that were added can be taken away again in any order, which leaves the entries sorted. -/
theorem addEntries_removeEntries_multiset (entries named : List CodeText) :
    addEntries entries named = named.foldlM addSearched (sortEntries entries) ∧
      removeEntries entries named = named.foldlM dropSearched (sortEntries entries) ∧
      ((∃ e, addEntries entries named = .error (.present e)) ↔
        ¬ (filled named).Nodup ∨ ∃ e ∈ filled named, e ∈ entries) ∧
      (∀ result, addEntries entries named = .ok result ↔
        ((filled named).Nodup ∧ ∀ e ∈ filled named, e ∉ entries) ∧
          result = (entries + filled named : Multiset CodeText).sort) ∧
      ((∃ e, removeEntries entries named = .error (.absent e)) ↔
        ¬ (filled named : Multiset CodeText) ≤ entries) ∧
      (∀ result, removeEntries entries named = .ok result ↔
        (filled named : Multiset CodeText) ≤ entries ∧
          result = (entries - filled named : Multiset CodeText).sort) ∧
      ∀ other result, named.Perm other → addEntries entries named = .ok result →
        removeEntries result other = .ok (entries : Multiset CodeText).sort := by
  refine ⟨addEntries_eq_foldlM entries named, removeEntries_eq_foldlM entries named, ?_,
    fun result => addEntries_eq_ok_iff_sum, ?_, fun result => ?_,
    fun other result hperm h => removeEntries_of_addEntries h hperm⟩
  · rw [exists_present_iff, not_fresh_iff]
  · rw [exists_absent_iff, held_iff_le]
  · rw [removeEntries_eq_ok_iff_difference, held_iff_le]

/-- Entries that are there twice stay, while two others come and go. -/
theorem entries_come_and_go :
    let entries : List CodeText := ["sg-2", "sg-1", "sg-2"]
    let more : List CodeText := ["sg-0", "sg-1", "sg-2", "sg-2", "sg-3"]
    addEntries entries ["sg-3", "", "sg-0"] = .ok more ∧
      removeEntries more ["", "sg-0", "sg-3"] = .ok ["sg-1", "sg-2", "sg-2"] := by
  intro entries more
  have hadded : addEntries entries ["sg-3", "", "sg-0"] = .ok more :=
    addEntries_eq_ok_iff.2 ⟨⟨by decide, by decide⟩, eq_sortEntries (by decide) (by decide)⟩
  have hsorted : (["sg-1", "sg-2", "sg-2"] : List CodeText)
      = (entries : Multiset CodeText).sort := eq_sortEntries (by decide) (by decide)
  refine ⟨hadded, ?_⟩
  rw [hsorted]
  exact (addEntries_removeEntries_multiset entries ["sg-3", "", "sg-0"]).2.2.2.2.2.2
    ["", "sg-0", "sg-3"] more (by decide) hadded

end Multisets

end NodeLedger.Ledger
