import Mathlib.Data.List.Sort
import NodeLedger.Ledger.Entries

/-!
# Adding and taking away entries

Entries are kept in the order of code points, which is a linear order. A binary search in a sorted
list finds an entry exactly when it is there, so adding entries is the union of multisets and taking
them away is the difference, as long as they fit.

- `CodeText` is linearly ordered. `eq_sortEntries`: a list has one sorted arrangement.
- `inserted?_of_notMem`, `removed?_of_mem` and their counterparts: one entry.
- `filled`: the entries that count, without the empty ones.
- `Fresh`, `Held`: when entries can be added, and when they can be taken away.
- `addEntries_of_fresh`, `removeEntries_of_held` and their counterparts: **entries that fit make up
  the union and the difference, and all others are refused**.
-/

namespace NodeLedger

namespace CodeText

theorem not_lt_of_lt {a b : CodeText} (h : a < b) : ¬ b < a :=
  fun h' => lt_irrefl a (lt_trans h h')

theorem le_iff_not_lt {a b : CodeText} : a ≤ b ↔ ¬ b < a := Iff.rfl

instance : LinearOrder CodeText where
  le_refl a := lt_irrefl a
  le_trans a b c hab hbc := by
    rw [le_iff_not_lt] at *
    intro hca
    -- Were `c` before `a`, then `b` would be neither before `c` nor after `a`.
    by_cases hbc' : b < c
    · exact hab (lt_trans hbc' hca)
    · rw [eq_of_not_lt hbc hbc'] at hca
      exact hab hca
  le_antisymm a b hab hba := eq_of_not_lt hba hab
  le_total a b := by
    rw [le_iff_not_lt, le_iff_not_lt]
    by_cases h : b < a
    · exact .inr (not_lt_of_lt h)
    · exact .inl h
  lt_iff_le_not_ge a b := by
    rw [le_iff_not_lt, le_iff_not_lt, not_not]
    exact ⟨fun h => ⟨not_lt_of_lt h, h⟩, fun h => h.2⟩
  toDecidableLE := inferInstance
  toDecidableLT := inferInstance
  toDecidableEq := inferInstance

end CodeText

namespace Ledger

/-! ## Sorted entries -/

section Sorted

variable {entries others : List CodeText} {entry : CodeText}

theorem sortEntries_perm (entries : List CodeText) : (sortEntries entries).Perm entries :=
  List.mergeSort_perm _ _

theorem pairwise_sortEntries (entries : List CodeText) : (sortEntries entries).Pairwise (· ≤ ·) :=
  List.pairwise_mergeSort' (· ≤ ·) entries

@[simp] theorem mem_sortEntries : entry ∈ sortEntries entries ↔ entry ∈ entries :=
  (sortEntries_perm entries).mem_iff

/-- **A list has one sorted arrangement.** -/
theorem eq_sortEntries (hsorted : entries.Pairwise (· ≤ ·)) (hperm : entries.Perm others) :
    entries = sortEntries others :=
  List.Perm.eq_of_pairwise' hsorted (pairwise_sortEntries others)
    (hperm.trans (sortEntries_perm others).symm)

theorem sortEntries_congr (h : entries.Perm others) : sortEntries entries = sortEntries others :=
  eq_sortEntries (pairwise_sortEntries entries) ((sortEntries_perm entries).trans h)

theorem sortEntries_of_pairwise (h : entries.Pairwise (· ≤ ·)) : sortEntries entries = entries :=
  (eq_sortEntries h (List.Perm.refl entries)).symm

theorem sortEntries_sortEntries (entries : List CodeText) :
    sortEntries (sortEntries entries) = sortEntries entries :=
  sortEntries_of_pairwise (pairwise_sortEntries entries)

theorem perm_of_inserted? {result : List CodeText} (h : inserted? entry entries = some result) :
    result.Perm (entry :: entries) := by
  induction entries generalizing result with
  | nil =>
    cases h
    exact List.Perm.refl _
  | cons e entries ih =>
    rw [inserted?] at h
    split at h
    · obtain ⟨tail, htail, rfl⟩ := Option.map_eq_some_iff.1 h
      exact ((ih htail).cons e).trans (List.Perm.swap entry e entries)
    · split at h
      · cases h
      · cases h
        exact List.Perm.refl _

theorem pairwise_of_inserted? {result : List CodeText} (hsorted : entries.Pairwise (· ≤ ·))
    (h : inserted? entry entries = some result) : result.Pairwise (· ≤ ·) := by
  induction entries generalizing result with
  | nil =>
    cases h
    exact List.pairwise_singleton _ _
  | cons e entries ih =>
    obtain ⟨hle, hrest⟩ := List.pairwise_cons.1 hsorted
    rw [inserted?] at h
    split at h
    · rename_i hlt
      obtain ⟨tail, htail, rfl⟩ := Option.map_eq_some_iff.1 h
      refine List.pairwise_cons.2 ⟨fun other hother => ?_, ih hrest htail⟩
      rcases (mem_of_inserted? htail other).1 hother with rfl | hother
      · exact le_of_lt hlt
      · exact hle other hother
    · rename_i hnlt
      split at h
      · cases h
      · cases h
        have hfirst : entry ≤ e := not_lt.1 hnlt
        refine List.pairwise_cons.2 ⟨fun other hother => ?_, hsorted⟩
        rcases List.mem_cons.1 hother with rfl | hother
        · exact hfirst
        · exact hfirst.trans (hle other hother)

/-- Inserting fails exactly at an entry that is there. -/
theorem inserted?_eq_none_iff (hsorted : entries.Pairwise (· ≤ ·)) :
    inserted? entry entries = none ↔ entry ∈ entries := by
  induction entries with
  | nil => simp [inserted?]
  | cons e entries ih =>
    obtain ⟨hle, hrest⟩ := List.pairwise_cons.1 hsorted
    rw [inserted?]
    split
    · rename_i hlt
      rw [Option.map_eq_none_iff, ih hrest, List.mem_cons, or_iff_right (ne_of_gt hlt)]
    · rename_i hnlt
      split
      · rename_i heq
        exact iff_of_true rfl (heq ▸ List.mem_cons_self)
      · rename_i hne
        refine iff_of_false (Option.some_ne_none _) fun hmem => ?_
        rcases List.mem_cons.1 hmem with heq | hmem
        · exact hne heq.symm
        · exact hne (le_antisymm (hle entry hmem) (not_lt.1 hnlt))

theorem inserted?_of_notMem (hsorted : entries.Pairwise (· ≤ ·)) (h : entry ∉ entries) :
    inserted? entry entries = some (sortEntries (entry :: entries)) := by
  cases hresult : inserted? entry entries with
  | none => exact absurd ((inserted?_eq_none_iff hsorted).1 hresult) h
  | some result =>
    rw [eq_sortEntries (pairwise_of_inserted? hsorted hresult) (perm_of_inserted? hresult)]

/-- Taking away is erasing an entry that is there. -/
theorem removed?_of_mem (hsorted : entries.Pairwise (· ≤ ·)) (h : entry ∈ entries) :
    removed? entry entries = some (entries.erase entry) := by
  induction entries with
  | nil => exact absurd h List.not_mem_nil
  | cons e entries ih =>
    obtain ⟨hle, hrest⟩ := List.pairwise_cons.1 hsorted
    rw [removed?]
    split
    · rename_i hlt
      have hmem : entry ∈ entries := (List.mem_cons.1 h).resolve_left (ne_of_gt hlt)
      rw [ih hrest hmem, Option.map_some, List.erase_cons_tail]
      rw [beq_iff_eq]
      exact ne_of_lt hlt
    · rename_i hnlt
      split
      · rename_i heq
        rw [heq, List.erase_cons_head]
      · rename_i hne
        have hmem : entry ∈ entries := (List.mem_cons.1 h).resolve_left (Ne.symm hne)
        exact absurd (le_antisymm (hle entry hmem) (not_lt.1 hnlt)) hne

theorem removed?_of_notMem (h : entry ∉ entries) : removed? entry entries = none := by
  induction entries with
  | nil => rfl
  | cons e entries ih =>
    obtain ⟨hne, hrest⟩ := List.ne_and_not_mem_of_not_mem_cons h
    rw [removed?, ih hrest, if_neg (Ne.symm hne)]
    split <;> rfl

theorem pairwise_erase (hsorted : entries.Pairwise (· ≤ ·)) (entry : CodeText) :
    (entries.erase entry).Pairwise (· ≤ ·) :=
  hsorted.sublist List.erase_sublist

end Sorted

/-! ## Entries that fit -/

/-- The entries that count: an empty one is skipped. -/
def filled (entries : List CodeText) : List CodeText :=
  entries.filter (· ≠ "")

/-- The entries can be added: none of them is there, and none comes twice. -/
def Fresh (entries new : List CodeText) : Prop :=
  (filled new).Nodup ∧ ∀ e ∈ filled new, e ∉ entries

/-- The entries can be taken away: each is there as often as it is named. -/
def Held (entries old : List CodeText) : Prop :=
  (filled old).Subperm entries

section Fit

variable {entries new old : List CodeText} {entry : CodeText}

theorem filled_cons_empty (new : List CodeText) : filled ("" :: new) = filled new :=
  List.filter_cons_of_neg (by simp)

theorem filled_cons_of_ne (h : entry ≠ "") (new : List CodeText) :
    filled (entry :: new) = entry :: filled new :=
  List.filter_cons_of_pos (by simpa using h)

/-- One entry after the other can be added exactly when all of them can. -/
theorem fresh_cons_iff (h : entry ≠ "") :
    Fresh entries (entry :: new) ↔ entry ∉ entries ∧ Fresh (entry :: entries) new := by
  rw [Fresh, Fresh, filled_cons_of_ne h, List.nodup_cons]
  constructor
  · rintro ⟨⟨hfirst, hrest⟩, hnew⟩
    refine ⟨hnew entry List.mem_cons_self, hrest, fun e he hmem => ?_⟩
    rcases List.mem_cons.1 hmem with rfl | hmem
    · exact hfirst he
    · exact hnew e (List.mem_cons_of_mem entry he) hmem
  · rintro ⟨hentry, hrest, hnew⟩
    refine ⟨⟨fun hmem => hnew entry hmem List.mem_cons_self, hrest⟩, fun e he => ?_⟩
    rcases List.mem_cons.1 he with rfl | he
    · exact hentry
    · exact fun hmem => hnew e he (List.mem_cons_of_mem entry hmem)

theorem fresh_congr {others : List CodeText} (h : ∀ e, e ∈ entries ↔ e ∈ others) :
    Fresh entries new ↔ Fresh others new :=
  and_congr_right fun _ => forall₂_congr fun e _ => not_congr (h e)

/-- One entry after the other can be taken away exactly when all of them can. -/
theorem held_cons_iff (h : entry ≠ "") :
    Held entries (entry :: old) ↔ entry ∈ entries ∧ Held (entries.erase entry) old := by
  rw [Held, Held, filled_cons_of_ne h]
  constructor
  · intro hheld
    have hmem : entry ∈ entries := hheld.subset List.mem_cons_self
    exact ⟨hmem, (List.subperm_cons entry).1 ((List.perm_cons_erase hmem).subperm_left.1 hheld)⟩
  · rintro ⟨hmem, hheld⟩
    exact (List.perm_cons_erase hmem).subperm_left.2 ((List.subperm_cons entry).2 hheld)

/-! ## Adding -/

theorem addEntry_empty (entries : List CodeText) : addEntry entries "" = .ok entries :=
  if_pos rfl

theorem addEntry_of_notMem (hsorted : entries.Pairwise (· ≤ ·)) (hne : entry ≠ "")
    (h : entry ∉ entries) : addEntry entries entry = .ok (sortEntries (entry :: entries)) := by
  rw [addEntry, if_neg hne, inserted?_of_notMem hsorted h]

theorem addEntry_of_mem (hsorted : entries.Pairwise (· ≤ ·)) (hne : entry ≠ "")
    (h : entry ∈ entries) : addEntry entries entry = .error (.present entry) := by
  rw [addEntry, if_neg hne, (inserted?_eq_none_iff hsorted).2 h]

/-- Adding to sorted entries, one after the other. -/
theorem foldlM_addEntry (hsorted : entries.Pairwise (· ≤ ·)) (new : List CodeText) :
    (Fresh entries new → new.foldlM addEntry entries = .ok (sortEntries (filled new ++ entries))) ∧
      (¬ Fresh entries new → ∃ e, new.foldlM addEntry entries = .error (.present e)) := by
  induction new generalizing entries with
  | nil =>
    refine ⟨fun _ => ?_, fun h => ?_⟩
    · rw [filled, List.filter_nil, List.nil_append, sortEntries_of_pairwise hsorted]
      rfl
    · exact absurd ⟨List.nodup_nil, fun e he => absurd he List.not_mem_nil⟩ h
  | cons entry new ih =>
    rw [List.foldlM_cons]
    by_cases hne : entry = ""
    · subst hne
      rw [addEntry_empty, Fresh, filled_cons_empty]
      exact ih hsorted
    · by_cases hmem : entry ∈ entries
      · rw [addEntry_of_mem hsorted hne hmem, fresh_cons_iff hne]
        exact ⟨fun h => absurd hmem h.1, fun _ => ⟨entry, rfl⟩⟩
      · obtain ⟨hfresh, hstale⟩ := ih (pairwise_sortEntries (entry :: entries))
        rw [fresh_congr fun _ => mem_sortEntries] at hfresh hstale
        rw [addEntry_of_notMem hsorted hne hmem, fresh_cons_iff hne]
        refine ⟨fun h => ?_, fun h => hstale fun hrest => h ⟨hmem, hrest⟩⟩
        refine (hfresh h.2).trans (congrArg Except.ok (sortEntries_congr ?_))
        rw [filled_cons_of_ne hne, List.cons_append]
        exact ((sortEntries_perm (entry :: entries)).append_left _).trans List.perm_middle

/-- **Fresh entries make up the union.** -/
theorem addEntries_of_fresh (h : Fresh entries new) :
    addEntries entries new = .ok (sortEntries (filled new ++ entries)) := by
  have hfold := (foldlM_addEntry (pairwise_sortEntries entries) new).1
    ((fresh_congr fun _ => mem_sortEntries).2 h)
  rw [addEntries, hfold]
  exact congrArg Except.ok (sortEntries_congr ((sortEntries_perm entries).append_left _))

/-- **Entries that are not fresh are refused.** -/
theorem addEntries_of_not_fresh (h : ¬ Fresh entries new) :
    ∃ e, addEntries entries new = .error (.present e) :=
  (foldlM_addEntry (pairwise_sortEntries entries) new).2
    fun hfresh => h ((fresh_congr fun _ => mem_sortEntries).1 hfresh)

theorem addEntries_eq_ok_iff {result : List CodeText} :
    addEntries entries new = .ok result ↔
      Fresh entries new ∧ result = sortEntries (filled new ++ entries) := by
  by_cases hfresh : Fresh entries new
  · rw [addEntries_of_fresh hfresh, and_iff_right hfresh, Except.ok.injEq, eq_comm]
  · obtain ⟨e, herror⟩ := addEntries_of_not_fresh hfresh
    rw [herror]
    exact iff_of_false (fun h => by cases h) fun h => hfresh h.1

/-! ## Taking away -/

theorem dropEntry_empty (entries : List CodeText) : dropEntry entries "" = .ok entries :=
  if_pos rfl

theorem dropEntry_of_mem (hsorted : entries.Pairwise (· ≤ ·)) (hne : entry ≠ "")
    (h : entry ∈ entries) : dropEntry entries entry = .ok (entries.erase entry) := by
  rw [dropEntry, if_neg hne, removed?_of_mem hsorted h]

theorem dropEntry_of_notMem (hne : entry ≠ "") (h : entry ∉ entries) :
    dropEntry entries entry = .error (.absent entry) := by
  rw [dropEntry, if_neg hne, removed?_of_notMem h]

/-- Taking away from sorted entries, one after the other. -/
theorem foldlM_dropEntry (hsorted : entries.Pairwise (· ≤ ·)) (old : List CodeText) :
    (Held entries old → old.foldlM dropEntry entries = .ok (entries.diff (filled old))) ∧
      (¬ Held entries old → ∃ e, old.foldlM dropEntry entries = .error (.absent e)) := by
  induction old generalizing entries with
  | nil => exact ⟨fun _ => rfl, fun h => absurd List.nil_subperm h⟩
  | cons entry old ih =>
    rw [List.foldlM_cons]
    by_cases hne : entry = ""
    · subst hne
      rw [dropEntry_empty, Held, filled_cons_empty]
      exact ih hsorted
    · by_cases hmem : entry ∈ entries
      · obtain ⟨hheld, hshort⟩ := ih (pairwise_erase hsorted entry)
        rw [dropEntry_of_mem hsorted hne hmem, held_cons_iff hne, filled_cons_of_ne hne,
          List.diff_cons]
        exact ⟨fun h => hheld h.2, fun h => hshort fun hrest => h ⟨hmem, hrest⟩⟩
      · rw [dropEntry_of_notMem hne hmem, held_cons_iff hne]
        exact ⟨fun h => absurd h.1 hmem, fun _ => ⟨entry, rfl⟩⟩

/-- **Entries that are held leave the difference.** -/
theorem removeEntries_of_held (h : Held entries old) :
    removeEntries entries old = .ok (sortEntries (entries.diff (filled old))) := by
  have hsorted := pairwise_sortEntries entries
  have hfold := (foldlM_dropEntry hsorted old).1
    ((sortEntries_perm entries).subperm_left.2 h)
  rw [removeEntries, hfold]
  exact congrArg Except.ok
    (eq_sortEntries (hsorted.sublist (List.diff_sublist _ _)) ((sortEntries_perm entries).diff_right _))

/-- **Entries that are not held are refused.** -/
theorem removeEntries_of_not_held (h : ¬ Held entries old) :
    ∃ e, removeEntries entries old = .error (.absent e) :=
  (foldlM_dropEntry (pairwise_sortEntries entries) old).2
    fun hheld => h ((sortEntries_perm entries).subperm_left.1 hheld)

theorem removeEntries_eq_ok_iff {result : List CodeText} :
    removeEntries entries old = .ok result ↔
      Held entries old ∧ result = sortEntries (entries.diff (filled old)) := by
  by_cases hheld : Held entries old
  · rw [removeEntries_of_held hheld, and_iff_right hheld, Except.ok.injEq, eq_comm]
  · obtain ⟨e, herror⟩ := removeEntries_of_not_held hheld
    rw [herror]
    exact iff_of_false (fun h => by cases h) fun h => hheld h.1

end Fit

end Ledger

end NodeLedger
