import NodeLedger.Text.CodeText

/-!
# Sorted entries

The ledger keeps its entries sorted by code point. Entries are added and taken away one at a time;
an empty entry is skipped.

- `inserted?`: sorted entries with one more, unless it is there already.
- `removed?`: sorted entries with one less, unless it is absent.
- `addEntries`, `removeEntries`: the same for lists of entries, whatever the order of the entries
  that are there. The first entry that does not fit is reported.
-/

namespace NodeLedger.Ledger

/-- An entry that does not fit. -/
inductive EntryFault where
  | present (entry : CodeText)
  | absent (entry : CodeText)
  deriving Repr, DecidableEq

/-- Sorted entries with one more. -/
def inserted? (entry : CodeText) : List CodeText → Option (List CodeText)
  | [] => some [entry]
  | e :: entries =>
    if e < entry then (inserted? entry entries).map (e :: ·)
    else if e = entry then none
    else some (entry :: e :: entries)

/-- Sorted entries with one less. -/
def removed? (entry : CodeText) : List CodeText → Option (List CodeText)
  | [] => none
  | e :: entries =>
    if e < entry then (removed? entry entries).map (e :: ·)
    else if e = entry then some entries
    else none

/-- Entries in the order of code points. -/
def sortEntries (entries : List CodeText) : List CodeText :=
  entries.mergeSort fun a b => a ≤ b

/-- Add an entry to sorted ones. -/
def addEntry (entries : List CodeText) (entry : CodeText) : Except EntryFault (List CodeText) :=
  if entry = "" then .ok entries
  else
    match inserted? entry entries with
    | some entries => .ok entries
    | none => .error (.present entry)

/-- Take an entry away from sorted ones. -/
def dropEntry (entries : List CodeText) (entry : CodeText) : Except EntryFault (List CodeText) :=
  if entry = "" then .ok entries
  else
    match removed? entry entries with
    | some entries => .ok entries
    | none => .error (.absent entry)

/-- Add entries, one after the other. -/
def addEntries (entries new : List CodeText) : Except EntryFault (List CodeText) :=
  new.foldlM addEntry (sortEntries entries)

/-- Take entries away, one after the other. -/
def removeEntries (entries old : List CodeText) : Except EntryFault (List CodeText) :=
  old.foldlM dropEntry (sortEntries entries)

/-! ## One entry -/

theorem mem_of_inserted? {entry : CodeText} {entries result : List CodeText}
    (h : inserted? entry entries = some result) :
    ∀ e, e ∈ result ↔ e = entry ∨ e ∈ entries := by
  induction entries generalizing result with
  | nil =>
    intro e
    simp only [inserted?, Option.some.injEq] at h
    simp [← h]
  | cons first rest ih =>
    intro e
    rw [inserted?] at h
    split at h
    · obtain ⟨tail, htail, rfl⟩ := Option.map_eq_some_iff.1 h
      have hmem := ih htail e
      simp only [List.mem_cons, hmem]
      exact or_left_comm
    · split at h
      · exact absurd h (by simp)
      · cases h
        simp

end NodeLedger.Ledger
