import Mathlib.Data.List.Nodup

/-!
# Elements that replace others

A list whose elements have keys takes up an element: in the place of the first one that has its key, or
at the end. Keys may repeat in the list; where they do not, this is a map that is written to.

- `upsert`: the list afterwards.
- `mem_upsert_iff`: what is in it, where keys are distinct.
- `nodup_keys_upsert`: keys stay distinct.
- `filterMap_upsert`: **what shows of a list takes up what shows of the element**, as long as nothing
  hidden has its key.
-/

namespace NodeLedger

section

variable {α β κ : Type} [DecidableEq κ] {key : α → κ} {as : List α} {a new : α}

/-- The list with an element in the place of the first one that has its key, or at the end. -/
def upsert (key : α → κ) : List α → α → List α
  | [], new => [new]
  | a :: as, new => if key a = key new then new :: as else a :: upsert key as new

theorem mem_of_mem_upsert (h : a ∈ upsert key as new) : a ∈ as ∨ a = new := by
  induction as with
  | nil => exact .inr (List.mem_singleton.1 h)
  | cons first as ih =>
    rw [upsert] at h
    by_cases hfirst : key first = key new
    · rw [if_pos hfirst] at h
      rcases List.mem_cons.1 h with rfl | hlater
      · exact .inr rfl
      · exact .inl (List.mem_cons_of_mem _ hlater)
    · rw [if_neg hfirst] at h
      rcases List.mem_cons.1 h with rfl | hlater
      · exact .inl List.mem_cons_self
      · exact (ih hlater).imp_left (List.mem_cons_of_mem _)

/-- An element of another key stays. -/
theorem mem_upsert_of_ne (h : a ∈ as) (hne : key a ≠ key new) : a ∈ upsert key as new := by
  induction as with
  | nil => cases h
  | cons first as ih =>
    rw [upsert]
    by_cases hfirst : key first = key new
    · -- What is replaced has the key of the new element.
      rw [if_pos hfirst]
      rcases List.mem_cons.1 h with rfl | hlater
      · exact absurd hfirst hne
      · exact List.mem_cons_of_mem _ hlater
    · rw [if_neg hfirst]
      rcases List.mem_cons.1 h with rfl | hlater
      · exact List.mem_cons_self
      · exact List.mem_cons_of_mem _ (ih hlater)

/-- Where keys are distinct, the other elements are those of other keys. -/
theorem mem_upsert_iff (h : (as.map key).Nodup) (hne : a ≠ new) :
    a ∈ upsert key as new ↔ a ∈ as ∧ key a ≠ key new := by
  constructor
  · intro hmem
    induction as with
    | nil => exact absurd (List.mem_singleton.1 hmem) hne
    | cons first as ih =>
      obtain ⟨hnotin, hrest⟩ := List.nodup_cons.1 h
      rw [upsert] at hmem
      by_cases hfirst : key first = key new
      · rw [if_pos hfirst] at hmem
        have hlater := (List.mem_cons.1 hmem).resolve_left hne
        refine ⟨List.mem_cons_of_mem _ hlater, fun heq => hnotin ?_⟩
        exact List.mem_map.2 ⟨a, hlater, heq.trans hfirst.symm⟩
      · rw [if_neg hfirst] at hmem
        rcases List.mem_cons.1 hmem with rfl | hlater
        · exact ⟨List.mem_cons_self, hfirst⟩
        · obtain ⟨hthere, hother⟩ := ih hrest hlater
          exact ⟨List.mem_cons_of_mem _ hthere, hother⟩
  · rintro ⟨hthere, hother⟩
    exact mem_upsert_of_ne hthere hother

theorem nodup_keys_upsert (h : (as.map key).Nodup) (new : α) :
    ((upsert key as new).map key).Nodup := by
  induction as with
  | nil => exact List.nodup_singleton _
  | cons first as ih =>
    obtain ⟨hnotin, hrest⟩ := List.nodup_cons.1 h
    rw [upsert]
    by_cases hfirst : key first = key new
    · rw [if_pos hfirst]
      have hnew : key new ∉ as.map key := hfirst ▸ hnotin
      exact List.nodup_cons.2 ⟨hnew, hrest⟩
    · rw [if_neg hfirst]
      refine List.nodup_cons.2 ⟨fun hmem => ?_, ih hrest⟩
      obtain ⟨other, hother, hkey⟩ := List.mem_map.1 hmem
      rcases mem_of_mem_upsert hother with hthere | rfl
      · exact hnotin (List.mem_map.2 ⟨other, hthere, hkey⟩)
      · exact hfirst hkey.symm

/-- Showing a part of the list, with keys as they are, and taking up an element commute, unless the
element would replace a hidden one. -/
theorem filterMap_upsert {shown? : α → Option β} {shownKey : β → κ} {b : β}
    (hkey : ∀ a b, shown? a = some b → shownKey b = key a) (hnew : shown? new = some b)
    (hhidden : ∀ a ∈ as, shown? a = none → key a ≠ key new) :
    (upsert key as new).filterMap shown? = upsert shownKey (as.filterMap shown?) b := by
  induction as with
  | nil =>
    show [new].filterMap shown? = [b]
    rw [List.filterMap_cons_some hnew, List.filterMap_nil]
  | cons first as ih =>
    obtain ⟨hfirst, hrest⟩ := List.forall_mem_cons.1 hhidden
    rw [upsert]
    cases hseen : shown? first with
    | none =>
      -- A hidden element has another key, and shows neither before nor after.
      rw [if_neg (hfirst hseen), List.filterMap_cons_none hseen, List.filterMap_cons_none hseen,
        ih hrest]
    | some seen =>
      rw [List.filterMap_cons_some hseen, upsert, hkey first seen hseen, hkey new b hnew]
      by_cases hsame : key first = key new
      · rw [if_pos hsame, if_pos hsame, List.filterMap_cons_some hnew]
      · rw [if_neg hsame, if_neg hsame, List.filterMap_cons_some hseen, ih hrest]

end

end NodeLedger
