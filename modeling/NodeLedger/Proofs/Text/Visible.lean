import NodeLedger.Text.ControlSequence

/-!
# Halves in what is shown

A line can be written if it holds no lone half. The control sequences that are taken out of it hold
none, so it can be written exactly if the whole text holds none.

- `CodeText.HasHalf`: a text that is no string.
- `CodeText.isOk_proper_iff`: only a half keeps a text from being a string.
- `CodeText.hasHalf_visible_iff`: **taking control sequences out of a text takes no half out of it**.
-/

namespace NodeLedger

/-- A half is beyond every character of a control sequence. -/
theorem CodePoint.isHalf_of_toNat_lt {point : CodePoint} (h : point.toNat < 0xd800) :
    point.isHalf = false := by
  cases point with
  | char c => rfl
  | half number =>
    rw [CodePoint.toNat] at h
    omega

namespace CodeText

/-- Somewhere in the text is a half. -/
def HasHalf (text : CodeText) : Prop :=
  ∃ point ∈ text.points, point.isHalf = true

instance (text : CodeText) : Decidable text.HasHalf :=
  inferInstanceAs (Decidable (∃ point ∈ text.points, point.isHalf = true))

section Halves

variable {text other : CodeText} {held shown points : List CodePoint} {point : CodePoint}

theorem not_hasHalf_ofString (s : String) : ¬ (ofString s).HasHalf := by
  rintro ⟨point, hpoint, hhalf⟩
  obtain ⟨c, -, rfl⟩ := List.mem_map.1 hpoint
  cases hhalf

theorem hasHalf_append_iff : (text ++ other).HasHalf ↔ text.HasHalf ∨ other.HasHalf := by
  show (∃ point ∈ text.points ++ other.points, _) ↔ _
  simp only [List.mem_append, or_and_right, exists_or]
  rfl

theorem isOk_properFrom_iff (position : Nat) :
    (properFrom position points).isOk = true ↔ ∀ point ∈ points, point.isHalf = false := by
  induction points generalizing position with
  | nil => exact iff_of_true rfl (List.forall_mem_nil _)
  | cons point points ih =>
    rw [List.forall_mem_cons]
    cases point with
    | half number => exact iff_of_false Bool.false_ne_true fun h => Bool.false_ne_true h.1.symm
    | char c =>
      rw [properFrom, and_iff_right (show (CodePoint.char c).isHalf = false from rfl),
        ← ih (position + 1)]
      cases properFrom (position + 1) points <;> rfl

/-- **Only a half keeps a text from being a string.** -/
theorem isOk_proper_iff : text.proper.isOk = true ↔ ¬ text.HasHalf := by
  have hpoints : text.proper.isOk = (properFrom 0 text.points).isOk := by
    rw [proper]
    cases properFrom 0 text.points <;> rfl
  rw [hpoints, isOk_properFrom_iff, HasHalf, not_exists]
  exact forall_congr' fun point => by rw [not_and, Bool.not_eq_true]

/-! ## Control sequences -/

theorem not_isHalf_of_goesOn (h : goesOn held point = true) : point.isHalf = false := by
  unfold goesOn at h
  split at h
  · cases h
  · rw [beq_iff_eq] at h
    rw [h]
    rfl
  · refine CodePoint.isHalf_of_toNat_lt ?_
    simp only [isIntermediate, isParameter, Bool.or_eq_true, Bool.and_eq_true, decide_eq_true_eq] at h
    omega

theorem not_isHalf_of_endsWith (h : endsWith held point = true) : point.isHalf = false := by
  unfold endsWith at h
  split at h
  · cases h
  · cases h
  · refine CodePoint.isHalf_of_toNat_lt ?_
    simp only [isFinal, Bool.and_eq_true, decide_eq_true_eq] at h
    omega

/-- What is held back may be taken out, so it must not hold a half; every other half is kept. -/
theorem mem_visibleFrom_iff {half : CodePoint} (hhalf : half.isHalf = true)
    (hheld : ∀ point ∈ held, point.isHalf = false) :
    half ∈ visibleFrom held shown points ↔ half ∈ shown ∨ half ∈ points := by
  have hne : ∀ {point : CodePoint}, point.isHalf = false → half ≠ point := by
    rintro point hpoint rfl
    rw [hpoint] at hhalf
    cases hhalf
  have hnotMem : half ∉ held := fun hmem => hne (hheld half hmem) rfl
  induction points generalizing held shown with
  | nil =>
    rw [visibleFrom, List.mem_reverse, List.mem_append, or_iff_right hnotMem,
      or_iff_left List.not_mem_nil]
  | cons point points ih =>
    have hnil : ∀ point ∈ ([] : List CodePoint), point.isHalf = false := List.forall_mem_nil _
    rw [visibleFrom]
    split
    · rename_i hgoes
      have hpoint := not_isHalf_of_goesOn hgoes
      refine (ih (List.forall_mem_cons.2 ⟨hpoint, hheld⟩)
        (fun hmem => (List.mem_cons.1 hmem).elim (hne hpoint) hnotMem)).trans ?_
      rw [List.mem_cons, or_iff_right (hne hpoint)]
    split
    · rename_i hends
      refine (ih hnil List.not_mem_nil).trans ?_
      rw [List.mem_cons, or_iff_right (hne (not_isHalf_of_endsWith hends))]
    split
    · rename_i hescape
      have hpoint : point.isHalf = false := hescape ▸ rfl
      refine (ih (List.forall_mem_singleton.2 hpoint)
        (fun hmem => hne hpoint (List.mem_singleton.1 hmem))).trans ?_
      rw [List.mem_append, or_iff_right hnotMem, List.mem_cons, or_iff_right (hne hpoint)]
    · refine (ih hnil List.not_mem_nil).trans ?_
      rw [List.cons_append, List.mem_cons, List.mem_append, or_iff_right hnotMem, List.mem_cons,
        or_assoc, or_left_comm]

/-- **Taking control sequences out of a text takes no half out of it.** -/
theorem hasHalf_visible_iff : text.visible.HasHalf ↔ text.HasHalf := by
  refine exists_congr fun point => and_congr_left fun hhalf => ?_
  rw [visible, mem_visibleFrom_iff hhalf (List.forall_mem_nil _), or_iff_right List.not_mem_nil]

end Halves

end CodeText

end NodeLedger
