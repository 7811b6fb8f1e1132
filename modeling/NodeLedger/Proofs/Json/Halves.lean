import NodeLedger.Json.Document
import NodeLedger.Proofs.Json.Escape
import NodeLedger.Proofs.Sequence

/-!
# What is read splits no character

Two escapes that make up a surrogate pair are read as one character. So a text that was read never
holds the two halves of a character side by side, whatever it was read from; such a text can be
printed and read again.

- `LowHalfAhead`: what is left to read starts with the escape of a low half.
- `unsplit_of_readString`: **a string that was read is unsplit**.
- `IsRead`: a value that was read at some depth of a document; `isRead_of_readBytes`,
  `isRead_of_mem_arr`, `isRead_of_mem_obj`: the parts of a document that was read.
-/

namespace NodeLedger.Json

open Text

/-! ## Halves -/

/-- What is left starts with the escape of a low half. -/
def LowHalfAhead (cs : List Char) : Prop :=
  ∃ next m after, cs = '\\' :: 'u' :: next ∧ readUnit next = .ok (m, after) ∧
    isLowSurrogate m = true

section Points

variable {cs rest : List Char} {opened fuel n : Nat} {p : CodePoint} {points : List CodePoint}

/-- A unit that makes a half is its number. -/
theorem eq_of_toNat_ofUnit (h : 0xd800 ≤ (CodePoint.ofUnit n).toNat)
    (h' : (CodePoint.ofUnit n).toNat < 0xe000) : (CodePoint.ofUnit n).toNat = n := by
  unfold CodePoint.ofUnit at h h' ⊢
  split
  · rename_i hhalf
    show 0xd800 + (n - 0xd800) = n
    omega
  · rename_i hplain
    rw [dif_neg hplain, CodePoint.toNat] at h h'
    have hne := CodePoint.toNat_lt_or_lt (Char.ofNat n)
    omega

theorem isHighSurrogate_of_ofUnit (h : isHighSurrogate (CodePoint.ofUnit n).toNat = true) :
    isHighSurrogate n = true := by
  have hbounds := h
  rw [isHighSurrogate, Bool.and_eq_true, decide_eq_true_iff, decide_eq_true_iff] at hbounds
  rwa [eq_of_toNat_ofUnit hbounds.1 (by omega)] at h

theorem isLowSurrogate_of_ofUnit (h : isLowSurrogate (CodePoint.ofUnit n).toNat = true) :
    isLowSurrogate n = true := by
  have hbounds := h
  rw [isLowSurrogate, Bool.and_eq_true, decide_eq_true_iff, decide_eq_true_iff] at hbounds
  rwa [eq_of_toNat_ofUnit (by omega) hbounds.2] at h

/-- No character is a half. -/
theorem not_surrogate_char (c : Char) :
    isHighSurrogate (CodePoint.char c).toNat = false ∧
      isLowSurrogate (CodePoint.char c).toNat = false := by
  have hne := CodePoint.toNat_lt_or_lt c
  rw [isHighSurrogate, isLowSurrogate, CodePoint.toNat, Bool.and_eq_false_iff,
    Bool.and_eq_false_iff]
  simp only [decide_eq_false_iff_not]
  omega

/-- Something follows the four digits of a unit. -/
theorem four_lt_length_of_readUnit (h : readUnit cs = .ok (n, rest)) : 4 < cs.length := by
  unfold readUnit at h
  split at h
  · rename_i a b c d tail
    split at h
    · split at h
      · cases h
      · rename_i hsome
        have hpos : 0 < tail.length := List.length_pos_of_ne_nil (mt List.isEmpty_iff.2 hsome)
        simp only [List.length_cons]
        omega
    · cases h
  · cases h

/-- An escape is a character, or the half of its unit. A high half stands alone: no low half is ahead
of it. -/
theorem cases_of_readUnicodeEscape (h : readUnicodeEscape cs = .ok (p, rest)) :
    (∃ c, p = .char c) ∨
      ∃ n, readUnit cs = .ok (n, rest) ∧ p = .ofUnit n ∧
        (isHighSurrogate n = true → ¬ LowHalfAhead rest) := by
  obtain ⟨⟨n, tail⟩, hread, h⟩ := exists_of_bind_eq_ok h
  dsimp only at h
  split at h
  · rename_i next hhigh
    obtain ⟨⟨m, after⟩, hnext, h⟩ := exists_of_bind_eq_ok h
    dsimp only at h
    split at h
    · cases h
      exact .inl ⟨_, rfl⟩
    · rename_i hlow
      cases h
      refine .inr ⟨n, hread, rfl, fun _ hahead => ?_⟩
      obtain ⟨next', m', after', heq, hread', hlow'⟩ := hahead
      cases heq
      rw [hnext] at hread'
      cases hread'
      exact hlow hlow'
  · rename_i hnone
    cases h
    refine .inr ⟨n, hread, rfl, fun hhigh hahead => ?_⟩
    obtain ⟨next, m, after, rfl, hnext, -⟩ := hahead
    -- The second escape is looked for, because a low half is never the end of a text.
    have hlong := four_lt_length_of_readUnit hnext
    have hmore : (next.drop 4).isEmpty = false := by
      rw [List.isEmpty_eq_false_iff, ← List.length_pos_iff_ne_nil, List.length_drop]
      omega
    refine hnone next ?_ rfl
    rw [hhigh, List.drop_succ_cons, List.drop_succ_cons, hmore]
    rfl

theorem cases_of_readStringPoint (h : readStringPoint opened cs = .ok (some p, rest)) :
    (∃ c, p = .char c) ∨
      ∃ next, cs = '\\' :: 'u' :: next ∧ readUnicodeEscape next = .ok (p, rest) := by
  unfold readStringPoint at h
  split at h
  · cases h
  · cases h
  · cases h
  · rename_i next
    obtain ⟨escape, hread, heq⟩ := exists_of_map_eq_ok h
    cases heq
    exact .inr ⟨next, rfl, hread⟩
  · split at h
    · cases h
      exact .inl ⟨_, rfl⟩
    · cases h
  · split at h
    · cases h
    · cases h
      exact .inl ⟨_, rfl⟩

/-- A low half is read where one is ahead. -/
theorem lowHalfAhead_of_readStringPoint (h : readStringPoint opened cs = .ok (some p, rest))
    (hlow : isLowSurrogate p.toNat = true) : LowHalfAhead cs := by
  obtain ⟨c, rfl⟩ | ⟨next, rfl, hread⟩ := cases_of_readStringPoint h
  · rw [(not_surrogate_char c).2] at hlow
    cases hlow
  · obtain ⟨c, rfl⟩ | ⟨n, hunit, rfl, -⟩ := cases_of_readUnicodeEscape hread
    · rw [(not_surrogate_char c).2] at hlow
      cases hlow
    · exact ⟨next, n, rest, rfl, hunit, isLowSurrogate_of_ofUnit hlow⟩

/-- No low half is ahead of a high half that was read. -/
theorem not_lowHalfAhead_of_readStringPoint (h : readStringPoint opened cs = .ok (some p, rest))
    (hhigh : isHighSurrogate p.toNat = true) : ¬ LowHalfAhead rest := by
  obtain ⟨c, rfl⟩ | ⟨next, -, hread⟩ := cases_of_readStringPoint h
  · rw [(not_surrogate_char c).1] at hhigh
    cases hhigh
  · obtain ⟨c, rfl⟩ | ⟨n, -, rfl, halone⟩ := cases_of_readUnicodeEscape hread
    · rw [(not_surrogate_char c).1] at hhigh
      cases hhigh
    · exact halone (isHighSurrogate_of_ofUnit hhigh)

/-- The points that are read split no character, and start with a low half only where one is
ahead. -/
theorem unsplit_of_readStringPoints
    (h : readStringPoints opened fuel cs = .ok (points, rest)) :
    CodeText.Unsplit ⟨points⟩ ∧
      ∀ q ∈ points.head?, isLowSurrogate q.toNat = true → LowHalfAhead cs := by
  -- The second half tells the point before these what follows it.
  induction fuel generalizing cs points with
  | zero => cases h
  | succ fuel ih =>
    obtain ⟨⟨first, tail⟩, hpoint, h⟩ := exists_of_bind_eq_ok h
    cases first with
    | none =>
      cases h
      exact ⟨List.isChain_nil, fun q hq => by cases hq⟩
    | some p =>
      obtain ⟨⟨more, last⟩, hmore, h⟩ := exists_of_bind_eq_ok h
      cases h
      obtain ⟨hchain, hahead⟩ := ih hmore
      constructor
      · refine List.isChain_cons.2 ⟨fun q hq hsplit => ?_, hchain⟩
        exact not_lowHalfAhead_of_readStringPoint hpoint hsplit.1 (hahead q hq hsplit.2)
      · intro q hq hlow
        cases hq
        exact lowHalfAhead_of_readStringPoint hpoint hlow

/-- **A string that was read is unsplit.** -/
theorem unsplit_of_readString {text : CodeText} (h : readString cs = .ok (text, rest)) :
    text.Unsplit := by
  obtain ⟨⟨points, tail⟩, hpoints, h⟩ := exists_of_bind_eq_ok h
  cases h
  exact (unsplit_of_readStringPoints hpoints).1

end Points

/-! ## Values -/

/-- A value without parts, whose text is unsplit if it has one. -/
inductive Leaf : Json → Prop
  | null : Leaf .null
  | bool (value : Bool) : Leaf (.bool value)
  | int (value : Int) : Leaf (.int value)
  | float (value : Binary64) : Leaf (.float value)
  | str (text : CodeText) (h : text.Unsplit) : Leaf (.str text)

/-- The value was read, at some depth of a document. -/
def IsRead (value : Json) : Prop :=
  ∃ depth fuel cs rest, readValue depth fuel cs = .ok (value, rest)

section Values

variable {value : Json} {text : CodeText} {items : List Json}
  {before members : List (CodeText × Json)} {cs rest : List Char} {depth fuel : Nat}

theorem leaf_of_readWord? (h : readWord? cs = some (value, rest)) : Leaf value := by
  obtain ⟨⟨word, read⟩, hword, hafter⟩ := List.exists_of_findSome?_eq_some h
  obtain ⟨tail, -, heq⟩ := Option.map_eq_some_iff.1 hafter
  cases heq
  simp only [List.mem_cons, List.not_mem_nil, or_false, Prod.mk.injEq] at hword
  rcases hword with ⟨-, rfl⟩ | ⟨-, rfl⟩ | ⟨-, rfl⟩ | ⟨-, rfl⟩ | ⟨-, rfl⟩ | ⟨-, rfl⟩
  · exact .null
  · exact .bool true
  · exact .bool false
  · exact .float _
  · exact .float _
  · exact .float _

theorem leaf_of_readNumber (h : readNumber cs = .ok (value, rest)) : Leaf value := by
  unfold readNumber at h
  dsimp only at h
  split at h
  · cases h
  · split at h
    · split at h
      · cases h
      · cases h
        exact .int _
    · cases h
      exact .float _

/-- A scalar that was read has no parts. -/
theorem leaf_of_readScalar (h : readScalar cs = .ok (value, rest)) : Leaf value := by
  unfold readScalar at h
  split at h
  · obtain ⟨⟨text, tail⟩, hread, h⟩ := exists_of_map_eq_ok h
    cases h
    exact .str text (unsplit_of_readString hread)
  · split at h
    · rename_i hword
      cases h
      exact leaf_of_readWord? hword
    · exact leaf_of_readNumber h

/-- The items of an array were read. -/
theorem isRead_of_readItems (h : readItems depth fuel cs = .ok (items, rest)) :
    ∀ item ∈ items, IsRead item := by
  induction fuel generalizing cs items with
  | zero => cases h
  | succ fuel ih =>
    obtain ⟨⟨first, tail⟩, hitem, h⟩ := exists_of_bind_eq_ok h
    have hfirst : IsRead first := ⟨depth, fuel, cs, tail, hitem⟩
    obtain ⟨⟨goesOn, tail'⟩, -, h⟩ := exists_of_bind_eq_ok h
    cases goesOn with
    | false =>
      cases h
      exact List.forall_mem_singleton.2 hfirst
    | true =>
      obtain ⟨⟨others, last⟩, hrest, h⟩ := exists_of_bind_eq_ok h
      cases h
      exact List.forall_mem_cons.2 ⟨hfirst, ih hrest⟩

theorem mem_setMember {name : CodeText} {member : CodeText × Json}
    (h : member ∈ setMember members name value) : member.2 = value ∨ member ∈ members := by
  induction members with
  | nil =>
    rw [setMember, List.mem_singleton] at h
    exact .inl (congrArg Prod.snd h)
  | cons first members ih =>
    rw [setMember] at h
    split at h
    · rcases List.mem_cons.1 h with rfl | hrest
      · exact .inl rfl
      · exact .inr (List.mem_cons_of_mem _ hrest)
    · rcases List.mem_cons.1 h with rfl | hrest
      · exact .inr List.mem_cons_self
      · exact (ih hrest).imp_right (List.mem_cons_of_mem _)

/-- The values of the members of an object were read. -/
theorem isRead_of_readMembers (h : readMembers depth fuel before cs = .ok (members, rest))
    (hbefore : ∀ member ∈ before, IsRead member.2) : ∀ member ∈ members, IsRead member.2 := by
  induction fuel generalizing cs before with
  | zero => cases h
  | succ fuel ih =>
    obtain ⟨⟨name, tail⟩, -, h⟩ := exists_of_bind_eq_ok h
    obtain ⟨⟨value, tail'⟩, hvalue, h⟩ := exists_of_bind_eq_ok h
    have hset : ∀ member ∈ setMember before name value, IsRead member.2 := by
      intro member hmem
      rcases mem_setMember hmem with heq | hold
      · exact ⟨depth, fuel, tail, tail', heq ▸ hvalue⟩
      · exact hbefore member hold
    obtain ⟨⟨goesOn, tail''⟩, -, h⟩ := exists_of_bind_eq_ok h
    cases goesOn with
    | false =>
      cases h
      exact hset
    | true => exact ih h hset

/-- **A value that was read has parts that were read**, or none. -/
theorem IsRead.cases (h : IsRead value) :
    Leaf value ∨ (∃ items, value = .arr items ∧ ∀ item ∈ items, IsRead item) ∨
      ∃ members, value = .obj members ∧ ∀ member ∈ members, IsRead member.2 := by
  obtain ⟨depth, fuel, cs, rest, h⟩ := h
  -- The first character tells an array and an object from a scalar.
  cases fuel with
  | zero => cases h
  | succ fuel =>
    rw [readValue.eq_def] at h
    dsimp only at h
    split at h
    · split at h
      · cases h
      · split at h
        · cases h
          exact .inr (.inl ⟨[], rfl, List.forall_mem_nil _⟩)
        · obtain ⟨⟨items, tail⟩, hitems, h⟩ := exists_of_map_eq_ok h
          cases h
          exact .inr (.inl ⟨items, rfl, isRead_of_readItems hitems⟩)
    · split at h
      · cases h
      · split at h
        · cases h
          exact .inr (.inr ⟨[], rfl, List.forall_mem_nil _⟩)
        · obtain ⟨⟨members, tail⟩, hmembers, h⟩ := exists_of_map_eq_ok h
          cases h
          exact .inr (.inr ⟨members, rfl, isRead_of_readMembers hmembers (List.forall_mem_nil _)⟩)
    · exact .inl (leaf_of_readScalar h)

theorem IsRead.unsplit (h : IsRead (.str text)) : text.Unsplit := by
  rcases h.cases with hleaf | ⟨items, heq, -⟩ | ⟨members, heq, -⟩
  · cases hleaf with
    | str _ hunsplit => exact hunsplit
  · cases heq
  · cases heq

theorem IsRead.of_mem_arr (h : IsRead (.arr items)) {item : Json} (hitem : item ∈ items) :
    IsRead item := by
  rcases h.cases with hleaf | ⟨_, heq, hitems⟩ | ⟨members, heq, -⟩
  · cases hleaf
  · cases heq
    exact hitems item hitem
  · cases heq

theorem IsRead.of_mem_obj (h : IsRead (.obj members)) {member : CodeText × Json}
    (hmember : member ∈ members) : IsRead member.2 := by
  rcases h.cases with hleaf | ⟨items, heq, -⟩ | ⟨_, heq, hmembers⟩
  · cases hleaf
  · cases heq
  · cases heq
    exact hmembers member hmember

theorem isRead_of_readWhole [Nesting] (h : readWhole cs = .ok value) : IsRead value := by
  unfold readWhole at h
  split at h
  · cases h
  · obtain ⟨⟨read, tail⟩, hread, h⟩ := exists_of_bind_eq_ok h
    dsimp only at h
    split at h
    · cases h
      exact ⟨_, _, _, tail, hread⟩
    · cases h

/-- The value of a document was read. -/
theorem isRead_of_readBytes [Nesting] {bytes : List UInt8} (h : readBytes bytes = .ok value) :
    IsRead value := by
  unfold readBytes at h
  split at h
  · cases h
  · rename_i chars hdecode
    have hread := eq_ok_of_mapError_eq_ok h
    unfold read at hread
    split at hread
    · rename_i whole hwhole
      cases hread
      exact isRead_of_readWhole hwhole
    · cases hread
    · cases hread
    · cases hread

end Values

end NodeLedger.Json
