import NodeLedger.Address.V6
import NodeLedger.Proofs.Address.V4

/-!
# IPv6 addresses read back

An address is printed group by group, with its longest run of zero groups left out. Reading the text
finds the gap again, since no group is empty, and fills it with as many zeros as have been left out.

- `ofGroups_toGroups`, `ofGroups_lt`: an address and its eight groups.
- `groups_eq_around_longestZeroRun`: what is left out is zeros.
- `cutGap?_showGroups_append`: the gap is found where it was left.
- `readV6?_showV6`, `readV6?_bound`: **printing and reading an address gives the address**, and
  reading never leaves the 128 bits.
-/

namespace NodeLedger.Address

open Text

/-! ## Groups of an address -/

theorem toGroups_lt {address g : Nat} (h : g ∈ toGroups address) : g < 65536 := by
  obtain ⟨i, -, rfl⟩ := List.mem_map.1 h
  exact Nat.mod_lt _ (by decide)

theorem length_toGroups (address : Nat) : (toGroups address).length = 8 := by
  rw [toGroups, List.length_map, List.length_range]

theorem ofGroups_concat (groups : List Nat) (g : Nat) :
    ofGroups (groups ++ [g]) = ofGroups groups * 65536 + g := by
  rw [ofGroups, List.foldl_append]
  rfl

theorem ofGroups_lt {groups : List Nat} (h : ∀ g ∈ groups, g < 65536) :
    ofGroups groups < 65536 ^ groups.length := by
  induction groups using List.reverseRecOn with
  | nil => exact Nat.one_pos
  | append_singleton groups g ih =>
    have hfront := ih fun g' hg' => h g' (List.mem_append_left _ hg')
    have hlast : g < 65536 := h g (List.mem_append_right _ (List.mem_singleton_self g))
    rw [ofGroups_concat, List.length_append, List.length_singleton, Nat.pow_succ]
    omega

theorem ofGroups_toGroups {address : Nat} (h : address < 2 ^ 128) :
    ofGroups (toGroups address) = address := by
  -- Written out, the eight groups are remainders of quotients by fixed powers of two.
  simp only [toGroups, List.range, List.range.loop, List.map_cons, List.map_nil, ofGroups,
    List.foldl_cons, List.foldl_nil, Nat.pow_eq]
  omega

/-! ## Groups in text -/

section Group

variable {cs : List Char} {n : Nat}

theorem hexValue?_bound {c : Char} (h : hexValue? c = some n) : n < 16 := by
  unfold hexValue? at h
  split at h
  · rename_i hc
    have hhigh : c.toNat ≤ 0x39 := UInt32.le_iff_toNat_le.1 hc.2
    cases h
    omega
  split at h
  · rename_i hc
    have hhigh : c.toNat ≤ 0x66 := UInt32.le_iff_toNat_le.1 hc.2
    cases h
    omega
  split at h
  · rename_i hc
    have hhigh : c.toNat ≤ 0x46 := UInt32.le_iff_toNat_le.1 hc.2
    cases h
    omega
  · cases h

theorem hexNumber?_bound (h : hexNumber? cs = some n) : n < 16 ^ cs.length := by
  induction cs using List.reverseRecOn generalizing n with
  | nil =>
    cases h
    exact Nat.one_pos
  | append_singleton cs c ih =>
    rw [hexNumber?_concat] at h
    obtain ⟨front, hfront, h⟩ := Option.bind_eq_some_iff.1 h
    obtain ⟨last, hlast, rfl⟩ := Option.map_eq_some_iff.1 h
    have hfront' := ih hfront
    have hlast' := hexValue?_bound hlast
    rw [List.length_append, List.length_singleton, Nat.pow_succ]
    omega

theorem group?_bound (h : group? cs = some n) : n < 65536 := by
  obtain ⟨hread, hnumber⟩ := Option.ite_none_right_eq_some.1 h
  simp only [Bool.and_eq_true, decide_eq_true_iff] at hread
  calc n < 16 ^ cs.length := hexNumber?_bound hnumber
    _ ≤ 16 ^ 4 := Nat.pow_le_pow_right (by decide) hread.2
    _ = 65536 := by decide

/-- A printed group is read back. -/
theorem group?_hex (h : n < 65536) : group? (hex n) = some n := by
  have hshort : (hex n).length ≤ 4 := (length_hex_le_iff (by decide)).2 (by omega)
  have hne : (hex n).isEmpty = false := List.isEmpty_eq_false_iff.2 (hex_ne_nil n)
  simp [group?, hshort, hne]

theorem colon_notMem_hex (n : Nat) : ':' ∉ hex n :=
  notMem_hex (by decide) n

theorem dot_notMem_hex (n : Nat) : '.' ∉ hex n :=
  notMem_hex (by decide) n

variable {texts : List (List Char)} {groups : List Nat}

theorem groups?_cons (text : List Char) (texts : List (List Char)) :
    groups? (text :: texts)
      = (group? text).bind fun g => (groups? texts).map (g :: ·) := by
  rw [groups?, List.mapM_cons]
  cases group? text with
  | none => rfl
  | some g =>
    change ((groups? texts).bind fun gs => some (g :: gs)) = (groups? texts).map (g :: ·)
    cases groups? texts <;> rfl

theorem groups?_bound (h : groups? texts = some groups) : ∀ g ∈ groups, g < 65536 := by
  induction texts generalizing groups with
  | nil =>
    cases h
    exact fun g hg => absurd hg List.not_mem_nil
  | cons text texts ih =>
    rw [groups?_cons] at h
    obtain ⟨g, hg, h⟩ := Option.bind_eq_some_iff.1 h
    obtain ⟨gs, hgs, rfl⟩ := Option.map_eq_some_iff.1 h
    exact List.forall_mem_cons.2 ⟨group?_bound hg, ih hgs⟩

theorem groups?_map_hex (h : ∀ g ∈ groups, g < 65536) : groups? (groups.map hex) = some groups := by
  induction groups with
  | nil => rfl
  | cons g groups ih =>
    obtain ⟨hg, hrest⟩ := List.forall_mem_cons.1 h
    rw [List.map_cons, groups?_cons, group?_hex hg, ih hrest]
    rfl

theorem groupsWithTail?_bound (h : groupsWithTail? texts = some groups) :
    ∀ g ∈ groups, g < 65536 := by
  induction texts using groupsWithTail?.induct generalizing groups with
  | case1 =>
    cases h
    exact fun g hg => absurd hg List.not_mem_nil
  | case2 last hdot =>
    -- An IPv4 address at the end makes up two groups.
    rw [groupsWithTail?, if_pos hdot] at h
    obtain ⟨address, hread, rfl⟩ := Option.map_eq_some_iff.1 h
    have hbound := readV4?_bound hread
    exact List.forall_mem_cons.2 ⟨by omega, List.forall_mem_singleton.2 (by omega)⟩
  | case3 last hdot =>
    rw [groupsWithTail?, if_neg hdot] at h
    obtain ⟨g, hread, rfl⟩ := Option.map_eq_some_iff.1 h
    exact List.forall_mem_singleton.2 (group?_bound hread)
  | case4 text texts hmore ih =>
    rw [groupsWithTail?] at h
    · obtain ⟨g, hg, h⟩ := Option.bind_eq_some_iff.1 h
      obtain ⟨gs, hgs, h⟩ := Option.bind_eq_some_iff.1 h
      cases h
      exact List.forall_mem_cons.2 ⟨group?_bound hg, ih hgs⟩
    · exact hmore

theorem groupsWithTail?_map_hex (h : ∀ g ∈ groups, g < 65536) :
    groupsWithTail? (groups.map hex) = some groups := by
  induction groups with
  | nil => rfl
  | cons g groups ih =>
    obtain ⟨hg, hrest⟩ := List.forall_mem_cons.1 h
    cases groups with
    | nil =>
      have hdot : (hex g).contains '.' = false := by
        rw [Bool.eq_false_iff, Ne, List.contains_iff_mem]
        exact dot_notMem_hex g
      simp only [List.map_cons, List.map_nil, groupsWithTail?, hdot, group?_hex hg]
      rfl
    | cons g' groups =>
      rw [List.map_cons, List.map_cons, groupsWithTail?, group?_hex hg, ← List.map_cons, ih hrest]
      · rfl
      · exact List.cons_ne_nil _ _

end Group

/-! ## The gap -/

section Gap

theorem take_zeroRun (groups : List Nat) :
    groups.take (zeroRun groups) = List.replicate (zeroRun groups) 0 := by
  have hprefix : groups.takeWhile (· == 0) <+: groups := List.takeWhile_prefix _
  rw [zeroRun, ← List.prefix_iff_eq_take.1 hprefix]
  refine List.eq_replicate_iff.2 ⟨rfl, fun g hg => ?_⟩
  have hzero : (g == 0) = true := List.mem_takeWhile_imp (p := (· == 0)) hg
  exact beq_iff_eq.1 hzero

/-- The run that is found starts where it says and is no longer than the zeros there. -/
theorem longestZeroRun_le (groups : List Nat) :
    (longestZeroRun groups).2 ≤ zeroRun (groups.drop (longestZeroRun groups).1) := by
  rw [longestZeroRun]
  -- The best run so far keeps the bound, whichever starts have been tried.
  generalize List.range groups.length = starts
  have hstep : ∀ (best : Nat × Nat), best.2 ≤ zeroRun (groups.drop best.1) →
      let best := starts.foldl (fun best i => if best.2 < zeroRun (groups.drop i)
        then (i, zeroRun (groups.drop i)) else best) best
      best.2 ≤ zeroRun (groups.drop best.1) := by
    induction starts with
    | nil => exact fun _ h => h
    | cons i starts ih =>
      intro best h
      refine ih _ ?_
      dsimp only
      split
      · exact Nat.le_refl _
      · exact h
  exact hstep (0, 0) (Nat.zero_le _)

/-- **What is left out is zeros.** -/
theorem groups_eq_around_longestZeroRun (groups : List Nat) :
    groups.take (longestZeroRun groups).1 ++ List.replicate (longestZeroRun groups).2 0
        ++ groups.drop ((longestZeroRun groups).1 + (longestZeroRun groups).2)
      = groups := by
  have hle := longestZeroRun_le groups
  generalize (longestZeroRun groups).1 = start at hle ⊢
  generalize (longestZeroRun groups).2 = length at hle ⊢
  have hzeros : (groups.drop start).take length = List.replicate length 0 := by
    have hrun := congrArg (List.take length) (take_zeroRun (groups.drop start))
    rwa [List.take_take, List.take_replicate, Nat.min_eq_left hle] at hrun
  rw [← hzeros, ← List.take_add, List.take_append_drop]

theorem cutGap?_cons_of_ne {c : Char} (hc : c ≠ ':') (cs : List Char) :
    cutGap? (c :: cs) = (cutGap? cs).map fun p => (c :: p.1, p.2) := by
  rw [cutGap?]
  rintro _ rfl
  exact absurd rfl hc

theorem cutGap?_append {front : List Char} (h : ':' ∉ front) (back : List Char) :
    cutGap? (front ++ back) = (cutGap? back).map fun p => (front ++ p.1, p.2) := by
  induction front with
  | nil => exact Option.map_id'.symm
  | cons c front ih =>
    obtain ⟨hne, hrest⟩ := List.ne_and_not_mem_of_not_mem_cons h
    rw [List.cons_append, cutGap?_cons_of_ne hne.symm, ih hrest, Option.map_map]
    rfl

theorem cutGap?_colon_cons {c : Char} (hc : c ≠ ':') (cs : List Char) :
    cutGap? (':' :: c :: cs) = (cutGap? (c :: cs)).map fun p => (':' :: p.1, p.2) := by
  rw [cutGap?]
  rintro _ - heq
  exact absurd (List.cons.inj heq).1 hc

theorem showGroups_cons_cons (g g' : Nat) (groups : List Nat) :
    showGroups (g :: g' :: groups) = hex g ++ ':' :: showGroups (g' :: groups) := by
  rw [showGroups, List.map_cons, List.map_cons, joinFields, List.append_assoc]
  · rfl
  · exact List.cons_ne_nil _ _

theorem exists_showGroups_cons (g : Nat) (groups : List Nat) :
    ∃ c cs, showGroups (g :: groups) = c :: cs ∧ c ∈ hex g := by
  have hhead : (showGroups (g :: groups)).head? = (hex g).head? :=
    head?_joinFields (hex_ne_nil g) [':'] (groups.map hex)
  cases hshow : showGroups (g :: groups) with
  | nil =>
    rw [hshow, List.head?_eq_some_head (hex_ne_nil g)] at hhead
    cases hhead
  | cons c cs =>
    rw [hshow] at hhead
    exact ⟨c, cs, rfl, List.mem_of_head? hhead.symm⟩

/-- **The gap is found where it was left**: printed groups hold no two colons in a row. -/
theorem cutGap?_showGroups_append (groups : List Nat) (back : List Char) :
    cutGap? (showGroups groups ++ back)
      = (cutGap? back).map fun p => (showGroups groups ++ p.1, p.2) := by
  induction groups with
  | nil => exact Option.map_id'.symm
  | cons g groups ih =>
    cases groups with
    | nil => exact cutGap?_append (colon_notMem_hex g) back
    | cons g' groups =>
      -- The next group is not empty, so the colon after this one is followed by a digit.
      obtain ⟨c, cs, hshow, hc⟩ := exists_showGroups_cons g' groups
      have hne : c ≠ ':' := by
        rintro rfl
        exact colon_notMem_hex g' hc
      rw [hshow, List.cons_append] at ih
      rw [showGroups_cons_cons, hshow, List.append_assoc, List.cons_append, List.cons_append,
        cutGap?_append (colon_notMem_hex g), cutGap?_colon_cons hne, ih, Option.map_map,
        Option.map_map]
      refine Option.map_congr fun p _ => ?_
      simp

theorem parts_showGroups (groups : List Nat) : parts (showGroups groups) = groups.map hex := by
  cases groups with
  | nil => rfl
  | cons g groups =>
    obtain ⟨c, cs, hshow, -⟩ := exists_showGroups_cons g groups
    have hne : (showGroups (g :: groups)).isEmpty = false := by rw [hshow]; rfl
    rw [parts, hne, if_neg Bool.false_ne_true]
    refine fields_joinFields (List.cons_ne_nil _ _) fun f hf => ?_
    obtain ⟨n, -, rfl⟩ := List.mem_map.1 hf
    exact colon_notMem_hex n

end Gap

/-! ## Addresses -/

section Address

variable {cs : List Char} {address : Nat}

theorem readGroups?_bound {groups : List Nat} (h : readGroups? cs = some groups) :
    groups.length = 8 ∧ ∀ g ∈ groups, g < 65536 := by
  unfold readGroups? at h
  split at h
  · obtain ⟨gs, hgs, h⟩ := Option.bind_eq_some_iff.1 h
    obtain ⟨hlength, h⟩ := Option.ite_none_right_eq_some.1 h
    cases h
    exact ⟨hlength, groupsWithTail?_bound hgs⟩
  · obtain ⟨left, hleft, h⟩ := Option.bind_eq_some_iff.1 h
    obtain ⟨right, hright, h⟩ := Option.bind_eq_some_iff.1 h
    obtain ⟨hlength, h⟩ := Option.ite_none_right_eq_some.1 h
    cases h
    constructor
    · simp only [List.length_append, List.length_replicate]
      omega
    · intro g hg
      rcases List.mem_append.1 hg with hg | hg
      · rcases List.mem_append.1 hg with hg | hg
        · exact groups?_bound hleft g hg
        · rw [List.eq_of_mem_replicate hg]
          decide
      · exact groupsWithTail?_bound hright g hg

theorem readV6?_bound (h : readV6? cs = some address) : address < 2 ^ 128 := by
  obtain ⟨groups, hgroups, rfl⟩ := Option.map_eq_some_iff.1 h
  obtain ⟨hlength, hbound⟩ := readGroups?_bound hgroups
  have hlt := ofGroups_lt hbound
  rw [hlength] at hlt
  exact Nat.lt_of_lt_of_eq hlt (by decide)

/-- The groups of a printed address are read back, with or without a gap. -/
theorem readGroups?_showV6 (address : Nat) : readGroups? (showV6 address) = some (toGroups address) := by
  have hlength := length_toGroups address
  have hbound : ∀ g ∈ toGroups address, g < 65536 := fun _ => toGroups_lt
  have haround := groups_eq_around_longestZeroRun (toGroups address)
  rw [showV6]
  generalize toGroups address = groups at *
  generalize longestZeroRun groups = run at haround ⊢
  obtain ⟨start, length⟩ := run
  dsimp only at haround ⊢
  split
  · have hgap : cutGap? (showGroups groups) = none := by
      have happend := cutGap?_showGroups_append groups []
      rwa [List.append_nil] at happend
    rw [readGroups?, hgap]
    simp only [parts_showGroups, groupsWithTail?_map_hex hbound]
    exact if_pos hlength
  · rename_i hlong
    have hgap := cutGap?_showGroups_append (groups.take start)
      (':' :: ':' :: showGroups (groups.drop (start + length)))
    have hleft : ∀ g ∈ groups.take start, g < 65536 := fun g hg => hbound g (List.mem_of_mem_take hg)
    have hright : ∀ g ∈ groups.drop (start + length), g < 65536 :=
      fun g hg => hbound g (List.mem_of_mem_drop hg)
    have hsum := congrArg List.length haround
    simp only [List.length_append, List.length_replicate, hlength] at hsum
    rw [cutGap?, Option.map_some, List.append_nil] at hgap
    rw [readGroups?, List.append_assoc, List.cons_append, List.cons_append, List.nil_append, hgap]
    simp only [parts_showGroups, groups?_map_hex hleft, groupsWithTail?_map_hex hright]
    -- The gap is filled with what the groups at both ends leave over: as many as were left out.
    change (if _ ≤ 7 then _ else none) = _
    have hfill : 8 - (groups.take start).length - (groups.drop (start + length)).length = length := by
      omega
    rw [if_pos (by omega), hfill, haround]

/-- **A printed address is read back.** -/
theorem readV6?_showV6 (h : address < 2 ^ 128) : readV6? (showV6 address) = some address := by
  rw [readV6?, readGroups?_showV6, Option.map_some, ofGroups_toGroups h]

/-- The characters of a printed address are colons and digits. -/
theorem mem_showV6 {c : Char} (h : c ∈ showV6 address) : c = ':' ∨ ∃ d < 16, c = Nat.digitChar d := by
  have hgroups : ∀ groups : List Nat, c ∈ showGroups groups → c = ':' ∨ ∃ d < 16, c = Nat.digitChar d := by
    intro groups hc
    by_cases hcolon : c = ':'
    · exact .inl hcolon
    · obtain ⟨f, hf, hcf⟩ := (mem_joinFields_iff hcolon).1 hc
      obtain ⟨n, -, rfl⟩ := List.mem_map.1 hf
      exact .inr (exists_digitChar_of_mem_hex hcf)
  unfold showV6 at h
  dsimp only at h
  split at h
  · exact hgroups _ h
  · rcases List.mem_append.1 h with h | h
    · rcases List.mem_append.1 h with h | h
      · exact hgroups _ h
      · simp only [List.mem_cons, List.not_mem_nil, or_false, or_self] at h
        exact .inl h
    · exact hgroups _ h

theorem colon_mem_showV6 (address : Nat) : ':' ∈ showV6 address := by
  have hlength := length_toGroups address
  rw [showV6]
  generalize toGroups address = groups at *
  dsimp only
  split
  · match groups, hlength with
    | g :: g' :: groups, _ =>
      rw [showGroups_cons_cons]
      exact List.mem_append_right _ List.mem_cons_self
  · exact List.mem_append_left _ (List.mem_append_right _ List.mem_cons_self)

end Address

end NodeLedger.Address
