import NodeLedger.Proofs.Address.Canonical

/-!
# Spellings of one source

A block of addresses is written in many ways, and canonical text tells whether two texts write the same
one. For IPv4 a block is an address up to its first bits together with their number, and the number may
be written out or given by a mask.

- `AgreeOn`, `clearHost_eq_iff`: addresses that are the same once the host bits are cleared.
- `maskLength?_netmask`, `maskLength?_hostmask`: a mask stands for the length that it was made for.
- `v4Text`, `canonical_v4Text_eq_iff`: **when two IPv4 texts write one block**.
-/

namespace NodeLedger.Address

open Text

/-! ## First bits -/

section Bits

variable {width length a b : Nat}

/-- Two addresses of `width` bits have the same first `length` bits. -/
def AgreeOn (width length a b : Nat) : Prop :=
  ∀ i < length, a.testBit (width - 1 - i) = b.testBit (width - 1 - i)

instance (width length a b : Nat) : Decidable (AgreeOn width length a b) :=
  inferInstanceAs (Decidable (∀ i < length, _))

/-- What is left of an address without its host bits are its first bits. -/
theorem clearHost_eq_iff (ha : a < 2 ^ width) (hb : b < 2 ^ width) (hlength : length ≤ width) :
    clearHost width length a = clearHost width length b ↔ AgreeOn width length a b := by
  have hpos : 0 < 2 ^ (width - length) := Nat.pow_pos (by decide)
  rw [clearHost, clearHost, Nat.pow_eq, Nat.mul_left_inj hpos.ne']
  constructor
  · intro heq i hi
    have hplace : width - 1 - i = length - 1 - i + (width - length) := by omega
    rw [hplace, ← Nat.testBit_div_two_pow, ← Nat.testBit_div_two_pow, heq]
  · intro hagree
    refine Nat.eq_of_testBit_eq fun j => ?_
    rw [Nat.testBit_div_two_pow, Nat.testBit_div_two_pow]
    by_cases hj : j < length
    · have hplace : j + (width - length) = width - 1 - (length - 1 - j) := by omega
      rw [hplace]
      exact hagree (length - 1 - j) (by omega)
    · -- There are no bits past the width.
      have hpast : 2 ^ width ≤ 2 ^ (j + (width - length)) :=
        Nat.pow_le_pow_right (by decide) (by omega)
      rw [Nat.testBit_lt_two_pow (Nat.lt_of_lt_of_le ha hpast),
        Nat.testBit_lt_two_pow (Nat.lt_of_lt_of_le hb hpast)]

end Bits

/-! ## Masks -/

section Mask

variable {width length other : Nat}

theorem netmask_lt (width length : Nat) : netmask width length < 2 ^ width :=
  Nat.sub_lt (Nat.pow_pos (by decide)) (Nat.pow_pos (by decide))

theorem hostmask_lt (width length : Nat) : hostmask width length < 2 ^ width := by
  have hpos : 0 < 2 ^ (width - length) := Nat.pow_pos (by decide)
  have hle : 2 ^ (width - length) ≤ 2 ^ width := Nat.pow_le_pow_right (by decide) (by omega)
  rw [hostmask, Nat.pow_eq]
  omega

theorem two_pow_sub_inj (hlength : length ≤ width) (hother : other ≤ width)
    (h : 2 ^ (width - other) = 2 ^ (width - length)) : other = length := by
  have hsub := Nat.pow_right_injective (le_refl 2) h
  omega

theorem netmask_inj (hlength : length ≤ width) (hother : other ≤ width)
    (h : netmask width other = netmask width length) : other = length := by
  have hle : 2 ^ (width - length) ≤ 2 ^ width := Nat.pow_le_pow_right (by decide) (by omega)
  have hle' : 2 ^ (width - other) ≤ 2 ^ width := Nat.pow_le_pow_right (by decide) (by omega)
  rw [netmask, netmask, Nat.pow_eq, Nat.pow_eq, Nat.pow_eq] at h
  exact two_pow_sub_inj hlength hother (by omega)

theorem hostmask_inj (hlength : length ≤ width) (hother : other ≤ width)
    (h : hostmask width other = hostmask width length) : other = length := by
  have hpos : 0 < 2 ^ (width - length) := Nat.pow_pos (by decide)
  have hpos' : 0 < 2 ^ (width - other) := Nat.pow_pos (by decide)
  rw [hostmask, hostmask, Nat.pow_eq, Nat.pow_eq] at h
  exact two_pow_sub_inj hlength hother (by omega)

/-- Only the masks of all ones and of all zeros are netmasks and hostmasks. -/
theorem hostmask_ne_netmask (hpos : 0 < length) (hlt : length < width) (other : Nat) :
    hostmask width length ≠ netmask width other := by
  intro heq
  rw [hostmask, netmask, Nat.pow_eq, Nat.pow_eq, Nat.pow_eq] at heq
  have hle : 2 ^ (width - other) ≤ 2 ^ width := Nat.pow_le_pow_right (by decide) (by omega)
  obtain ⟨host, hhost⟩ : ∃ host, width - length = host + 1 := ⟨width - length - 1, by omega⟩
  cases hrest : width - other with
  | zero =>
    -- The netmask is all ones, but a hostmask starts with zeros.
    have hless : 2 ^ (width - length) < 2 ^ width := Nat.pow_lt_pow_right (by decide) (by omega)
    rw [hrest, Nat.pow_zero] at heq
    have hone : 0 < 2 ^ (width - length) := Nat.pow_pos (by decide)
    omega
  | succ rest =>
    -- A netmask with zeros ends in one, and a hostmask with ones does not.
    obtain ⟨bits, rfl⟩ : ∃ bits, width = bits + 1 := ⟨width - 1, by omega⟩
    rw [hhost, hrest, Nat.pow_succ, Nat.pow_succ, Nat.pow_succ] at heq
    rw [hrest, Nat.pow_succ, Nat.pow_succ] at hle
    have hone : 0 < 2 ^ host := Nat.pow_pos (by decide)
    omega

/-- A netmask stands for its length. -/
theorem maskLength?_netmask (h : length ≤ width) :
    maskLength? width (netmask width length) = some length := by
  have hfound : (List.range (width + 1)).find?
      (fun other => netmask width length == netmask width other) = some length := by
    refine List.find?_range_eq_some.2 ⟨beq_self_eq_true _, List.mem_range.2 (by omega), ?_⟩
    intro other hother
    rw [Bool.not_eq_true', beq_eq_false_iff_ne]
    intro heq
    have hsame := netmask_inj h (by omega) heq.symm
    omega
  rw [maskLength?, hfound]
  rfl

/-- A hostmask stands for its length, unless it is a netmask too. -/
theorem maskLength?_hostmask (hpos : 0 < length) (hlt : length < width) :
    maskLength? width (hostmask width length) = some length := by
  have hnone : (List.range (width + 1)).find?
      (fun other => hostmask width length == netmask width other) = none := by
    refine List.find?_eq_none.2 fun other _ => ?_
    rw [beq_iff_eq]
    exact hostmask_ne_netmask hpos hlt other
  have hfound : (List.range (width + 1)).find?
      (fun other => hostmask width length == hostmask width other) = some length := by
    refine List.find?_range_eq_some.2 ⟨beq_self_eq_true _, List.mem_range.2 (by omega), ?_⟩
    intro other hother
    rw [Bool.not_eq_true', beq_eq_false_iff_ne]
    intro heq
    have hsame := hostmask_inj (by omega) (by omega) heq.symm
    omega
  rw [maskLength?, hnone, hfound]
  rfl

end Mask

/-! ## IPv4 blocks in text -/

section V4

variable {limit : List Char} {a b length other : Nat}

/-- An IPv4 address, and what limits the block after a slash. -/
def v4Text (address : Nat) (limit : List Char) : String :=
  String.ofList (showV4 address ++ '/' :: limit)

/-- What is written after the slash holds digits and dots only. -/
theorem mem_of_v4Length? (h : v4Length? limit = some length) {c : Char} (hc : c ∈ limit) :
    c = '.' ∨ isAsciiDigit c = true := by
  rw [v4Length?, Option.orElse_apply, Option.orElse_eq_or, Option.or_eq_some_iff] at h
  rcases h with hnumber | ⟨-, hmask⟩
  · obtain ⟨hread, -⟩ := Option.ite_none_right_eq_some.1 hnumber
    simp only [Bool.and_eq_true] at hread
    exact .inr (List.all_eq_true.1 hread.1.1.2 c hc)
  · obtain ⟨mask, hmask, -⟩ := Option.bind_eq_some_iff.1 hmask
    exact mem_of_readV4? hmask hc

theorem block?_v4Text (ha : a < 2 ^ 32) (h : v4Length? limit = some length) :
    block? (v4Text a limit) = some (.ofV4 a length) := by
  have hslash : '/' ∉ limit := by
    intro hmem
    rcases mem_of_v4Length? h hmem with hc | hc
    · exact absurd hc (by decide)
    · exact absurd hc (by decide)
  have hblank : ∀ c ∈ '/' :: limit, isBlank c = false := by
    intro c hc
    rcases List.mem_cons.1 hc with rfl | hc
    · decide
    · rcases mem_of_v4Length? h hc with rfl | hdigit
      · decide
      · exact isBlank_of_isAsciiDigit hdigit
  have hne : showV4 a ≠ [] := by
    intro hnil
    have hread := readV4?_showV4 ha
    rw [hnil] at hread
    exact absurd (Option.isSome_of_eq_some hread) (by decide)
  have hstrip : stripChars (showV4 a ++ '/' :: limit) = showV4 a ++ '/' :: limit := by
    refine trimBy_of_ends (fun c hc => isBlank_of_mem_showV4 (mem_of_head?_append hne hc)) ?_
    intro c hc
    rw [List.getLast?_append_of_ne_nil _ (List.cons_ne_nil _ _)] at hc
    exact hblank c (List.mem_of_getLast? hc)
  rw [block?, v4Text, String.toList_ofList, hstrip]
  unfold Block.read?
  rw [fields_append_cons (slash_notMem_showV4 a), fields_of_notMem hslash]
  simp [readV4?_showV4 ha, h]

theorem Block.ofV4_eq_iff (ha : a < 2 ^ 32) (hb : b < 2 ^ 32) (hlength : length ≤ 32) :
    Block.ofV4 a length = .ofV4 b other ↔ length = other ∧ AgreeOn 32 length a b := by
  rw [Block.ofV4, Block.ofV4, Block.v4.injEq]
  constructor
  · rintro ⟨hbase, rfl⟩
    exact ⟨rfl, (clearHost_eq_iff ha hb hlength).1 hbase⟩
  · rintro ⟨rfl, hagree⟩
    exact ⟨(clearHost_eq_iff ha hb hlength).2 hagree, rfl⟩

/-- **When two IPv4 texts write one block**, whichever way their lengths are written: the lengths are
the same, and the addresses agree on that many first bits. -/
theorem canonical_v4Text_eq_iff {limit' : List Char} (ha : a < 2 ^ 32) (hb : b < 2 ^ 32)
    (h : v4Length? limit = some length) (h' : v4Length? limit' = some other) :
    canonical (v4Text a limit) = canonical (v4Text b limit') ↔
      length = other ∧ AgreeOn 32 length a b := by
  have hread := block?_v4Text ha h
  have hread' := block?_v4Text hb h'
  rw [canonical_eq_iff, hread, hread', Option.some.injEq,
    Block.ofV4_eq_iff ha hb (v4Length?_bound h)]
  exact and_iff_left nofun

theorem dot_mem_showV4 (address : Nat) : '.' ∈ showV4 address := by
  refine Decidable.byContradiction fun hdot => ?_
  have hfields := fields_showV4 address
  rw [fields_of_notMem hdot] at hfields
  simp [octets] at hfields

/-- A mask limits a block to the length that it stands for. -/
theorem v4Length?_mask {mask : Nat} (hmask : mask < 2 ^ 32)
    (h : maskLength? 32 mask = some length) : v4Length? (showV4 mask) = some length := by
  have hnumber : prefixLength? 32 (showV4 mask) = none := by
    -- A number holds no dot.
    refine Option.eq_none_iff_forall_ne_some.2 fun number hread => ?_
    obtain ⟨hdigits, -⟩ := Option.ite_none_right_eq_some.1 hread
    simp only [Bool.and_eq_true] at hdigits
    exact absurd (List.all_eq_true.1 hdigits.1.1.2 '.' (dot_mem_showV4 mask)) (by decide)
  rw [v4Length?, hnumber, readV4?_showV4 hmask]
  exact h

end V4

end NodeLedger.Address
