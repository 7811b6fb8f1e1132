import NodeLedger.Address.V4
import NodeLedger.Proofs.Text.Fields
import NodeLedger.Proofs.Text.Numeral

/-!
# IPv4 addresses read back

An address is printed without leading zeros, and reading the text gives the address. Whatever text
an address was read from, it has 32 bits, and the text holds nothing but digits and dots.

- `clearHost_clearHost`: host bits are cleared once and for all.
- `prefixLength?_decimal`, `octet?_decimal`: printed numbers are read back.
- `readV4?_showV4`, `readV4?_bound`: **printing and reading an address gives the address**, and
  reading never leaves the 32 bits.
-/

namespace NodeLedger.Address

open Text

/-! ## Prefix lengths and masks -/

section Mask

variable {width length address : Nat} {cs : List Char}

theorem clearHost_le (width length address : Nat) : clearHost width length address ≤ address :=
  Nat.div_mul_le_self _ _

@[simp] theorem clearHost_clearHost (width length address : Nat) :
    clearHost width length (clearHost width length address) = clearHost width length address := by
  have hpos : 0 < Nat.pow 2 (width - length) := Nat.pow_pos (by decide)
  rw [clearHost, clearHost, Nat.mul_div_cancel _ hpos]

theorem prefixLength?_bound (h : prefixLength? width cs = some length) : length ≤ width := by
  obtain ⟨hread, hlength⟩ := Option.ite_none_right_eq_some.1 h
  cases hlength
  simp only [Bool.and_eq_true, decide_eq_true_iff] at hread
  exact hread.2

/-- A printed prefix length is read back. -/
theorem prefixLength?_decimal (hlength : length ≤ width) (hwidth : width ≤ 128) :
    prefixLength? width (decimal length) = some length := by
  have hshort : (decimal length).length ≤ 3 := (length_decimal_le_iff (by decide)).2 (by omega)
  have hlimit : (decimal length).length ≤ digitLimit := Nat.le_trans hshort (by decide)
  have hdigits : (decimal length).all isAsciiDigit = true :=
    List.all_eq_true.2 fun _ => isAsciiDigit_of_mem_decimal
  have hne : (decimal length).isEmpty = false := List.isEmpty_eq_false_iff.2 (decimal_ne_nil length)
  simp [prefixLength?, hlimit, hdigits, hne, hlength]

theorem maskLength?_bound {mask : Nat} (h : maskLength? width mask = some length) :
    length ≤ width := by
  rw [maskLength?, Option.orElse_apply, Option.orElse_eq_or, Option.or_eq_some_iff] at h
  rcases h with hfound | ⟨-, hfound⟩
  · have hmem := List.mem_range.1 (List.mem_of_find?_eq_some hfound)
    omega
  · have hmem := List.mem_range.1 (List.mem_of_find?_eq_some hfound)
    omega

end Mask

/-! ## Octets -/

section Octet

variable {cs : List Char} {n : Nat}

theorem octet?_bound (h : octet? cs = some n) : n ≤ 255 := by
  obtain ⟨hread, hn⟩ := Option.ite_none_right_eq_some.1 h
  cases hn
  simp only [Bool.and_eq_true, decide_eq_true_iff] at hread
  exact hread.2

theorem isAsciiDigit_of_octet? (h : octet? cs = some n) {c : Char} (hc : c ∈ cs) :
    isAsciiDigit c = true := by
  obtain ⟨hread, -⟩ := Option.ite_none_right_eq_some.1 h
  simp only [Bool.and_eq_true, decide_eq_true_iff] at hread
  exact List.all_eq_true.1 hread.1.1.2 c hc

/-- A printed octet is read back. -/
theorem octet?_decimal (h : n ≤ 255) : octet? (decimal n) = some n := by
  have hshort : (decimal n).length ≤ 3 := (length_decimal_le_iff (by decide)).2 (by omega)
  have hdigits : (decimal n).all isAsciiDigit = true :=
    List.all_eq_true.2 fun _ => isAsciiDigit_of_mem_decimal
  have hne : (decimal n).isEmpty = false := List.isEmpty_eq_false_iff.2 (decimal_ne_nil n)
  have hzero : (decimal n == ['0'] || (decimal n).head? != some '0') = true := by
    rcases Nat.eq_zero_or_pos n with rfl | hpos
    · rfl
    · rw [bne_iff_ne.2 (head?_decimal_ne_zero hpos), Bool.or_true]
  simp [octet?, hshort, hdigits, hne, hzero, h]

end Octet

/-! ## Addresses -/

section Address

variable {cs : List Char} {address : Nat}

/-- Everything that an address can be read from. -/
theorem readV4?_eq_some_iff :
    readV4? cs = some address ↔
      ∃ a b c d : List Char, fields '.' cs = [a, b, c, d] ∧
        ∃ w x y z : Nat, octet? a = some w ∧ octet? b = some x ∧ octet? c = some y ∧
          octet? d = some z ∧ address = ofOctets w x y z := by
  unfold readV4?
  constructor
  · intro h
    split at h
    · rename_i a b c d heq
      refine ⟨a, b, c, d, heq, ?_⟩
      obtain ⟨w, hw, h⟩ := Option.bind_eq_some_iff.1 h
      obtain ⟨x, hx, h⟩ := Option.bind_eq_some_iff.1 h
      obtain ⟨y, hy, h⟩ := Option.bind_eq_some_iff.1 h
      obtain ⟨z, hz, h⟩ := Option.bind_eq_some_iff.1 h
      exact ⟨w, x, y, z, hw, hx, hy, hz, (Option.some.inj h).symm⟩
    · cases h
  · rintro ⟨a, b, c, d, heq, w, x, y, z, hw, hx, hy, hz, rfl⟩
    rw [heq]
    simp [hw, hx, hy, hz]

theorem readV4?_bound (h : readV4? cs = some address) : address < 2 ^ 32 := by
  obtain ⟨a, b, c, d, -, w, x, y, z, hw, hx, hy, hz, rfl⟩ := readV4?_eq_some_iff.1 h
  have hw' := octet?_bound hw
  have hx' := octet?_bound hx
  have hy' := octet?_bound hy
  have hz' := octet?_bound hz
  rw [ofOctets]
  omega

/-- The text of an address holds digits and dots only. -/
theorem mem_of_readV4? (h : readV4? cs = some address) {c : Char} (hc : c ∈ cs) :
    c = '.' ∨ isAsciiDigit c = true := by
  obtain ⟨a, b, c', d, hfields, w, x, y, z, hw, hx, hy, hz, -⟩ := readV4?_eq_some_iff.1 h
  by_cases hdot : c = '.'
  · exact .inl hdot
  · obtain ⟨f, hf, hcf⟩ := (mem_iff_exists_fields hdot).1 hc
    rw [hfields] at hf
    simp only [List.mem_cons, List.not_mem_nil, or_false] at hf
    rcases hf with rfl | rfl | rfl | rfl
    · exact .inr (isAsciiDigit_of_octet? hw hcf)
    · exact .inr (isAsciiDigit_of_octet? hx hcf)
    · exact .inr (isAsciiDigit_of_octet? hy hcf)
    · exact .inr (isAsciiDigit_of_octet? hz hcf)

/-- A text with a colon is no IPv4 address. -/
theorem readV4?_of_mem_colon (h : ':' ∈ cs) : readV4? cs = none := by
  cases hread : readV4? cs with
  | none => rfl
  | some address =>
    rcases mem_of_readV4? hread h with hc | hc
    · exact absurd hc (by decide)
    · exact absurd hc (by decide)

theorem notMem_decimal {c : Char} (hc : isAsciiDigit c = false) (n : Nat) : c ∉ decimal n := by
  intro h
  rw [isAsciiDigit_of_mem_decimal h] at hc
  cases hc

theorem fields_showV4 (address : Nat) : fields '.' (showV4 address) = (octets address).map decimal := by
  refine fields_joinFields (List.cons_ne_nil _ _) fun f hf => ?_
  obtain ⟨n, -, rfl⟩ := List.mem_map.1 hf
  exact notMem_decimal (by decide) n

/-- The characters of a printed address are digits and dots. -/
theorem mem_showV4 {c : Char} (h : c ∈ showV4 address) : c = '.' ∨ isAsciiDigit c = true := by
  by_cases hdot : c = '.'
  · exact .inl hdot
  · obtain ⟨f, hf, hcf⟩ := (mem_iff_exists_fields hdot).1 h
    rw [fields_showV4] at hf
    obtain ⟨n, -, rfl⟩ := List.mem_map.1 hf
    exact .inr (isAsciiDigit_of_mem_decimal hcf)

/-- **A printed address is read back.** -/
theorem readV4?_showV4 (h : address < 2 ^ 32) : readV4? (showV4 address) = some address := by
  refine readV4?_eq_some_iff.2 ⟨_, _, _, _, fields_showV4 address, _, _, _, _,
    octet?_decimal (by omega), octet?_decimal (by omega), octet?_decimal (by omega),
    octet?_decimal (by omega), ?_⟩
  rw [ofOctets]
  omega

theorem v4Length?_bound {length : Nat} (h : v4Length? cs = some length) : length ≤ 32 := by
  rw [v4Length?, Option.orElse_apply, Option.orElse_eq_or, Option.or_eq_some_iff] at h
  rcases h with hread | ⟨-, hmask⟩
  · exact prefixLength?_bound hread
  · obtain ⟨mask, -, hmask⟩ := Option.bind_eq_some_iff.1 hmask
    exact maskLength?_bound hmask

theorem v4Length?_decimal {length : Nat} (h : length ≤ 32) :
    v4Length? (decimal length) = some length := by
  rw [v4Length?, prefixLength?_decimal h (by decide)]
  rfl

end Address

end NodeLedger.Address
