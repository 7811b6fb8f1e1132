import Mathlib.Algebra.Group.Nat.Defs
import NodeLedger.Text.Digit
import NodeLedger.Text.Hex

/-!
# Numerals read back

The numerals that are printed, decimal and hexadecimal, stand for the numbers that they were printed
from. They are not empty, hold digits only, and start with a zero only when they are a single one.

- `decimalNumber_decimal`, `hexNumber?_hex`: **printing and reading a numeral gives the number**.
- `length_decimal_le_iff`, `length_hex_le_iff`: how long numerals are.
- `hexNumber?_hexPadded`, `length_hexPadded`: the same for a numeral with leading zeros.
-/

namespace NodeLedger.Text

/-! ## Decimal numerals -/

theorem decimalNumber_eq_ofDigitChars (cs : List Char) :
    decimalNumber cs = Nat.ofDigitChars 10 cs 0 := by
  rw [decimalNumber, Nat.ofDigitChars_eq_foldl]
  congr 1
  funext acc c
  rw [Nat.mul_comm]
  rfl

/-- **A decimal numeral stands for its number.** -/
@[simp] theorem decimalNumber_decimal (n : Nat) : decimalNumber (decimal n) = n := by
  rw [decimalNumber_eq_ofDigitChars, decimal, Nat.ofDigitChars_ten_toDigits]

theorem decimal_inj {m n : Nat} : decimal m = decimal n ↔ m = n := by
  constructor
  · intro h
    rw [← decimalNumber_decimal m, h, decimalNumber_decimal]
  · exact congrArg decimal

theorem decimal_ne_nil (n : Nat) : decimal n ≠ [] :=
  Nat.toDigits_ne_nil

theorem length_decimal_le_iff {n k : Nat} (hk : 0 < k) : (decimal n).length ≤ k ↔ n < 10 ^ k :=
  Nat.length_toDigits_le_iff (by decide) hk

theorem isAsciiDigit_of_mem_decimal {n : Nat} {c : Char} (h : c ∈ decimal n) :
    isAsciiDigit c = true := by
  have hdigit : c.isDigit = true := Nat.isDigit_of_mem_toDigits (by decide) (by decide) h
  rw [Char.isDigit, Bool.and_eq_true, decide_eq_true_iff, decide_eq_true_iff] at hdigit
  obtain ⟨hlow, hhigh⟩ := hdigit
  rw [isAsciiDigit, Bool.and_eq_true, decide_eq_true_iff, decide_eq_true_iff]
  exact ⟨UInt32.le_iff_toNat_le.1 hlow, UInt32.le_iff_toNat_le.1 hhigh⟩

/-- Only the numeral of zero starts with a zero. -/
theorem head?_decimal_ne_zero {n : Nat} (h : 0 < n) : (decimal n).head? ≠ some '0' := by
  rw [decimal]
  induction n using Nat.base_induction 10 (by decide) with
  | single m hm =>
    rw [Nat.toDigits_of_lt_base hm, List.head?_cons]
    intro hzero
    have : m = 0 := Nat.digitChar_eq_zero.1 (Option.some.inj hzero)
    omega
  | digit m k hk hm ih =>
    -- A longer numeral starts like the numeral without its last digit.
    have hsome := List.head?_eq_some_head (Nat.toDigits_ne_nil : Nat.toDigits 10 m ≠ [])
    rw [← Nat.toDigits_append_toDigits (by decide) hm hk, List.head?_append, hsome, Option.some_or,
      ← hsome]
    exact ih hm

/-- The text of an integer: its digits, after a minus for a negative one. -/
theorem toList_integer (n : Int) :
    (integer n).toList = (if n < 0 then ['-'] else []) ++ decimal n.natAbs := by
  cases n with
  | ofNat n =>
    have hnonneg : ¬ Int.ofNat n < 0 := Int.not_lt.2 (Int.natCast_nonneg n)
    rw [if_neg hnonneg, List.nil_append]
    exact String.toList_ofList
  | negSucc n =>
    rw [if_pos (Int.negSucc_lt_zero n)]
    exact String.toList_ofList

/-! ## Hexadecimal numerals -/

theorem hexValue?_digitChar {d : Nat} (h : d < 16) : hexValue? d.digitChar = some d := by
  have hall : ∀ d < 16, hexValue? (Nat.digitChar d) = some d := by decide
  exact hall d h

theorem hexNumber?_concat (cs : List Char) (c : Char) :
    hexNumber? (cs ++ [c])
      = (hexNumber? cs).bind fun n => (hexValue? c).map (n * 16 + ·) := by
  rw [hexNumber?, List.foldl_append]
  change (do return (← hexNumber? cs) * 16 + (← hexValue? c)) = _
  cases hexNumber? cs with
  | none => rfl
  | some n => cases hexValue? c <;> rfl

/-- **A hexadecimal numeral stands for its number.** -/
@[simp] theorem hexNumber?_hex (n : Nat) : hexNumber? (hex n) = some n := by
  rw [hex]
  induction n using Nat.base_induction 16 (by decide) with
  | single m hm =>
    rw [Nat.toDigits_of_lt_base hm]
    have hone := hexNumber?_concat [] m.digitChar
    rw [hexValue?_digitChar hm] at hone
    simpa [hexNumber?] using hone
  | digit m k hk hm ih =>
    rw [← Nat.toDigits_append_toDigits (by decide) hm hk, Nat.toDigits_of_lt_base hk,
      hexNumber?_concat, ih, hexValue?_digitChar hk]
    show some (m * 16 + k) = some (16 * m + k)
    rw [Nat.mul_comm]

theorem hex_ne_nil (n : Nat) : hex n ≠ [] :=
  Nat.toDigits_ne_nil

theorem length_hex_le_iff {n k : Nat} (hk : 0 < k) : (hex n).length ≤ k ↔ n < 16 ^ k :=
  Nat.length_toDigits_le_iff (by decide) hk

theorem exists_digitChar_of_mem_hex {n : Nat} {c : Char} (h : c ∈ hex n) :
    ∃ d < 16, c = Nat.digitChar d := by
  rw [hex] at h
  induction n using Nat.base_induction 16 (by decide) with
  | single m hm =>
    rw [Nat.toDigits_of_lt_base hm, List.mem_singleton] at h
    exact ⟨m, hm, h⟩
  | digit m k hk hm ih =>
    rw [← Nat.toDigits_append_toDigits (by decide) hm hk, List.mem_append,
      Nat.toDigits_of_lt_base hk, List.mem_singleton] at h
    rcases h with h | h
    · exact ih h
    · exact ⟨k, hk, h⟩

/-- A hexadecimal numeral holds no character that is no digit. -/
theorem notMem_hex {c : Char} (hc : ∀ d < 16, c ≠ Nat.digitChar d) (n : Nat) : c ∉ hex n := by
  intro h
  obtain ⟨d, hd, heq⟩ := exists_digitChar_of_mem_hex h
  exact hc d hd heq

/-! ## Padded numerals -/

theorem hexNumber?_replicate_append (k : Nat) (cs : List Char) :
    hexNumber? (List.replicate k '0' ++ cs) = hexNumber? cs := by
  induction k with
  | zero => rfl
  | succ k ih =>
    rw [List.replicate_succ, List.cons_append, ← ih]
    rfl

/-- Leading zeros do not change the number. -/
@[simp] theorem hexNumber?_hexPadded (width n : Nat) : hexNumber? (hexPadded width n) = some n := by
  rw [hexPadded, List.leftpad, hexNumber?_replicate_append, hexNumber?_hex]

theorem length_hexPadded {width n : Nat} (hwidth : 0 < width) (h : n < 16 ^ width) :
    (hexPadded width n).length = width := by
  have hshort : (hex n).length ≤ width := (length_hex_le_iff hwidth).2 h
  rw [hexPadded, List.length_leftpad, Nat.max_eq_left hshort]

theorem exists_digitChar_of_mem_hexPadded {width n : Nat} {c : Char} (h : c ∈ hexPadded width n) :
    ∃ d < 16, c = Nat.digitChar d := by
  rw [hexPadded, List.leftpad] at h
  rcases List.mem_append.1 h with h | h
  · exact ⟨0, by decide, List.eq_of_mem_replicate h⟩
  · exact exists_digitChar_of_mem_hex h

end NodeLedger.Text
