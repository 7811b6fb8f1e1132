import NodeLedger.Proofs.Text.Fields
import NodeLedger.Proofs.Text.Numeral
import NodeLedger.Text.Integer

/-!
# Numbers in text read back

Numbers are read more generously than they are printed: with blanks around them, a sign, digits of
any script and underscores. What is read says which of these there were, so that a number comes back
when it is printed, and a token can be read without its blanks.

- `Numeral`: the tokens that stand for an integer. `readInteger_eq_ok_iff`: **a text is read exactly
  if it is a numeral between blanks**.
- `Numeral.nonneg`, `Numeral.length_decimal_le`: what a numeral says about its number.
- `readInteger_decimal_iff`: **a printed number is read back**, up to the digit limit.
- `numeral_decimal`, `numeral_integer`: what is printed is a numeral of its number.
- `readInteger_stripChars`: blanks around a number do not matter, however they are taken off.
- `decimal_decimalNumber`: digits without a leading zero are the numeral of their number, so such a
  number has one spelling.
-/

namespace NodeLedger.Text

section Digits

variable {c : Char} {cs : List Char}

theorem digitValue?_of_isAsciiDigit (h : isAsciiDigit c = true) :
    digitValue? c = some (c.toNat - 0x30) := by
  rw [isAsciiDigit, Bool.and_eq_true, decide_eq_true_iff, decide_eq_true_iff] at h
  obtain ⟨hlow, hhigh⟩ := h
  rw [digitValue?, digitZeros, List.find?_cons_of_pos]
  · rfl
  · rw [Bool.and_eq_true, decide_eq_true_iff, decide_eq_true_iff]
    exact ⟨hlow, by omega⟩

/-- No digit of any script is blank. -/
theorem isBlank_of_digitValue? {d : Nat} (h : digitValue? c = some d) : isBlank c = false := by
  have hapart : ∀ z ∈ digitZeros, ∀ r ∈ blankRanges, r.2 < z ∨ z + 9 < r.1 := by decide +kernel
  obtain ⟨z, hz, -⟩ := Option.map_eq_some_iff.1 h
  have hin := List.find?_some hz
  rw [Bool.and_eq_true, decide_eq_true_iff, decide_eq_true_iff] at hin
  rw [isBlank, inRanges, List.any_eq_false]
  intro r hr hblank
  rw [Bool.and_eq_true, decide_eq_true_iff, decide_eq_true_iff] at hblank
  have hrange := hapart z (List.mem_of_find?_eq_some hz) r hr
  omega

theorem isBlank_of_isAsciiDigit (h : isAsciiDigit c = true) : isBlank c = false :=
  isBlank_of_digitValue? (digitValue?_of_isAsciiDigit h)

theorem ne_of_isAsciiDigit {d : Char} (h : isAsciiDigit c = true) (hd : isAsciiDigit d = false) :
    c ≠ d := by
  rintro rfl
  rw [h] at hd
  cases hd

/-- Digits have no blanks around them. -/
theorem trimBy_of_digits {p : Char → Bool} (hp : ∀ c, isAsciiDigit c = true → p c = false)
    (h : ∀ c ∈ cs, isAsciiDigit c = true) : trimBy p cs = cs :=
  trimBy_of_ends (fun c hc => hp c (h c (List.mem_of_head? hc)))
    fun c hc => hp c (h c (List.mem_of_getLast? hc))

theorem isGrouped_of_digits (h : ∀ c ∈ cs, isAsciiDigit c = true) : isGrouped false cs = true := by
  induction cs with
  | nil => rfl
  | cons c cs ih =>
    obtain ⟨hc, hrest⟩ := List.forall_mem_cons.1 h
    have hne : (c == '_') = false := beq_false_of_ne (ne_of_isAsciiDigit hc (by decide))
    rw [isGrouped, hne]
    exact ih hrest

theorem filterMap_digitValue? (h : ∀ c ∈ cs, isAsciiDigit c = true) :
    cs.filterMap digitValue? = cs.map fun c => c.toNat - 0x30 := by
  rw [← List.filterMap_eq_map]
  exact List.filterMap_congr fun c hc => digitValue?_of_isAsciiDigit (h c hc)

theorem le_nine_of_digitValue? {d : Nat} (h : digitValue? c = some d) : d ≤ 9 := by
  obtain ⟨z, hz, rfl⟩ := Option.map_eq_some_iff.1 h
  have hin := List.find?_some hz
  rw [Bool.and_eq_true, decide_eq_true_iff, decide_eq_true_iff] at hin
  omega

end Digits

/-! ## Reading -/

/-- A number with more digits behind it stays below what the number of digits says. -/
theorem foldl_lt_pow {digits : List Nat} (h : ∀ d ∈ digits, d ≤ 9) {n m : Nat} (hn : n < m) :
    digits.foldl (fun acc d => acc * 10 + d) n < m * 10 ^ digits.length := by
  induction digits generalizing n m with
  | nil => rwa [List.foldl_nil, List.length_nil, Nat.pow_zero, Nat.mul_one]
  | cons d digits ih =>
    obtain ⟨hd, hrest⟩ := List.forall_mem_cons.1 h
    have hstep : n * 10 + d < m * 10 := by omega
    have hall := ih hrest hstep
    rwa [List.foldl_cons, List.length_cons, Nat.pow_succ', ← Nat.mul_assoc]

/-- A character of a number behind its sign. -/
def isNumberPart (c : Char) : Bool :=
  c == '_' || (digitValue? c).isSome

/-- The number that the digits of a text stand for, in base ten. -/
def digitsValue (cs : List Char) : Nat :=
  (cs.filterMap digitValue?).foldl (fun acc d => acc * 10 + d) 0

/-- The token is a numeral of the integer: behind a sign, or without one, it has digits of any script,
not too many of them, with single underscores between them. -/
structure Numeral (token : List Char) (n : Int) : Prop where
  grouped : isGrouped true (splitSign token).2 = true
  parts : ∀ c ∈ (splitSign token).2, isNumberPart c = true
  short : ((splitSign token).2.filterMap digitValue?).length ≤ digitLimit
  value : n = if (splitSign token).1 then -(digitsValue (splitSign token).2 : Int)
    else digitsValue (splitSign token).2

section Numeral

variable {text : String} {token cs : List Char} {n : Int}

/-- **A text is read as an integer exactly if it is a numeral of it** between blanks. -/
theorem readInteger_eq_ok_iff :
    readInteger text = .ok n ↔ Numeral (trimBy isNumberBlank text.toList) n := by
  rw [readInteger]
  generalize trimBy isNumberBlank text.toList = token
  show (if !isGrouped true ((splitSign token).2.takeWhile isNumberPart) then _
    else if digitLimit < (((splitSign token).2.takeWhile isNumberPart).filterMap digitValue?).length
      then _
    else if !((splitSign token).2.dropWhile isNumberPart).isEmpty then _
    else Except.ok (if (splitSign token).1
      then -(digitsValue ((splitSign token).2.takeWhile isNumberPart) : Int)
      else (digitsValue ((splitSign token).2.takeWhile isNumberPart) : Int))) = _ ↔ _
  constructor
  · intro h
    split at h
    · cases h
    rename_i hgrouped
    split at h
    · cases h
    rename_i hshort
    split at h
    · cases h
    rename_i hrest
    rw [Bool.not_eq_true, Bool.not_eq_false', List.isEmpty_iff, List.dropWhile_eq_nil_iff] at hrest
    rw [List.takeWhile_eq_self_iff.2 hrest] at hgrouped hshort h
    rw [Bool.not_eq_true, Bool.not_eq_false'] at hgrouped
    cases h
    exact ⟨hgrouped, hrest, Nat.not_lt.1 hshort, rfl⟩
  · rintro ⟨hgrouped, hparts, hshort, hvalue⟩
    rw [List.takeWhile_eq_self_iff.2 hparts, List.dropWhile_eq_nil_iff.2 hparts, hgrouped,
      if_neg (by decide), if_neg (Nat.not_lt.2 hshort), if_neg (by decide)]
    exact congrArg Except.ok hvalue.symm

section Facts

variable (h : Numeral token n)
include h

/-- No character of a numeral is blank. -/
theorem Numeral.isBlank_eq_false : ∀ c ∈ token, isBlank c = false := by
  intro c hc
  -- A sign is not blank, and neither is a part of the body.
  have hbody : c ∈ (splitSign token).2 → isBlank c = false := by
    intro hmem
    have hpart := h.parts c hmem
    rw [isNumberPart, Bool.or_eq_true, beq_iff_eq, Option.isSome_iff_exists] at hpart
    rcases hpart with rfl | ⟨d, hd⟩
    · decide
    · exact isBlank_of_digitValue? hd
  unfold splitSign at hbody
  split at hbody
  · rcases List.mem_cons.1 hc with rfl | hc
    · decide
    · exact hbody hc
  · rcases List.mem_cons.1 hc with rfl | hc
    · decide
    · exact hbody hc
  · exact hbody hc

theorem Numeral.ne_nil : token ≠ [] := by
  rintro rfl
  exact absurd h.grouped (by decide)

theorem Numeral.nonneg (hminus : '-' ∉ token) : 0 ≤ n := by
  have hsign : (splitSign token).1 = false := by
    unfold splitSign
    split
    · exact absurd List.mem_cons_self hminus
    · rfl
    · rfl
  rw [h.value, hsign]
  exact Int.natCast_nonneg _

/-- The number is printed with no more digits than it was written with. -/
theorem Numeral.length_decimal_le : (decimal n.natAbs).length ≤ digitLimit := by
  have hdigits : ∀ d ∈ (splitSign token).2.filterMap digitValue?, d ≤ 9 := by
    intro d hd
    obtain ⟨c, -, hc⟩ := List.mem_filterMap.1 hd
    exact le_nine_of_digitValue? hc
  have habs : n.natAbs = digitsValue (splitSign token).2 := by
    rw [h.value]
    split
    · rw [Int.natAbs_neg, Int.natAbs_natCast]
    · rw [Int.natAbs_natCast]
  rw [length_decimal_le_iff (by decide), habs]
  calc digitsValue (splitSign token).2
      < 1 * 10 ^ ((splitSign token).2.filterMap digitValue?).length :=
        foldl_lt_pow hdigits (by omega)
    _ ≤ 10 ^ digitLimit := by
        rw [Nat.one_mul]
        exact Nat.pow_le_pow_right (by decide) h.short

end Facts

/-- A token is a numeral of one integer. -/
theorem Numeral.unique {m : Int} (hn : Numeral token n) (hm : Numeral token m) : n = m :=
  hn.value.trans hm.value.symm

/-- A token of digits behind a sign, or without one, is a numeral of the number. -/
theorem numeral_of_splitSign {negative : Bool} {k : Nat}
    (hsign : splitSign token = (negative, decimal k)) (h : (decimal k).length ≤ digitLimit) :
    Numeral token (if negative then -(k : Int) else k) := by
  have hdigits : ∀ c ∈ decimal k, isAsciiDigit c = true := fun _ => isAsciiDigit_of_mem_decimal
  have hvalues := filterMap_digitValue? hdigits
  constructor
  case grouped =>
    rw [hsign]
    cases htext : decimal k with
    | nil => exact absurd htext (decimal_ne_nil k)
    | cons c cs =>
      rw [htext] at hdigits
      obtain ⟨hc, hrest⟩ := List.forall_mem_cons.1 hdigits
      have hne : (c == '_') = false := beq_false_of_ne (ne_of_isAsciiDigit hc (by decide))
      rw [isGrouped, hne]
      exact isGrouped_of_digits hrest
  case parts =>
    rw [hsign]
    intro c hc
    rw [isNumberPart, digitValue?_of_isAsciiDigit (hdigits c hc), Option.isSome_some, Bool.or_true]
  case short =>
    rw [hsign, hvalues, List.length_map]
    exact h
  case value =>
    have hvalue : digitsValue (decimal k) = k := by
      rw [digitsValue, hvalues, List.foldl_map]
      exact decimalNumber_decimal k
    rw [hsign, hvalue]

/-- A numeral is read as it stands. -/
theorem readInteger_of_numeral (h : Numeral text.toList n) : readInteger text = .ok n := by
  have hblank : ∀ c ∈ text.toList, isNumberBlank c = false := by
    intro c hc
    rw [isNumberBlank, h.isBlank_eq_false c hc, Bool.false_and]
  have htrim : trimBy isNumberBlank text.toList = text.toList :=
    trimBy_of_ends (fun c hc => hblank c (List.mem_of_head? hc))
      fun c hc => hblank c (List.mem_of_getLast? hc)
  rw [readInteger_eq_ok_iff, htrim]
  exact h

theorem splitSign_decimal (k : Nat) : splitSign (decimal k) = (false, decimal k) := by
  have hdigits : ∀ c ∈ decimal k, isAsciiDigit c = true := fun _ => isAsciiDigit_of_mem_decimal
  unfold splitSign
  split
  · rename_i heq
    exact absurd (hdigits '-' (heq ▸ List.mem_cons_self)) (by decide)
  · rename_i heq
    exact absurd (hdigits '+' (heq ▸ List.mem_cons_self)) (by decide)
  · rfl

/-- A printed number is a numeral. -/
theorem numeral_decimal {k : Nat} (h : (decimal k).length ≤ digitLimit) :
    Numeral (decimal k) (k : Int) := by
  have hnumeral := numeral_of_splitSign (splitSign_decimal k) h
  rwa [if_neg Bool.false_ne_true] at hnumeral

/-- A printed number is a numeral of no other number, and only if it is not too long. -/
theorem Numeral.of_decimal {k : Nat} (h : Numeral (decimal k) n) :
    (decimal k).length ≤ digitLimit ∧ n = k := by
  have hlength : (decimal k).length ≤ digitLimit := by
    have hshort := h.short
    rw [splitSign_decimal, filterMap_digitValue? fun _ => isAsciiDigit_of_mem_decimal,
      List.length_map] at hshort
    exact hshort
  exact ⟨hlength, h.unique (numeral_decimal hlength)⟩

/-- A printed integer is a numeral. -/
theorem numeral_integer (h : (decimal n.natAbs).length ≤ digitLimit) :
    Numeral (integer n).toList n := by
  rw [toList_integer]
  by_cases hneg : n < 0
  · have hvalue : -(n.natAbs : Int) = n := by omega
    have hnumeral : Numeral ('-' :: decimal n.natAbs)
        (if true then -(n.natAbs : Int) else n.natAbs) := numeral_of_splitSign rfl h
    rw [if_pos rfl, hvalue] at hnumeral
    rw [if_pos hneg, List.singleton_append]
    exact hnumeral
  · have hvalue : (n.natAbs : Int) = n := by omega
    have hnumeral := numeral_decimal h
    rw [hvalue] at hnumeral
    rw [if_neg hneg, List.nil_append]
    exact hnumeral

/-- **A printed number is read back**, and nothing else is, if it is not too long. -/
theorem readInteger_decimal_iff {k : Nat} :
    readInteger (String.ofList (decimal k)) = .ok n ↔ (decimal k).length ≤ digitLimit ∧ n = k := by
  have htrim : trimBy isNumberBlank (decimal k) = decimal k := by
    refine trimBy_of_digits (fun c hc => ?_) fun _ => isAsciiDigit_of_mem_decimal
    rw [isNumberBlank, isBlank_of_isAsciiDigit hc, Bool.false_and]
  rw [readInteger_eq_ok_iff, String.toList_ofList, htrim]
  constructor
  · exact Numeral.of_decimal
  · rintro ⟨h, rfl⟩
    exact numeral_decimal h

/-- A text is read as the token that is in it, whichever blanks are taken off. -/
theorem readInteger_stripChars {cs : List Char} (h : readInteger (String.ofList cs) = .ok n) :
    readInteger (String.ofList (stripChars cs)) = .ok n := by
  rw [readInteger_eq_ok_iff, String.toList_ofList] at h
  obtain ⟨front, back, hcs, hfront, hback⟩ := exists_eq_append_trimBy isNumberBlank cs
  have hblank : ∀ c, isNumberBlank c = true → isBlank c = true := fun c hc =>
    (Bool.and_eq_true_iff.1 hc).1
  have hends : trimBy isBlank (trimBy isNumberBlank cs) = trimBy isNumberBlank cs :=
    trimBy_of_ends (fun c hc => h.isBlank_eq_false c (List.mem_of_head? hc))
      fun c hc => h.isBlank_eq_false c (List.mem_of_getLast? hc)
  have hstrip : stripChars cs = trimBy isNumberBlank cs := by
    rw [stripChars]
    conv_lhs => rw [hcs]
    rw [trimBy_append (fun c hc => hblank c (hfront c hc)) fun c hc => hblank c (hback c hc), hends]
  refine readInteger_of_numeral ?_
  rw [String.toList_ofList, hstrip]
  exact h

end Numeral

/-! ## Digits without a leading zero -/

theorem digitChar_of_isAsciiDigit {c : Char} (h : isAsciiDigit c = true) :
    Nat.digitChar (c.toNat - 0x30) = c := by
  have hall : ∀ d < 10, Nat.digitChar d = Char.ofNat (d + 0x30) := by decide
  rw [isAsciiDigit, Bool.and_eq_true, decide_eq_true_iff, decide_eq_true_iff] at h
  obtain ⟨hlow, hhigh⟩ := h
  rw [hall _ (by omega), Nat.sub_add_cancel hlow, Char.ofNat_toNat]

/-- Digits behind a numeral continue it. -/
theorem decimal_append_digits {n : Nat} (hn : 0 < n) {cs : List Char}
    (h : ∀ c ∈ cs, isAsciiDigit c = true) :
    decimal n ++ cs = decimal (cs.foldl (fun acc c => acc * 10 + (c.toNat - 0x30)) n) := by
  induction cs generalizing n with
  | nil => exact List.append_nil _
  | cons c cs ih =>
    obtain ⟨hc, hrest⟩ := List.forall_mem_cons.1 h
    have hlt : c.toNat - 0x30 < 10 := by
      rw [isAsciiDigit, Bool.and_eq_true, decide_eq_true_iff, decide_eq_true_iff] at hc
      omega
    have hone : decimal n ++ [c] = decimal (10 * n + (c.toNat - 0x30)) := by
      have happend := Nat.toDigits_append_toDigits (b := 10) (by decide) hn hlt
      rw [Nat.toDigits_of_lt_base hlt, digitChar_of_isAsciiDigit hc] at happend
      exact happend
    calc decimal n ++ c :: cs
        = (decimal n ++ [c]) ++ cs := by rw [List.append_assoc, List.singleton_append]
      _ = decimal (10 * n + (c.toNat - 0x30)) ++ cs := by rw [hone]
      _ = decimal (cs.foldl (fun acc c => acc * 10 + (c.toNat - 0x30))
            (10 * n + (c.toNat - 0x30))) := ih (by omega) hrest
      _ = _ := by rw [Nat.mul_comm, List.foldl_cons]

/-- **Digits without a leading zero are the numeral of their number.** -/
theorem decimal_decimalNumber {cs : List Char} (h : ∀ c ∈ cs, isAsciiDigit c = true)
    (hne : cs ≠ []) (hzero : cs.head? = some '0' → cs = ['0']) :
    decimal (decimalNumber cs) = cs := by
  cases cs with
  | nil => exact absurd rfl hne
  | cons c cs =>
    obtain ⟨hc, hrest⟩ := List.forall_mem_cons.1 h
    by_cases hc0 : c = '0'
    · rw [hzero (congrArg some hc0)]
      rfl
    · have hcode : c.toNat ≠ '0'.toNat := fun heq => hc0 (Char.toNat_inj.1 heq)
      have hdigit := hc
      rw [isAsciiDigit, Bool.and_eq_true, decide_eq_true_iff, decide_eq_true_iff] at hdigit
      have hpos : 0 < c.toNat - 0x30 := by
        have hzeroCode : '0'.toNat = 0x30 := rfl
        omega
      have hfirst : decimal (c.toNat - 0x30) = [c] := by
        rw [decimal, Nat.toDigits_of_lt_base (by omega), digitChar_of_isAsciiDigit hc]
      have happend := decimal_append_digits hpos hrest
      rw [hfirst, List.singleton_append] at happend
      rw [decimalNumber, List.foldl_cons, Nat.zero_mul, Nat.zero_add]
      exact happend.symm

end NodeLedger.Text
