import Mathlib.Data.List.TakeDrop
import NodeLedger.Proofs.Json.Escape

/-!
# JSON scalars read back

Words, integers and strings are told apart by their first character. A word and a string end by
themselves; an integer goes on as long as the text does, so what follows it must not continue it.

- `EndsNumber`: what may follow an integer.
- `ReadableScalar`: the scalars that are read back: all words, integers that are not too long and
  unsplit strings. Numbers with fraction or exponent are not among them.
- `readScalar_showScalar`: **printing and reading such a scalar gives the scalar**.
- `startsValue_showScalar`: no blank and no bracket comes first.
-/

namespace NodeLedger.Json

open Text

/-! ## Integers -/

section Integers

variable {rest : List Char}

/-- The text does not continue a number. -/
def EndsNumber (rest : List Char) : Prop :=
  ∀ c ∈ rest.head?, isAsciiDigit c = false ∧ c ≠ '.' ∧ c ≠ 'e' ∧ c ≠ 'E'

theorem span_isAsciiDigit {digits : List Char} (hdigits : ∀ c ∈ digits, isAsciiDigit c = true)
    (hrest : EndsNumber rest) : (digits ++ rest).span isAsciiDigit = (digits, rest) := by
  have htake : rest.takeWhile isAsciiDigit = [] := by
    cases rest with
    | nil => rfl
    | cons c rest =>
      rw [List.takeWhile_cons, (hrest c rfl).1]
      exact if_neg Bool.false_ne_true
  have hdrop : rest.dropWhile isAsciiDigit = rest := by
    cases rest with
    | nil => rfl
    | cons c rest =>
      rw [List.dropWhile_cons, (hrest c rfl).1]
      exact if_neg Bool.false_ne_true
  rw [List.span_eq_takeWhile_dropWhile, List.takeWhile_append_of_pos hdigits,
    List.dropWhile_append_of_pos hdigits, htake, hdrop, List.append_nil]

theorem readWhole?_decimal (n : Nat) (hrest : EndsNumber rest) :
    readWhole? (decimal n ++ rest) = some (decimal n, rest) := by
  rcases Nat.eq_zero_or_pos n with rfl | hpos
  · rfl
  · have hdigits : ∀ c ∈ decimal n, isAsciiDigit c = true := fun _ => isAsciiDigit_of_mem_decimal
    have hspan := span_isAsciiDigit hdigits hrest
    have hhead := head?_decimal_ne_zero hpos
    cases htext : decimal n with
    | nil => exact absurd htext (decimal_ne_nil n)
    | cons c cs =>
      rw [htext] at hspan hhead hdigits
      rw [List.cons_append] at hspan ⊢
      unfold readWhole?
      split
      · rename_i heq
        cases heq
        exact absurd rfl hhead
      · rename_i heq
        cases heq
        rw [if_pos (hdigits c List.mem_cons_self), hspan]
      · rename_i heq
        cases heq

theorem readFraction?_of_endsNumber (hrest : EndsNumber rest) : readFraction? rest = none := by
  unfold readFraction?
  split
  · exact absurd rfl (hrest '.' rfl).2.1
  · rfl

theorem readExponent?_of_endsNumber (hrest : EndsNumber rest) : readExponent? rest = none := by
  cases rest with
  | nil => rfl
  | cons c rest =>
    obtain ⟨-, -, he, hE⟩ := hrest c rfl
    rw [readExponent?, if_neg]
    rw [Bool.or_eq_true, beq_iff_eq, beq_iff_eq]
    exact not_or.2 ⟨he, hE⟩

theorem ne_minus_of_isAsciiDigit {c : Char} (h : isAsciiDigit c = true) : c ≠ '-' := by
  rintro rfl
  exact absurd h (by decide)

/-- **A printed integer is read back**, if nothing continues it. -/
theorem readNumber_integer {n : Int} (hlength : (decimal n.natAbs).length ≤ digitLimit)
    (hrest : EndsNumber rest) : readNumber ((integer n).toList ++ rest) = .ok (.int n, rest) := by
  have hwhole := readWhole?_decimal n.natAbs hrest
  have hfraction := readFraction?_of_endsNumber hrest
  have hexponent := readExponent?_of_endsNumber hrest
  have hlimit : ¬ digitLimit < (decimal n.natAbs).length := Nat.not_lt.2 hlength
  have hvalue := decimalNumber_decimal n.natAbs
  rw [toList_integer]
  by_cases hneg : n < 0
  · rw [if_pos hneg, List.cons_append, List.nil_append, List.cons_append]
    simp only [readNumber, hwhole, hfraction, hexponent, Option.getD_none, List.isEmpty_nil,
      Option.isNone_none, Bool.and_self, if_true, if_neg hlimit, hvalue]
    have hint : -Int.ofNat n.natAbs = n := by
      show -((n.natAbs : Int)) = n
      omega
    rw [hint]
  · -- Without a minus the text starts with a digit, so no sign is taken off.
    rw [if_neg hneg, List.nil_append]
    cases htext : decimal n.natAbs with
    | nil => exact absurd htext (decimal_ne_nil _)
    | cons c cs =>
      have hc : isAsciiDigit c = true :=
        isAsciiDigit_of_mem_decimal (htext ▸ List.mem_cons_self : c ∈ decimal n.natAbs)
      rw [htext] at hwhole hlimit hvalue
      rw [List.cons_append] at hwhole ⊢
      have hint : Int.ofNat n.natAbs = n := by
        show ((n.natAbs : Int)) = n
        omega
      unfold readNumber
      split
      rename_i negative body heq
      split at heq
      · rename_i hminus
        exact absurd (List.cons.inj hminus).1 (ne_minus_of_isAsciiDigit hc)
      · cases heq
        simp only [hwhole, hfraction, hexponent, Option.getD_none, List.isEmpty_nil,
          Option.isNone_none, Bool.and_self, if_true, if_neg hlimit, hvalue, Bool.false_eq_true,
          if_false, hint]

end Integers

/-! ## Scalars -/

/-- The scalars that are read back. -/
inductive ReadableScalar : Json → Prop
  | null : ReadableScalar .null
  | bool (value : Bool) : ReadableScalar (.bool value)
  | int (value : Int) (h : (decimal value.natAbs).length ≤ digitLimit) : ReadableScalar (.int value)
  | str (text : CodeText) (h : text.Unsplit) : ReadableScalar (.str text)

/-- A text that starts like a value: with no blank, no byte order mark and no closing bracket. -/
def StartsValue (cs : List Char) : Prop :=
  ∃ c rest, cs = c :: rest ∧ isSpace c = false ∧ c ≠ '\ufeff' ∧ c ≠ ']' ∧ c ≠ '\x7d'

section Scalars

variable {value : Json} {rest : List Char}

/-- The first character of a printed scalar. -/
theorem exists_head_showScalar (h : ReadableScalar value) :
    ∃ c cs, (showScalar value).toList = c :: cs ∧
      (c ∈ ['n', 't', 'f', '"', '-'] ∨ isAsciiDigit c = true) := by
  cases h with
  | null => exact ⟨'n', _, rfl, .inl (by decide)⟩
  | bool value =>
    cases value with
    | false => exact ⟨'f', _, rfl, .inl (by decide)⟩
    | true => exact ⟨'t', _, rfl, .inl (by decide)⟩
  | int n =>
    rw [showScalar, toList_integer]
    by_cases hneg : n < 0
    · rw [if_pos hneg]
      exact ⟨'-', _, rfl, .inl (by decide)⟩
    · rw [if_neg hneg, List.nil_append]
      obtain ⟨c, cs, htext⟩ := List.exists_cons_of_ne_nil (decimal_ne_nil n.natAbs)
      have hmem : c ∈ decimal n.natAbs := by
        rw [htext]
        exact List.mem_cons_self
      exact ⟨c, cs, htext, .inr (isAsciiDigit_of_mem_decimal hmem)⟩
  | str text => exact ⟨'"', _, String.toList_ofList, .inl (by decide)⟩

/-- A scalar starts with none of the characters that mean something else. -/
theorem head_showScalar_ne (h : ReadableScalar value) {c : Char} {cs : List Char}
    (htext : (showScalar value).toList = c :: cs) :
    isSpace c = false ∧ c ≠ '\ufeff' ∧ c ≠ ']' ∧ c ≠ '\x7d' ∧ c ≠ '[' ∧ c ≠ '\x7b' := by
  obtain ⟨c', cs', htext', hc⟩ := exists_head_showScalar h
  rw [htext] at htext'
  cases htext'
  rcases hc with hc | hc
  · have hmarks : ∀ c ∈ ['n', 't', 'f', '"', '-'],
        isSpace c = false ∧ c ≠ '\ufeff' ∧ c ≠ ']' ∧ c ≠ '\x7d' ∧ c ≠ '[' ∧ c ≠ '\x7b' := by
      simp only [List.forall_mem_cons, List.not_mem_nil, false_imp_iff, implies_true, and_true]
      decide
    exact hmarks c hc
  · have hdigits : ∀ n < 0x3a, 0x30 ≤ n →
        isSpace (Char.ofNat n) = false ∧ Char.ofNat n ≠ '\ufeff' ∧ Char.ofNat n ≠ ']' ∧
          Char.ofNat n ≠ '\x7d' ∧ Char.ofNat n ≠ '[' ∧ Char.ofNat n ≠ '\x7b' := by decide
    rw [isAsciiDigit, Bool.and_eq_true, decide_eq_true_iff, decide_eq_true_iff] at hc
    have hchar := hdigits c.toNat (by omega) hc.1
    rwa [Char.ofNat_toNat] at hchar

theorem startsValue_showScalar (h : ReadableScalar value) :
    StartsValue ((showScalar value).toList ++ rest) := by
  obtain ⟨c, cs, htext, -⟩ := exists_head_showScalar h
  obtain ⟨hspace, hmark, hbracket, hbrace, -⟩ := head_showScalar_ne h htext
  exact ⟨c, cs ++ rest, by rw [htext, List.cons_append], hspace, hmark, hbracket, hbrace⟩

theorem afterWord?_eq_none {word : String} {first c : Char} {letters cs : List Char}
    (hword : word.toList = first :: letters) (hc : first ≠ c) : afterWord? word (c :: cs) = none := by
  rw [afterWord?, hword, List.isPrefixOf, beq_false_of_ne hc, Bool.false_and, if_neg Bool.false_ne_true]

/-- No word starts with a digit, nor with a minus before a digit. -/
theorem readWord?_integer (n : Int) (rest : List Char) :
    readWord? ((integer n).toList ++ rest) = none := by
  have hdigits : ∀ c ∈ decimal n.natAbs, isAsciiDigit c = true := fun _ => isAsciiDigit_of_mem_decimal
  have hne : ∀ first : Char, isAsciiDigit first = false → ∀ c, isAsciiDigit c = true → first ≠ c := by
    rintro first hfirst c hc rfl
    rw [hc] at hfirst
    cases hfirst
  obtain ⟨c, cs, htext⟩ := List.exists_cons_of_ne_nil (decimal_ne_nil n.natAbs)
  rw [htext] at hdigits
  have hc := hdigits c List.mem_cons_self
  rw [toList_integer, htext]
  by_cases hneg : n < 0
  · -- One word starts with a minus, too; it goes on with a letter.
    rw [if_pos hneg]
    have hinfinity : afterWord? "-Infinity" ('-' :: c :: (cs ++ rest)) = none := by
      have hI : ('I' == c) = false := beq_false_of_ne (hne 'I' (by decide) c hc)
      have htoList : "-Infinity".toList = '-' :: 'I' :: ['n', 'f', 'i', 'n', 'i', 't', 'y'] := rfl
      rw [afterWord?, htoList, List.isPrefixOf, List.isPrefixOf, hI, Bool.false_and, Bool.and_false,
        if_neg Bool.false_ne_true]
    simp only [List.cons_append, List.nil_append, readWord?, List.findSome?_cons, List.findSome?_nil,
      hinfinity, afterWord?_eq_none (rfl : "null".toList = _) (by decide : 'n' ≠ '-'),
      afterWord?_eq_none (rfl : "true".toList = _) (by decide : 't' ≠ '-'),
      afterWord?_eq_none (rfl : "false".toList = _) (by decide : 'f' ≠ '-'),
      afterWord?_eq_none (rfl : "NaN".toList = _) (by decide : 'N' ≠ '-'),
      afterWord?_eq_none (rfl : "Infinity".toList = _) (by decide : 'I' ≠ '-'), Option.map_none]
  · rw [if_neg hneg]
    simp only [List.cons_append, List.nil_append, readWord?, List.findSome?_cons, List.findSome?_nil,
      afterWord?_eq_none (rfl : "null".toList = _) (hne 'n' (by decide) c hc),
      afterWord?_eq_none (rfl : "true".toList = _) (hne 't' (by decide) c hc),
      afterWord?_eq_none (rfl : "false".toList = _) (hne 'f' (by decide) c hc),
      afterWord?_eq_none (rfl : "NaN".toList = _) (hne 'N' (by decide) c hc),
      afterWord?_eq_none (rfl : "Infinity".toList = _) (hne 'I' (by decide) c hc),
      afterWord?_eq_none (rfl : "-Infinity".toList = _) (hne '-' (by decide) c hc), Option.map_none]

/-- **A printed scalar is read back**, if nothing continues it. -/
theorem readScalar_showScalar (h : ReadableScalar value) (hrest : EndsNumber rest) :
    readScalar ((showScalar value).toList ++ rest) = .ok (value, rest) := by
  cases h with
  | null => rfl
  | bool value => cases value <;> rfl
  | int n hlength =>
    have hnumber := readNumber_integer hlength hrest
    have hword := readWord?_integer n rest
    obtain ⟨c, cs, htext, hc⟩ := exists_head_showScalar (.int n hlength)
    have hquote : c ≠ '"' := by
      rintro rfl
      have hmem : '"' ∈ (integer n).toList := by
        rw [showScalar] at htext
        rw [htext]
        exact List.mem_cons_self
      rw [toList_integer] at hmem
      rcases List.mem_append.1 hmem with hmem | hmem
      · split at hmem
        · exact absurd (List.mem_singleton.1 hmem) (by decide)
        · exact List.not_mem_nil hmem
      · exact absurd (isAsciiDigit_of_mem_decimal hmem) (by decide)
    rw [showScalar] at htext ⊢
    unfold readScalar
    split
    · rename_i heq
      rw [htext] at heq
      exact absurd (List.cons.inj heq).1 hquote
    · rw [hword, hnumber]
  | str text hunsplit =>
    rw [showScalar, toList_showString_append, readScalar, readString_showString hunsplit]
    rfl

end Scalars

end NodeLedger.Json
