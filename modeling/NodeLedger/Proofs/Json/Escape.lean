import Mathlib.Data.List.Chain
import NodeLedger.Json.Printer
import NodeLedger.Json.Reader
import NodeLedger.Proofs.Text.Numeral

/-!
# JSON strings read back

A string is printed point by point, and each point can be told from what follows it, with one
exception: a high half right before a low half is written like the character that the two make up.
No string holds such a pair of halves, and no text that was read does.

- `Escape`: the four forms in which a code point is printed. `escape_escapePoint`: every point is
  printed in one of them.
- `CodeText.Unsplit`: no character is split into its two halves. Every string is unsplit
  (`CodeText.unsplit_ofString`).
- `readString_showString`: **printing and reading an unsplit text gives the text**.
- `printable_of_mem_escapePoint`: what is printed is printable ASCII.
-/

namespace NodeLedger

open Text

/-- No character is split into its two halves. -/
def CodeText.Unsplit (text : CodeText) : Prop :=
  text.points.IsChain fun p q =>
    ¬ (Json.isHighSurrogate p.toNat = true ∧ Json.isLowSurrogate q.toNat = true)

instance (text : CodeText) : Decidable text.Unsplit :=
  inferInstanceAs (Decidable (List.IsChain _ _))

/-- The characters of printable ASCII. -/
def Printable (c : Char) : Prop :=
  0x20 ≤ c.toNat ∧ c.toNat < 0x7f

namespace Json

/-! ## Forms of an escape -/

/-- The unit of the high half of a character beyond U+FFFF. -/
def highUnit (c : Char) : Nat := 0xd800 + (c.toNat - 0x10000) / 0x400

/-- The unit of its low half. -/
def lowUnit (c : Char) : Nat := 0xdc00 + (c.toNat - 0x10000) % 0x400

/-- The four forms in which a code point is printed inside a string. -/
inductive Escape : CodePoint → List Char → Prop
  | plain (c : Char) (hquote : c ≠ '"') (hbackslash : c ≠ '\\') (hprintable : Printable c) :
    Escape (.char c) [c]
  | letter (c e : Char) (h : letterEscape? e = some c) : Escape (.char c) ['\\', e]
  | unit (p : CodePoint) (h : p.toNat < 0x10000) : Escape p (unitEscape p.toNat)
  | pair (c : Char) (h : 0x10000 ≤ c.toNat) :
    Escape (.char c) (unitEscape (highUnit c) ++ unitEscape (lowUnit c))

theorem toNat_lt (c : Char) : c.toNat < 0x110000 := by
  have hvalid := c.valid
  have hnat : c.val.toNat = c.toNat := rfl
  simp only [UInt32.isValidChar, Nat.isValidChar, hnat] at hvalid
  omega

theorem highUnit_bounds {c : Char} (h : 0x10000 ≤ c.toNat) :
    0xd800 ≤ highUnit c ∧ highUnit c < 0xdc00 := by
  have hlt := toNat_lt c
  rw [highUnit]
  omega

theorem lowUnit_bounds (c : Char) : 0xdc00 ≤ lowUnit c ∧ lowUnit c < 0xe000 := by
  rw [lowUnit]
  omega

theorem escape_of_beq {c d e : Char} (h : (c == d) = true) (he : letterEscape? e = some d) :
    Escape (.char c) ['\\', e] := by
  rw [beq_iff_eq.1 h]
  exact .letter d e he

/-- **Every code point is printed in one of the four forms.** -/
theorem escape_escapePoint (p : CodePoint) : Escape p (escapePoint p) := by
  cases p with
  | half number =>
    refine .unit (.half number) ?_
    have hlt := number.isLt
    rw [CodePoint.toNat]
    omega
  | char c =>
    rw [escapePoint]
    unfold escapeChar
    split
    · rename_i h
      exact escape_of_beq h rfl
    rename_i hquote
    split
    · rename_i h
      exact escape_of_beq h rfl
    rename_i hbackslash
    split
    · rename_i h
      exact escape_of_beq h rfl
    split
    · rename_i h
      exact escape_of_beq h rfl
    split
    · rename_i h
      exact escape_of_beq h rfl
    split
    · rename_i h
      exact escape_of_beq h rfl
    split
    · rename_i h
      exact escape_of_beq h rfl
    split
    · rename_i h
      rw [Bool.and_eq_true, decide_eq_true_iff, decide_eq_true_iff] at h
      refine .plain c ?_ ?_ h
      · rintro rfl
        exact hquote rfl
      · rintro rfl
        exact hbackslash rfl
    split
    · rename_i h
      exact .unit (.char c) h
    · rename_i h
      exact .pair c (Nat.le_of_not_lt h)

/-! ## Escapes read back -/

section Read

variable {n : Nat} {c : Char} {rest : List Char}

/-- Four digits are read as their number when something follows. -/
theorem readUnit_hexPadded (h : n < 0x10000) (c : Char) (rest : List Char) :
    readUnit (hexPadded 4 n ++ c :: rest) = .ok (n, c :: rest) := by
  have hlength : (hexPadded 4 n).length = 4 := length_hexPadded (by decide) h
  have hnumber := hexNumber?_hexPadded 4 n
  match hexPadded 4 n, hlength, hnumber with
  | [a, b, c', d], _, hnumber =>
    simp only [List.cons_append, List.nil_append, readUnit, hnumber, List.isEmpty_cons,
      Bool.false_eq_true, if_false]

theorem unitEscape_append (n : Nat) (rest : List Char) :
    unitEscape n ++ rest = '\\' :: 'u' :: (hexPadded 4 n ++ rest) := rfl

/-- The text does not start with the escape of a low half. -/
def NoLowHalf (cs : List Char) : Prop :=
  ∀ next, cs = '\\' :: 'u' :: next →
    ∃ m after, readUnit next = .ok (m, after) ∧ isLowSurrogate m = false

/-- A unit that is not the first of a pair is a code point by itself. -/
theorem readUnicodeEscape_unit (h : n < 0x10000)
    (hpair : isHighSurrogate n = true → NoLowHalf (c :: rest)) :
    readUnicodeEscape (hexPadded 4 n ++ c :: rest) = .ok (.ofUnit n, c :: rest) := by
  unfold readUnicodeEscape
  rw [readUnit_hexPadded h]
  simp only [bind, Except.bind]
  split
  · -- A high half, and another escape behind it: that one is no low half.
    rename_i next hhigh heq
    rw [Bool.and_eq_true] at hhigh
    obtain ⟨m, after, hnext, hlow⟩ := hpair hhigh.1 next heq
    rw [hnext]
    simp only [hlow, Bool.false_eq_true, if_false]
    rw [heq]
    rfl
  · rfl

/-- Two units that make up a pair are one character. -/
theorem readUnicodeEscape_units {m : Nat} (hn : n < 0x10000) (hm : m < 0x10000)
    (hhigh : isHighSurrogate n = true) (hlow : isLowSurrogate m = true) (c : Char)
    (rest : List Char) :
    readUnicodeEscape (hexPadded 4 n ++ unitEscape m ++ c :: rest)
      = .ok (.char (Char.ofNat (0x10000 + (n - 0xd800) * 0x400 + (m - 0xdc00))), c :: rest) := by
  have hlength : (hexPadded 4 m).length = 4 := length_hexPadded (by decide) hm
  have hmore : (('\\' :: 'u' :: (hexPadded 4 m ++ c :: rest)).drop 6).isEmpty = false := by
    rw [List.drop_succ_cons, List.drop_succ_cons, List.drop_left' hlength, List.isEmpty_cons]
  unfold readUnicodeEscape
  rw [List.append_assoc, unitEscape_append, readUnit_hexPadded hn]
  simp only [bind, Except.bind, hhigh, hmore, Bool.not_false, Bool.and_self, readUnit_hexPadded hm,
    hlow, if_true]
  rfl

theorem readUnicodeEscape_pair {astral : Char} (h : 0x10000 ≤ astral.toNat) (c : Char)
    (rest : List Char) :
    readUnicodeEscape (hexPadded 4 (highUnit astral) ++ unitEscape (lowUnit astral) ++ c :: rest)
      = .ok (.char astral, c :: rest) := by
  obtain ⟨hhigh, hhigh'⟩ := highUnit_bounds h
  obtain ⟨hlow, hlow'⟩ := lowUnit_bounds astral
  have hvalue : 0x10000 + (highUnit astral - 0xd800) * 0x400 + (lowUnit astral - 0xdc00)
      = astral.toNat := by
    rw [highUnit, lowUnit]
    omega
  have hishigh : isHighSurrogate (highUnit astral) = true := by
    rw [isHighSurrogate, Bool.and_eq_true, decide_eq_true_iff, decide_eq_true_iff]
    exact ⟨hhigh, hhigh'⟩
  have hislow : isLowSurrogate (lowUnit astral) = true := by
    rw [isLowSurrogate, Bool.and_eq_true, decide_eq_true_iff, decide_eq_true_iff]
    exact ⟨hlow, hlow'⟩
  rw [readUnicodeEscape_units (by omega) (by omega) hishigh hislow, hvalue, Char.ofNat_toNat]

theorem ofUnit_toNat {p : CodePoint} (h : p.toNat < 0x10000) : CodePoint.ofUnit p.toNat = p := by
  cases p with
  | half number =>
    have hlt := number.isLt
    rw [CodePoint.ofUnit, dif_pos (by rw [CodePoint.toNat]; omega)]
    refine congrArg CodePoint.half (Fin.ext ?_)
    show 0xd800 + number.val - 0xd800 = number.val
    omega
  | char c =>
    have hne := CodePoint.toNat_lt_or_lt c
    rw [CodePoint.ofUnit, dif_neg (by rw [CodePoint.toNat]; omega)]
    exact congrArg CodePoint.char (Char.ofNat_toNat c)

theorem letterEscape?_ne_u {e c : Char} (h : letterEscape? e = some c) : e ≠ 'u' := by
  rintro rfl
  cases h

/-- A printed code point is read back, if what follows is not the other half of it. -/
theorem readStringPoint_escapePoint (opened : Nat) {p : CodePoint} (c : Char) (rest : List Char)
    (hpair : isHighSurrogate p.toNat = true → NoLowHalf (c :: rest)) :
    readStringPoint opened (escapePoint p ++ c :: rest) = .ok (some p, c :: rest) := by
  have hform := escape_escapePoint p
  generalize escapePoint p = text at hform
  cases hform with
  | plain c' hquote hbackslash hprintable =>
    rw [List.cons_append, List.nil_append]
    unfold readStringPoint
    split
    · rename_i heq
      cases heq
    · rename_i heq
      exact absurd (List.cons.inj heq).1 hquote
    · rename_i heq
      exact absurd (List.cons.inj heq).1 hbackslash
    · rename_i heq
      exact absurd (List.cons.inj heq).1 hbackslash
    · rename_i heq
      exact absurd (List.cons.inj heq).1 hbackslash
    · rename_i heq
      cases heq
      rw [if_neg (Nat.not_lt.2 hprintable.1)]
  | letter c' e h =>
    have hne := letterEscape?_ne_u h
    rw [List.cons_append, List.cons_append, List.nil_append, readStringPoint]
    · rw [h]
    · exact hne
  | unit _ h =>
    rw [unitEscape_append, readStringPoint, readUnicodeEscape_unit h hpair, ofUnit_toNat h]
    rfl
  | pair astral h =>
    rw [List.append_assoc, unitEscape_append, readStringPoint, ← List.append_assoc,
      readUnicodeEscape_pair h]
    rfl

end Read

/-! ## Strings read back -/

section Strings

variable {points : List CodePoint}

/-- A printed text starts with the escape of a low half only if the text starts with a low half. -/
theorem noLowHalf_flatMap (points : List CodePoint) (rest : List Char)
    (h : ∀ p ∈ points.head?, isLowSurrogate p.toNat = false) :
    NoLowHalf (points.flatMap escapePoint ++ '"' :: rest) := by
  intro next heq
  cases points with
  | nil => cases heq
  | cons p points =>
    obtain ⟨c, tail, htail⟩ : ∃ c tail, points.flatMap escapePoint ++ '"' :: rest = c :: tail :=
      List.exists_cons_of_ne_nil (by simp)
    have hform := escape_escapePoint p
    rw [List.flatMap_cons, List.append_assoc, htail] at heq
    generalize escapePoint p = text at hform heq
    cases hform with
    | plain c' hquote hbackslash =>
      exact absurd (List.cons.inj heq).1 hbackslash
    | letter c' e hletter =>
      exact absurd (List.cons.inj (List.cons.inj heq).2).1 (letterEscape?_ne_u hletter)
    | unit _ hunit =>
      rw [unitEscape_append] at heq
      have hnext : hexPadded 4 p.toNat ++ c :: tail = next := (List.cons.inj (List.cons.inj heq).2).2
      refine ⟨p.toNat, c :: tail, ?_, h p rfl⟩
      rw [← hnext, readUnit_hexPadded hunit]
    | pair astral hastral =>
      -- The first unit of a pair is a high half, so it is no low one.
      obtain ⟨-, hhigh⟩ := highUnit_bounds hastral
      have hhigh4 : highUnit astral < 0x10000 := by omega
      have hnext : hexPadded 4 (highUnit astral) ++ (unitEscape (lowUnit astral) ++ c :: tail) = next := by
        rw [List.append_assoc, unitEscape_append] at heq
        exact (List.cons.inj (List.cons.inj heq).2).2
      refine ⟨highUnit astral, unitEscape (lowUnit astral) ++ c :: tail, ?_, ?_⟩
      · rw [← hnext, unitEscape_append, readUnit_hexPadded hhigh4]
      · rw [isLowSurrogate, Bool.and_eq_false_iff, decide_eq_false_iff_not, Nat.not_le]
        exact .inl hhigh

theorem readStringPoints_flatMap (opened : Nat) {fuel : Nat} (rest : List Char)
    (hfuel : points.length < fuel) (h : CodeText.Unsplit ⟨points⟩) :
    readStringPoints opened fuel (points.flatMap escapePoint ++ '"' :: rest)
      = .ok (points, rest) := by
  induction points generalizing fuel with
  | nil =>
    cases fuel with
    | zero => cases hfuel
    | succ fuel => rfl
  | cons p points ih =>
    cases fuel with
    | zero => cases hfuel
    | succ fuel =>
      -- The next point is no low half, or the two would be read as one character.
      have hpair : isHighSurrogate p.toNat = true →
          NoLowHalf (points.flatMap escapePoint ++ '"' :: rest) := by
        intro hhigh
        refine noLowHalf_flatMap points rest fun q hq => ?_
        cases points with
        | nil => cases hq
        | cons q' points =>
          cases hq
          exact Bool.eq_false_iff.2 fun hlow => (List.isChain_cons_cons.1 h).1 ⟨hhigh, hlow⟩
      have hrest := ih (Nat.lt_of_succ_lt_succ hfuel) (List.IsChain.tail h)
      obtain ⟨c, tail, htail⟩ : ∃ c tail, points.flatMap escapePoint ++ '"' :: rest = c :: tail :=
        List.exists_cons_of_ne_nil (by simp)
      rw [htail] at hpair hrest
      rw [List.flatMap_cons, List.append_assoc, htail, readStringPoints,
        readStringPoint_escapePoint opened c tail hpair]
      simp only [bind, Except.bind, hrest]
      rfl

theorem length_le_flatMap_escapePoint (points : List CodePoint) :
    points.length ≤ (points.flatMap escapePoint).length := by
  induction points with
  | nil => exact Nat.le_refl 0
  | cons p points ih =>
    have hpos : 0 < (escapePoint p).length := by
      have hform := escape_escapePoint p
      generalize escapePoint p = text at hform
      cases hform with
      | plain | letter | unit | pair => exact Nat.succ_pos _
    rw [List.flatMap_cons, List.length_append, List.length_cons]
    omega

theorem toList_showString_append (text : CodeText) (rest : List Char) :
    (showString text).toList ++ rest = '"' :: (text.points.flatMap escapePoint ++ '"' :: rest) := by
  rw [showString, String.toList_ofList, List.cons_append, List.cons_append, List.append_assoc]
  rfl

/-- **A printed text is read back**, if it splits no character into halves. -/
theorem readString_showString {text : CodeText} (h : text.Unsplit) (rest : List Char) :
    readString (text.points.flatMap escapePoint ++ '"' :: rest) = .ok (text, rest) := by
  have hlength := length_le_flatMap_escapePoint text.points
  rw [readString, readStringPoints_flatMap _ rest ?_ h]
  · rfl
  · rw [List.length_append]
    omega

/-- Two halves of a character are printed like the character. -/
example : showString ⟨[.half 0x3d, .half 0x600]⟩ = showString ⟨[.char (Char.ofNat 0x1f600)]⟩ := by
  decide +kernel

/-- **What is printed is printable ASCII.** -/
theorem printable_of_mem_escapePoint {p : CodePoint} {c : Char} (h : c ∈ escapePoint p) :
    Printable c := by
  have hdigits : ∀ d < 16, Printable (Nat.digitChar d) := by unfold Printable; decide
  have hunit : ∀ n, c ∈ unitEscape n → Printable c := by
    intro n hc
    rcases List.mem_cons.1 hc with rfl | hc
    · exact ⟨by decide, by decide⟩
    rcases List.mem_cons.1 hc with rfl | hc
    · exact ⟨by decide, by decide⟩
    obtain ⟨d, hd, rfl⟩ := exists_digitChar_of_mem_hexPadded hc
    exact hdigits d hd
  have hform := escape_escapePoint p
  generalize escapePoint p = text at hform h
  cases hform with
  | plain c' hquote hbackslash hprintable =>
    obtain rfl := List.mem_singleton.1 h
    exact hprintable
  | letter c' e hletter =>
    rcases List.mem_cons.1 h with rfl | h
    · exact ⟨by decide, by decide⟩
    · obtain rfl := List.mem_singleton.1 h
      unfold letterEscape? at hletter
      split at hletter <;> first | exact ⟨by decide, by decide⟩ | cases hletter
  | unit => exact hunit _ h
  | pair =>
    rcases List.mem_append.1 h with h | h
    · exact hunit _ h
    · exact hunit _ h

end Strings

end Json

/-- Every string is unsplit. -/
theorem CodeText.unsplit_ofString (s : String) : (CodeText.ofString s).Unsplit := by
  have hchars : ∀ cs : List Char, CodeText.Unsplit ⟨cs.map .char⟩ := by
    intro cs
    induction cs with
    | nil => exact List.isChain_nil
    | cons c cs ih =>
      refine List.isChain_cons.2 ⟨fun q _ hsplit => ?_, ih⟩
      have hhigh := hsplit.1
      have hne := CodePoint.toNat_lt_or_lt c
      rw [Json.isHighSurrogate, CodePoint.toNat, Bool.and_eq_true, decide_eq_true_iff,
        decide_eq_true_iff] at hhigh
      omega
  exact hchars s.toList

end NodeLedger
