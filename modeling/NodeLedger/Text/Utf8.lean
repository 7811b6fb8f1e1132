import NodeLedger.Text.Hex

/-!
# UTF-8 text in files

Files hold bytes; their text is UTF-8 in which every line end, `\r\n` or `\r` included, reads as
`\n`.

- `decode`: the characters that a list of bytes stands for, or the first fault in it.
- `Utf8Fault`: which bytes are at fault and why. A fault covers the longest start of a character
  that the bytes still agree with.
- `encode`: the bytes of a list of characters. **What was encoded decodes to itself**
  (`decode_encode`).
- `unifyNewlines`: all line ends written as `\n`.
-/

namespace NodeLedger.Text

/-- What is wrong with a byte. -/
inductive Utf8Reason where
  /-- No character starts with this byte. -/
  | invalidStart
  /-- The character started here does not continue with the next byte. -/
  | invalidContinuation
  /-- The bytes end inside a character. -/
  | unexpectedEnd
  deriving Repr, DecidableEq

/-- The wording of a reason. -/
def Utf8Reason.message : Utf8Reason → String
  | invalidStart => "invalid start byte"
  | invalidContinuation => "invalid continuation byte"
  | unexpectedEnd => "unexpected end of data"

/-- Bytes that are no UTF-8: where they start, the first of them, and how many they are. -/
structure Utf8Fault where
  position : Nat
  first : UInt8
  width : Nat
  reason : Utf8Reason
  deriving Repr, DecidableEq

/-- The wording of a fault. -/
def Utf8Fault.message (f : Utf8Fault) : String :=
  let place :=
    if f.width == 1 then
      s!"byte 0x{String.ofList (hexPadded 2 f.first.toNat)} in position {f.position}"
    else s!"bytes in position {f.position}-{f.position + f.width - 1}"
  s!"'utf-8' codec can't decode {place}: {f.reason.message}"

/-- A byte that may stand inside a character. -/
def isContinuation (b : UInt8) : Bool :=
  0x80 ≤ b && b < 0xc0

/-- A byte that may come second after a first byte of three or four: this excludes overlong forms,
surrogates, and code points past the last. -/
def isSecond (first second : UInt8) : Bool :=
  isContinuation second &&
    (if first == 0xe0 then 0xa0 ≤ second
     else if first == 0xed then second < 0xa0
     else if first == 0xf0 then 0x90 ≤ second
     else if first == 0xf4 then second < 0x90
     else true)

/-- The low six bits of a continuation byte. -/
def payload (b : UInt8) : Nat := b.toNat % 64

/-- Decode bytes of which `position` others came before. -/
def decodeFrom (position : Nat) : List UInt8 → Except Utf8Fault (List Char)
  | [] => .ok []
  | a :: rest =>
    let fault := fun width reason => Except.error (Utf8Fault.mk position a width reason)
    if a < 0x80 then
      (decodeFrom (position + 1) rest).map (Char.ofNat a.toNat :: ·)
    else if a < 0xc2 || 0xf4 < a then
      fault 1 .invalidStart
    else if a < 0xe0 then
      match rest with
      | [] => fault 1 .unexpectedEnd
      | b :: rest =>
        if isContinuation b then
          (decodeFrom (position + 2) rest).map
            (Char.ofNat ((a.toNat - 0xc0) * 64 + payload b) :: ·)
        else fault 1 .invalidContinuation
    else if a < 0xf0 then
      match rest with
      | [] => fault 1 .unexpectedEnd
      | b :: rest =>
        if !isSecond a b then fault 1 .invalidContinuation
        else match rest with
          | [] => fault 2 .unexpectedEnd
          | c :: rest =>
            if isContinuation c then
              (decodeFrom (position + 3) rest).map
                (Char.ofNat ((a.toNat - 0xe0) * 4096 + payload b * 64 + payload c) :: ·)
            else fault 2 .invalidContinuation
    else
      match rest with
      | [] => fault 1 .unexpectedEnd
      | b :: rest =>
        if !isSecond a b then fault 1 .invalidContinuation
        else match rest with
          | [] => fault 2 .unexpectedEnd
          | c :: rest =>
            if !isContinuation c then fault 2 .invalidContinuation
            else match rest with
              | [] => fault 3 .unexpectedEnd
              | d :: rest =>
                if isContinuation d then
                  (decodeFrom (position + 4) rest).map
                    (Char.ofNat ((a.toNat - 0xf0) * 262144 + payload b * 4096 + payload c * 64
                      + payload d) :: ·)
                else fault 3 .invalidContinuation

/-- The characters that a list of bytes stands for. -/
def decode (bytes : List UInt8) : Except Utf8Fault (List Char) :=
  decodeFrom 0 bytes

/-- The bytes of a list of characters. -/
def encode (cs : List Char) : List UInt8 :=
  cs.flatMap String.utf8EncodeChar

/-- All line ends written as `\n`. -/
def unifyNewlines : List Char → List Char
  | [] => []
  | '\r' :: '\n' :: cs => '\n' :: unifyNewlines cs
  | '\r' :: cs => '\n' :: unifyNewlines cs
  | c :: cs => c :: unifyNewlines cs

/-! ## Decoding what was encoded -/

theorem decodeFrom_one {position : Nat} {a : UInt8} (rest : List UInt8) (h : a < 0x80) :
    decodeFrom position (a :: rest)
      = (decodeFrom (position + 1) rest).map (Char.ofNat a.toNat :: ·) := by
  rw [decodeFrom.eq_def]
  exact if_pos h

theorem decodeFrom_two {position : Nat} {a b : UInt8} (rest : List UInt8)
    (hlow : 0xc2 ≤ a) (hhigh : a < 0xe0) (hb : isContinuation b = true) :
    decodeFrom position (a :: b :: rest)
      = (decodeFrom (position + 2) rest).map
          (Char.ofNat ((a.toNat - 0xc0) * 64 + payload b) :: ·) := by
  have h : ¬ a < 0x80 := by grind
  have hstart : (decide (a < 0xc2) || decide (0xf4 < a)) = false := by grind
  rw [decodeFrom.eq_def]
  simp [h, hstart, hhigh, hb]

theorem decodeFrom_three {position : Nat} {a b c : UInt8} (rest : List UInt8)
    (hlow : 0xe0 ≤ a) (hhigh : a < 0xf0) (hb : isSecond a b = true) (hc : isContinuation c = true) :
    decodeFrom position (a :: b :: c :: rest)
      = (decodeFrom (position + 3) rest).map
          (Char.ofNat ((a.toNat - 0xe0) * 4096 + payload b * 64 + payload c) :: ·) := by
  have h : ¬ a < 0x80 := by grind
  have htwo : ¬ a < 0xe0 := by grind
  have hstart : (decide (a < 0xc2) || decide (0xf4 < a)) = false := by grind
  rw [decodeFrom.eq_def]
  simp [h, htwo, hstart, hhigh, hb, hc]

theorem decodeFrom_four {position : Nat} {a b c d : UInt8} (rest : List UInt8)
    (hlow : 0xf0 ≤ a) (hhigh : a ≤ 0xf4) (hb : isSecond a b = true)
    (hc : isContinuation c = true) (hd : isContinuation d = true) :
    decodeFrom position (a :: b :: c :: d :: rest)
      = (decodeFrom (position + 4) rest).map
          (Char.ofNat ((a.toNat - 0xf0) * 262144 + payload b * 4096 + payload c * 64
            + payload d) :: ·) := by
  have h : ¬ a < 0x80 := by grind
  have htwo : ¬ a < 0xe0 := by grind
  have hthree : ¬ a < 0xf0 := by grind
  have hstart : (decide (a < 0xc2) || decide (0xf4 < a)) = false := by grind
  rw [decodeFrom.eq_def]
  simp [h, htwo, hthree, hstart, hb, hc, hd]

theorem isContinuation_ofNat (n : Nat) : isContinuation (UInt8.ofNat (n % 64 + 128)) = true := by
  simp only [isContinuation, UInt8.lt_iff_toNat_lt, UInt8.le_iff_toNat_le, UInt8.toNat_ofNat',
    Bool.and_eq_true, decide_eq_true_eq]
  constructor <;> simp <;> omega

theorem payload_ofNat (n : Nat) : payload (UInt8.ofNat (n % 64 + 128)) = n % 64 := by
  simp only [payload, UInt8.toNat_ofNat']
  omega

/-- A continuation byte may stand second if the first byte allows for its payload. -/
theorem isSecond_ofNat {a : UInt8} {n : Nat} (he0 : a.toNat = 0xe0 → 0x20 ≤ n % 64)
    (hed : a.toNat = 0xed → n % 64 < 0x20) (hf0 : a.toNat = 0xf0 → 0x10 ≤ n % 64)
    (hf4 : a.toNat = 0xf4 → n % 64 < 0x10) : isSecond a (UInt8.ofNat (n % 64 + 128)) = true := by
  have hb : (UInt8.ofNat (n % 64 + 128)).toNat = n % 64 + 128 := by simp; omega
  rw [isSecond, isContinuation_ofNat, Bool.true_and]
  simp only [beq_iff_eq, ← UInt8.toNat_inj, UInt8.lt_iff_toNat_lt, UInt8.le_iff_toNat_le, hb]
  split
  · have := he0 ‹_›
    simp; omega
  split
  · have := hed ‹_›
    simp; omega
  split
  · have := hf0 ‹_›
    simp; omega
  split
  · have := hf4 ‹_›
    simp; omega
  · rfl

/-- **Decoding undoes encoding**, one character at a time. -/
theorem decodeFrom_utf8EncodeChar (position : Nat) (c : Char) (rest : List UInt8) :
    ∃ next, decodeFrom position (String.utf8EncodeChar c ++ rest)
      = (decodeFrom next rest).map (c :: ·) := by
  have hvalid := c.valid
  simp only [UInt32.isValidChar, Nat.isValidChar] at hvalid
  have hchar : ∀ n, n = c.val.toNat → Char.ofNat n = c := fun n hn => hn ▸ Char.ofNat_toNat c
  unfold String.utf8EncodeChar
  generalize c.val.toNat = v at hvalid hchar
  dsimp only
  split
  · refine ⟨position + 1, ?_⟩
    have ha : (UInt8.ofNat v).toNat = v := by simp; omega
    rw [List.cons_append, List.nil_append,
      decodeFrom_one rest (UInt8.lt_iff_toNat_lt.2 (by simp; omega)), ha, hchar v rfl]
  split
  · refine ⟨position + 2, ?_⟩
    have ha : (UInt8.ofNat (v / 64 % 32 + 192)).toNat = v / 64 + 192 := by simp; omega
    rw [List.cons_append, List.cons_append, List.nil_append,
      decodeFrom_two rest (UInt8.le_iff_toNat_le.2 (by simp; omega))
        (UInt8.lt_iff_toNat_lt.2 (by simp; omega)) (isContinuation_ofNat v),
      ha, payload_ofNat, hchar _ (by omega)]
  split
  · refine ⟨position + 3, ?_⟩
    have ha : (UInt8.ofNat (v / 4096 % 16 + 224)).toNat = v / 4096 + 224 := by simp; omega
    rw [List.cons_append, List.cons_append, List.cons_append, List.nil_append,
      decodeFrom_three rest (UInt8.le_iff_toNat_le.2 (by simp; omega))
        (UInt8.lt_iff_toNat_lt.2 (by simp; omega)) ?_ (isContinuation_ofNat v),
      ha, payload_ofNat, payload_ofNat, hchar _ (by omega)]
    exact isSecond_ofNat (by omega) (by omega) (by omega) (by omega)
  · refine ⟨position + 4, ?_⟩
    have ha : (UInt8.ofNat (v / 262144 % 8 + 240)).toNat = v / 262144 + 240 := by simp; omega
    rw [List.cons_append, List.cons_append, List.cons_append, List.cons_append, List.nil_append,
      decodeFrom_four rest (UInt8.le_iff_toNat_le.2 (by simp; omega))
        (UInt8.le_iff_toNat_le.2 (by simp; omega)) ?_ (isContinuation_ofNat (v / 64))
        (isContinuation_ofNat v),
      ha, payload_ofNat, payload_ofNat, payload_ofNat, hchar _ (by omega)]
    exact isSecond_ofNat (by omega) (by omega) (by omega) (by omega)

theorem decodeFrom_encode (position : Nat) (cs : List Char) :
    decodeFrom position (encode cs) = .ok cs := by
  induction cs generalizing position with
  | nil => rfl
  | cons c cs ih =>
    obtain ⟨next, hnext⟩ := decodeFrom_utf8EncodeChar position c (encode cs)
    rw [encode, List.flatMap_cons]
    exact hnext.trans (by rw [ih next]; rfl)

/-- **What was encoded decodes to itself.** -/
@[simp] theorem decode_encode (cs : List Char) : decode (encode cs) = .ok cs :=
  decodeFrom_encode 0 cs

example : decode [0xe2, 0x80, 0x28] = .error ⟨0, 0xe2, 2, .invalidContinuation⟩ := rfl
example : decode [0xf0, 0x9f, 0x99, 0x82] = .ok [Char.ofNat 0x1f642] := rfl

end NodeLedger.Text
