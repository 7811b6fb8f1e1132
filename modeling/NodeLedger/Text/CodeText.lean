import NodeLedger.Text.Hex

/-!
# Texts of code points

JSON writes a character beyond U+FFFF as two halves, a surrogate pair, and nothing keeps it from
writing a half without its partner. A text read from JSON may therefore hold lone halves. It is kept
as it is, compared and written back as it is; only where characters are called for does a half
matter.

- `CodeText`: a text of code points, each a character or a lone half. Every string is one.
- `CodeText.proper`: the string that a text is, or where it first fails to be one. **A string is
  proper** (`CodeText.proper_ofString`).
- `CodeText.join`: texts put together with a separator.
- `CodeText.shown`: the text as people see it, with escapes for its halves.
- `CodeText.precedes`: the order by code point. It is a strict total order (`CodeText.lt_irrefl`,
  `CodeText.lt_trans`, `CodeText.eq_of_not_lt`), and on strings it is theirs
  (`CodeText.ofString_lt_ofString`).
-/

namespace NodeLedger

/-- A character, or one of the 2048 halves U+D800 to U+DFFF by its number from zero. -/
inductive CodePoint where
  | char (c : Char)
  | half (number : Fin 0x800)
  deriving Repr, DecidableEq

namespace CodePoint

/-- The number of a code point. -/
def toNat : CodePoint → Nat
  | char c => c.toNat
  | half number => 0xd800 + number.val

/-- The code point of a number below U+10000. -/
def ofUnit (n : Nat) : CodePoint :=
  if h : 0xd800 ≤ n ∧ n < 0xe000 then half ⟨n - 0xd800, by omega⟩ else char (Char.ofNat n)

/-- A code point that is no character. -/
def isHalf : CodePoint → Bool
  | char _ => false
  | half _ => true

/-- No character has the number of a half. -/
theorem toNat_lt_or_lt (c : Char) : c.toNat < 0xd800 ∨ 0xdfff < c.toNat := by
  have hvalid := c.valid
  have hnat : c.val.toNat = c.toNat := rfl
  simp only [UInt32.isValidChar, Nat.isValidChar, hnat] at hvalid
  omega

theorem toNat_inj {a b : CodePoint} (h : a.toNat = b.toNat) : a = b := by
  cases a with
  | char c =>
    cases b with
    | char d => exact congrArg char (Char.toNat_inj.1 h)
    | half number =>
      have := toNat_lt_or_lt c
      simp only [toNat] at h
      omega
  | half number =>
    cases b with
    | char d =>
      have := toNat_lt_or_lt d
      simp only [toNat] at h
      omega
    | half other =>
      simp only [toNat] at h
      exact congrArg half (Fin.ext (by omega))

end CodePoint

/-- A text of code points. -/
@[ext] structure CodeText where
  points : List CodePoint
  deriving Repr, DecidableEq

/-- Halves where characters are called for: the place of the first one, and how many follow each
other there. -/
structure HalfFault where
  position : Nat
  first : Fin 0x800
  count : Nat
  deriving Repr, DecidableEq

/-- The wording of a fault. -/
def HalfFault.message (fault : HalfFault) : String :=
  let what :=
    if fault.count = 1 then
      let point := String.ofList (Text.unitEscape (CodePoint.half fault.first).toNat)
      s!"character '{point}' in position {fault.position}"
    else s!"characters in position {fault.position}-{fault.position + fault.count - 1}"
  s!"'utf-8' codec can't encode {what}: surrogates not allowed"

namespace CodeText

/-- A string as a text of code points. -/
def ofString (s : String) : CodeText :=
  ⟨s.toList.map .char⟩

instance : Coe String CodeText := ⟨ofString⟩

instance : Append CodeText := ⟨fun a b => ⟨a.points ++ b.points⟩⟩

@[simp] theorem points_ofString (s : String) : (ofString s).points = s.toList.map .char := rfl

@[simp] theorem points_append (a b : CodeText) : (a ++ b).points = a.points ++ b.points := rfl

/-- Texts with a separator between each of them and the next one. -/
def join (separator : CodeText) : List CodeText → CodeText
  | [] => ""
  | [text] => text
  | text :: texts => text ++ separator ++ join separator texts

/-- The characters of a text that has halves nowhere; `position` is the place of the first one. -/
def properFrom (position : Nat) : List CodePoint → Except HalfFault (List Char)
  | [] => .ok []
  | .char c :: points => (properFrom (position + 1) points).map (c :: ·)
  | .half number :: points =>
    .error ⟨position, number, 1 + (points.takeWhile CodePoint.isHalf).length⟩

/-- The string that a text is, or the first halves in it. -/
def proper (text : CodeText) : Except HalfFault String :=
  (properFrom 0 text.points).map String.ofList

/-- The string that a text is, if it is one. -/
def string? (text : CodeText) : Option String :=
  text.proper.toOption

/-- The text with a character of its own, or several, in the place of each half. -/
def fillHalves (fill : Fin 0x800 → List Char) (text : CodeText) : String :=
  String.ofList (text.points.flatMap fun
    | .char c => [c]
    | .half number => fill number)

/-- The text as people see it: an escape stands for a half. -/
def shown (text : CodeText) : String :=
  text.fillHalves fun number => Text.unitEscape (CodePoint.half number).toNat

theorem properFrom_char (position : Nat) (cs : List Char) :
    properFrom position (cs.map .char) = .ok cs := by
  induction cs generalizing position with
  | nil => rfl
  | cons c cs ih => rw [List.map_cons, properFrom, ih]; rfl

/-- **A string is proper.** -/
@[simp] theorem proper_ofString (s : String) : (ofString s).proper = .ok s := by
  rw [proper, ofString, properFrom_char]
  exact congrArg Except.ok String.ofList_toList

@[simp] theorem string?_ofString (s : String) : (ofString s).string? = some s := by
  rw [string?, proper_ofString]
  rfl

@[simp] theorem ofString_inj {s t : String} : ofString s = ofString t ↔ s = t :=
  ⟨fun h => by simpa using congrArg string? h, congrArg ofString⟩

theorem append_assoc (a b c : CodeText) : a ++ b ++ c = a ++ (b ++ c) :=
  congrArg CodeText.mk (List.append_assoc a.points b.points c.points)

@[simp] theorem fillHalves_ofString (fill : Fin 0x800 → List Char) (s : String) :
    (ofString s).fillHalves fill = s := by
  have hchars : ∀ cs : List Char, ((cs.map CodePoint.char).flatMap fun
      | .char c => [c]
      | .half number => fill number) = cs := by
    intro cs
    induction cs with
    | nil => rfl
    | cons c cs ih => rw [List.map_cons, List.flatMap_cons, ih]; rfl
  rw [fillHalves, ofString, hchars]
  exact String.ofList_toList

/-! ## Order -/

/-- The first list of code points comes before the second one. -/
def precedes : List CodePoint → List CodePoint → Bool
  | _, [] => false
  | [], _ :: _ => true
  | a :: as, b :: bs => a.toNat < b.toNat || (a.toNat == b.toNat && precedes as bs)

instance : LT CodeText := ⟨fun a b => precedes a.points b.points = true⟩

instance : LE CodeText := ⟨fun a b => ¬ precedes b.points a.points = true⟩

instance (a b : CodeText) : Decidable (a < b) :=
  inferInstanceAs (Decidable (_ = true))

instance (a b : CodeText) : Decidable (a ≤ b) :=
  inferInstanceAs (Decidable (¬ _ = true))

theorem precedes_irrefl (a : List CodePoint) : precedes a a = false := by
  induction a with
  | nil => rfl
  | cons p a ih => simp [precedes, ih]

theorem precedes_trans {a b c : List CodePoint} (hab : precedes a b = true)
    (hbc : precedes b c = true) : precedes a c = true := by
  induction a generalizing b c with
  | nil =>
    cases c with
    | nil => cases b <;> simp [precedes] at hbc
    | cons r c => rfl
  | cons p a ih =>
    cases b with
    | nil => simp [precedes] at hab
    | cons q b =>
      cases c with
      | nil => simp [precedes] at hbc
      | cons r c =>
        simp only [precedes, Bool.or_eq_true, Bool.and_eq_true, decide_eq_true_eq,
          beq_iff_eq] at hab hbc ⊢
        rcases hab with hpq | ⟨hpq, hab⟩
        · rcases hbc with hqr | ⟨hqr, -⟩
          · exact .inl (Nat.lt_trans hpq hqr)
          · exact .inl (hqr ▸ hpq)
        · rcases hbc with hqr | ⟨hqr, hbc⟩
          · exact .inl (hpq ▸ hqr)
          · exact .inr ⟨hpq.trans hqr, ih hab hbc⟩

theorem eq_of_not_precedes {a b : List CodePoint} (hab : precedes a b = false)
    (hba : precedes b a = false) : a = b := by
  induction a generalizing b with
  | nil =>
    cases b with
    | nil => rfl
    | cons q b => simp [precedes] at hab
  | cons p a ih =>
    cases b with
    | nil => simp [precedes] at hba
    | cons q b =>
      simp only [precedes, Bool.or_eq_false_iff, Bool.and_eq_false_iff, decide_eq_false_iff_not,
        beq_eq_false_iff_ne, ne_eq] at hab hba
      have hpq : p.toNat = q.toNat := by omega
      have htail : a = b :=
        ih (hab.2.resolve_left (fun h => h hpq)) (hba.2.resolve_left (fun h => h hpq.symm))
      rw [CodePoint.toNat_inj hpq, htail]

@[simp] theorem lt_irrefl (a : CodeText) : ¬ a < a := by
  show ¬ precedes a.points a.points = true
  rw [precedes_irrefl]
  exact Bool.false_ne_true

theorem lt_trans {a b c : CodeText} (hab : a < b) (hbc : b < c) : a < c :=
  precedes_trans hab hbc

/-- Two texts of which neither comes before the other are the same. -/
theorem eq_of_not_lt {a b : CodeText} (hab : ¬ a < b) (hba : ¬ b < a) : a = b := by
  obtain ⟨a⟩ := a
  obtain ⟨b⟩ := b
  exact congrArg CodeText.mk
    (eq_of_not_precedes (Bool.eq_false_iff.2 hab) (Bool.eq_false_iff.2 hba))

theorem precedes_char (cs ds : List Char) :
    precedes (cs.map .char) (ds.map .char) = true ↔ cs < ds := by
  induction cs generalizing ds with
  | nil => cases ds <;> simp [precedes]
  | cons c cs ih =>
    cases ds with
    | nil => simp [precedes]
    | cons d ds =>
      simp only [List.map_cons, precedes, Bool.or_eq_true, Bool.and_eq_true, decide_eq_true_eq,
        beq_iff_eq, ih]
      simp only [CodePoint.toNat, Char.toNat_inj, List.cons_lt_cons_iff, Char.lt_def,
        UInt32.lt_iff_toNat_lt, Char.toNat_val]

/-- **Strings keep their order.** -/
theorem ofString_lt_ofString (s t : String) : ofString s < ofString t ↔ s < t :=
  (precedes_char s.toList t.toList).trans String.lt_iff.symm

end CodeText

end NodeLedger
