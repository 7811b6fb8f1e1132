import NodeLedger.Text.CodeText

/-!
# Control sequences

A terminal obeys a control sequence instead of showing it: an escape character and an opening
bracket, then parameters, then intermediate characters, then a final character. Names that come from
elsewhere may hold such sequences; lines are written without them, so that a name cannot steer a
terminal.

- `CodeText.visible`: a text without its control sequences. They are looked for once, from the front;
  what comes together around a sequence that was dropped is not looked at again. **Without an escape
  character a text stays as it is** (`CodeText.visible_eq_self`).
-/

namespace NodeLedger.CodeText

/-- The character that starts a control sequence. -/
def escapeMark : CodePoint := .char '\x1b'

/-- A parameter of a control sequence, such as a digit or a semicolon. -/
def isParameter (point : CodePoint) : Bool :=
  0x30 ≤ point.toNat && point.toNat ≤ 0x3f

/-- An intermediate character of a control sequence, such as a blank. -/
def isIntermediate (point : CodePoint) : Bool :=
  0x20 ≤ point.toNat && point.toNat ≤ 0x2f

/-- A character that ends a control sequence, such as a letter. -/
def isFinal (point : CodePoint) : Bool :=
  0x40 ≤ point.toNat && point.toNat ≤ 0x7e

/-- A control sequence goes on with a code point. `held` is what it consists of so far, from the
latest to the first. -/
def goesOn (held : List CodePoint) (point : CodePoint) : Bool :=
  match held with
  | [] => false
  | [_] => point == .char '['
  | last :: _ => isIntermediate point || (isParameter point && !isIntermediate last)

/-- A control sequence ends with a code point. -/
def endsWith (held : List CodePoint) (point : CodePoint) : Bool :=
  match held with
  | [] | [_] => false
  | _ => isFinal point

/-- Code points without control sequences. `held` may be the start of one; `shown` comes before it,
also from the latest to the first. -/
def visibleFrom (held shown : List CodePoint) : List CodePoint → List CodePoint
  | [] => (held ++ shown).reverse
  | point :: points =>
    if goesOn held point then visibleFrom (point :: held) shown points
    else if endsWith held point then visibleFrom [] shown points
    else if point = escapeMark then visibleFrom [point] (held ++ shown) points
    else visibleFrom [] (point :: held ++ shown) points

/-- A text without its control sequences. -/
def visible (text : CodeText) : CodeText :=
  ⟨visibleFrom [] [] text.points⟩

theorem visibleFrom_of_notMem {points : List CodePoint} (h : escapeMark ∉ points)
    (shown : List CodePoint) : visibleFrom [] shown points = shown.reverse ++ points := by
  induction points generalizing shown with
  | nil => simp [visibleFrom]
  | cons point points ih =>
    obtain ⟨hpoint, hpoints⟩ := not_or.1 (mt List.mem_cons.2 h)
    rw [visibleFrom, if_neg (by simp [goesOn]), if_neg (by simp [endsWith]),
      if_neg (Ne.symm hpoint), ih hpoints]
    simp

/-- **Without an escape character a text stays as it is.** -/
theorem visible_eq_self {text : CodeText} (h : escapeMark ∉ text.points) : text.visible = text := by
  rw [visible, visibleFrom_of_notMem h]
  rfl

example : visible "a\x1b[31mb\x1b[?25;1hc" = "abc" := by decide +kernel
example : visible "a\x1b[, b\x1b[ 0m" = "a\x1b[ 0m" := by decide +kernel
example : visible "\x1b[1\x1b[0m;2m" = "\x1b[1;2m" := by decide +kernel

end NodeLedger.CodeText
