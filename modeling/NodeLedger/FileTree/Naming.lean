import NodeLedger.Text.CodeText
import NodeLedger.Text.Utf8

/-!
# Texts as names of files

A file system knows a name by its bytes. A character stands for its bytes in UTF-8, and each of the
halves U+DC80 to U+DCFF stands for a single byte, 80 to FF. So a text with halves may name a file too,
and halves whose bytes are those of a character name what the character names. The other halves stand
for no byte, and no path holds the character of code point zero.

- `CodeText.known`: a name as it is read back from its bytes. **A string is known by itself**
  (`CodeText.known_ofString`).
- `CodeText.byteLength`: how many bytes a text takes in a path.
- `Path.fault?`: why no file can have a path.
-/

namespace NodeLedger

open Text

/-- The byte that a half stands for in a path. -/
def CodePoint.byte? : CodePoint → Option UInt8
  | char _ => none
  | half number =>
    if 0x480 ≤ number.val ∧ number.val < 0x500 then some (UInt8.ofNat (number.val - 0x400)) else none

/-- How many bytes a code point takes in a path. -/
def CodePoint.byteLength : CodePoint → Nat
  | char c => (String.utf8EncodeChar c).length
  | half _ => 1

namespace CodeText

/-- How many bytes a text takes in a path. -/
def byteLength (text : CodeText) : Nat :=
  text.points.foldl (fun length point => length + point.byteLength) 0

/-- The character whose bytes are those of the halves. -/
def charOf? (points : List CodePoint) : Option Char := do
  let bytes ← points.mapM CodePoint.byte?
  match decode bytes with
  | .ok [c] => some c
  | _ => none

/-- The character whose bytes are those of the first halves, and how many halves it takes after the
first one. -/
def charAhead? (points : List CodePoint) : Option (Char × Nat) :=
  [1, 2, 3].findSome? fun more => (charOf? (points.take (more + 1))).map (·, more)

/-- Code points as they are read back from their bytes; the first ones are skipped. -/
def knownFrom : (skipped : Nat) → List CodePoint → List CodePoint
  | _, [] => []
  | skipped + 1, _ :: points => knownFrom skipped points
  | 0, point :: points =>
    match charAhead? (point :: points) with
    | some (c, more) => .char c :: knownFrom more points
    | none => point :: knownFrom 0 points

/-- A name as it is read back from its bytes. -/
def known (name : CodeText) : CodeText :=
  ⟨knownFrom 0 name.points⟩

theorem charAhead?_char (c : Char) (points : List CodePoint) : charAhead? (.char c :: points) = none :=
  rfl

/-- **A string is known by itself.** -/
@[simp] theorem known_ofString (name : String) : (ofString name).known = ofString name := by
  have hchars : ∀ cs : List Char, knownFrom 0 (cs.map .char) = cs.map .char := by
    intro cs
    induction cs with
    | nil => rfl
    | cons c cs ih => rw [List.map_cons, knownFrom, charAhead?_char, ih]
  exact congrArg CodeText.mk (hchars name.toList)

example : (⟨[.char 'i', .half 0x4c3, .half 0x4a9]⟩ : CodeText).known = "ié" := by decide +kernel
example : (⟨[.half 0x4c3, .char 'i']⟩ : CodeText).known = ⟨[.half 0x4c3, .char 'i']⟩ := by decide

end CodeText

/-- Why no file can have a path. -/
inductive PathFault where
  /-- It holds halves that stand for no byte. -/
  | halves (fault : HalfFault)
  /-- It holds the character of code point zero. -/
  | nul
  deriving Repr, DecidableEq

/-- The wording of a fault. -/
def PathFault.message : PathFault → String
  | halves fault => fault.message
  | nul => "embedded null byte"

namespace Path

/-- The first half that stands for no byte, and how many halves follow each other from there;
`position` is the place of the first code point. -/
def faultyHalves? (position : Nat) : List CodePoint → Option HalfFault
  | [] => none
  | .char _ :: points => faultyHalves? (position + 1) points
  | .half number :: points =>
    if (CodePoint.half number).byte?.isSome then faultyHalves? (position + 1) points
    else some ⟨position, number, 1 + (points.takeWhile CodePoint.isHalf).length⟩

/-- Why no file can have a path. Halves are noticed first. -/
def fault? (path : CodeText) : Option PathFault :=
  match faultyHalves? 0 path.points with
  | some fault => some (.halves fault)
  | none => if path.points.contains (.char '\x00') then some .nul else none

example : fault? ⟨[.char 'd', .half 0x480, .half 0, .half 1]⟩ = some (.halves ⟨2, 0, 2⟩) := by decide

end Path

end NodeLedger
