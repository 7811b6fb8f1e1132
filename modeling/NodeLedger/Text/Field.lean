/-!
# Fields of a line

A line of text cut at a separator, and fields put together again. A line with `n` separators has
`n + 1` fields, so the empty line has one empty field. A line may be one of characters or of code points.

- `fields`: the fields of a line.
- `joinFields`: a line from its fields.
- `joinFields_fields`: **cutting loses nothing**.
- `cutAt?`: the two sides of the first separator.
-/

namespace NodeLedger.Text

variable {α : Type} [DecidableEq α]

/-- The fields of a line. -/
def fields (sep : α) : List α → List (List α)
  | [] => [[]]
  | c :: cs =>
    match fields sep cs with
    | [] => [[c]]
    | f :: fs => if c = sep then [] :: f :: fs else (c :: f) :: fs

/-- A line from its fields. -/
def joinFields (sep : List α) : List (List α) → List α
  | [] => []
  | [f] => f
  | f :: fs => f ++ sep ++ joinFields sep fs

/-- The two sides of the first separator, or nothing when there is none. -/
def cutAt? (sep : α) : List α → Option (List α × List α)
  | [] => none
  | c :: cs => if c = sep then some ([], cs) else (cutAt? sep cs).map fun p => (c :: p.1, p.2)

theorem fields_ne_nil (sep : α) (cs : List α) : fields sep cs ≠ [] := by
  cases cs with
  | nil => simp [fields]
  | cons c cs =>
    unfold fields
    split
    · simp
    · split <;> simp

/-- **Cutting loses nothing**: the fields of a line joined by the separator are the line. -/
theorem joinFields_fields (sep : α) (cs : List α) :
    joinFields [sep] (fields sep cs) = cs := by
  induction cs with
  | nil => rfl
  | cons c cs ih =>
    unfold fields
    cases h : fields sep cs with
    | nil => exact absurd h (fields_ne_nil sep cs)
    | cons f fs =>
      rw [h] at ih
      by_cases hc : c = sep
      · simp [hc, joinFields, ih]
      · cases fs with
        | nil => simp_all [joinFields]
        | cons g gs => simp_all [joinFields]

end NodeLedger.Text
