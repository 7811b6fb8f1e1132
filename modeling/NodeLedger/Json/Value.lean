import NodeLedger.Number.Binary64
import NodeLedger.Text.Digit
import NodeLedger.Text.Quoted

/-!
# JSON values

The strings of JSON are texts of code points, since each half of a surrogate pair can be written
down by itself.

- `Json`: a value; an object keeps its members in the order of their first appearance.
- `Json.setMember`: a later member of the same name takes the place of the earlier one.
- `Json.literal`: the notation that messages show a value in, with `None`, `True`, `False` and
  quoted literals.
- `Json.kindWord`: the word that messages use for the kind of a value.
-/

namespace NodeLedger

open Text

/-- A JSON value. Numbers without fraction and exponent are exact. -/
inductive Json where
  | null
  | bool (value : Bool)
  | int (value : Int)
  | float (value : Binary64)
  | str (value : CodeText)
  | arr (items : List Json)
  | obj (members : List (CodeText × Json))
  deriving Repr

namespace Json

/-- Members after a further one: it replaces the value of its name, or comes last. -/
def setMember : List (CodeText × Json) → CodeText → Json → List (CodeText × Json)
  | [], name, value => [(name, value)]
  | (n, v) :: members, name, value =>
    if n = name then (n, value) :: members else (n, v) :: setMember members name value

/-- The member of a name. -/
def member? (members : List (CodeText × Json)) (name : String) : Option Json :=
  (members.find? (·.1 == .ofString name)).map (·.2)

@[simp] theorem member?_cons (name other : String) (value : Json)
    (members : List (CodeText × Json)) :
    member? ((.ofString name, value) :: members) other =
      if name = other then some value else member? members other := by
  by_cases h : name = other <;> simp [member?, h]

/-- The text of a JSON string. -/
def str? : Json → Option CodeText
  | str s => some s
  | _ => none

/-- The word for the kind of a value. -/
def kindWord : Json → String
  | null => "NoneType"
  | bool _ => "bool"
  | int _ => "int"
  | float _ => "float"
  | str _ => "str"
  | arr _ => "list"
  | obj _ => "dict"

mutual

/-- The notation that messages show a value in. -/
def literal : Json → String
  | null => "None"
  | bool value => if value then "True" else "False"
  | int value => integer value
  | float value => value.textWith "inf" "nan"
  | str value => quote value
  | arr items => "[" ++ literalItems items ++ "]"
  | obj members => "\x7b" ++ literalMembers members ++ "\x7d"

/-- Items in that notation. -/
def literalItems : List Json → String
  | [] => ""
  | [item] => item.literal
  | item :: items => item.literal ++ ", " ++ literalItems items

/-- Members in that notation. -/
def literalMembers : List (CodeText × Json) → String
  | [] => ""
  | [(name, value)] => quote name ++ ": " ++ value.literal
  | (name, value) :: members =>
    quote name ++ ": " ++ value.literal ++ ", " ++ literalMembers members

end

/-- A value as plain text: a string stands for itself, anything else for its notation. -/
def plainText : Json → CodeText
  | str value => value
  | value => value.literal

end Json

end NodeLedger
