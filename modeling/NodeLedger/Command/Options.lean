import NodeLedger.Text.Field

/-!
# Options of a command line

An option is written `--name value` or `--name=value`; a flag is written `--name`. What follows `--`
is no option. An option that is written again takes the last value, or collects all of them.

- `readOptions`: the options and the other words of a command line.
- `Reading`: what was read. A command line that is not well formed has none.
-/

namespace NodeLedger.Command

/-- The options that a command knows: those with a value, and flags. -/
structure OptionTable where
  valued : List String
  flags : List String
  /-- Options may follow other words. -/
  interspersed : Bool

/-- What was read from a command line. -/
structure Reading where
  /-- The options with their values, in the order in which they were written. -/
  values : List (String × String)
  flags : List String
  /-- The other words. -/
  words : List String
  deriving Repr, DecidableEq

/-- The flag that asks for help; every command knows it. -/
def helpFlag : String := "--help"

namespace Reading

/-- The last value of an option. -/
def value? (reading : Reading) (name : String) : Option String :=
  ((reading.values.filter (·.1 == name)).getLast?).map (·.2)

/-- All values of an option. -/
def allValues (reading : Reading) (name : String) : List String :=
  (reading.values.filter (·.1 == name)).map (·.2)

/-- A flag was written. -/
def hasFlag (reading : Reading) (name : String) : Bool :=
  reading.flags.contains name

/-- One more option. -/
def withValue (reading : Reading) (name value : String) : Reading :=
  { reading with values := (name, value) :: reading.values }

/-- One more flag. -/
def withFlag (reading : Reading) (name : String) : Reading :=
  { reading with flags := name :: reading.flags }

/-- One more word. -/
def withWord (reading : Reading) (word : String) : Reading :=
  { reading with words := word :: reading.words }

end Reading

/-- A word that is written like an option: a dash and something more. -/
def looksLikeOption (word : String) : Bool :=
  word.toList.head? == some '-' && word.length != 1

/-- A word at its first equals sign: the name of an option and the value attached to it. -/
def splitOption (word : String) : String × Option String :=
  match Text.cutAt? '=' word.toList with
  | some (name, value) => (String.ofList name, some (String.ofList value))
  | none => (word, none)

/-- The options and the other words of a command line, or nothing if it is not well formed: an option
is unknown, lacks its value, or is a flag with a value. -/
def readOptions (table : OptionTable) : List String → Option Reading
  | [] => some ⟨[], [], []⟩
  | word :: rest =>
    if word = "--" then some ⟨[], [], rest⟩
    else if !looksLikeOption word then
      if table.interspersed then (readOptions table rest).map (·.withWord word)
      else some ⟨[], [], word :: rest⟩
    else
      match splitOption word with
      | (name, some value) =>
        if table.valued.contains name then (readOptions table rest).map (·.withValue name value)
        else none
      | (name, none) =>
        if name = helpFlag || table.flags.contains name then
          (readOptions table rest).map (·.withFlag name)
        else if table.valued.contains name then
          match rest with
          | value :: rest => (readOptions table rest).map (·.withValue name value)
          | [] => none
        else none

end NodeLedger.Command
