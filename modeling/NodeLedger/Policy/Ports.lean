import NodeLedger.Text.Field
import NodeLedger.Text.Integer

/-!
# Port ranges

Rules carry their destination ports as text: `*` or nothing for every port, one port, or two ports
joined by a dash. Two readings of that text are in use.

- `bounds`: the lowest and highest port, as a cloud call needs them.
- `samePorts`: whether two texts ask for the same ports, without reading any number. The ranges
  `0-65535` and `1-65535` mean every port, and a range with equal ends means one port.
-/

namespace NodeLedger.Policy

open Text

/-- The text that stands for every port. -/
def allPorts : String := "*"

/-- The lowest and the highest port of a range, or nothing for every port. -/
def bounds (ports : String) : Except IntegerFault (Option (Int × Int)) :=
  let token := stripChars ports.toList
  if token == [] || token == allPorts.toList then .ok none
  else
    match cutAt? '-' token with
    | some (low, high) => do
      let low ← readInteger (String.ofList low)
      let high ← readInteger (String.ofList high)
      return some (low, high)
    | none => do
      let port ← readInteger (String.ofList token)
      return some (port, port)

/-- The spelling that a port text is compared by. -/
def portSpelling (ports : String) : List Char :=
  let token := stripChars ports.toList
  if token == [] || token == allPorts.toList || token == "0-65535".toList
      || token == "1-65535".toList then allPorts.toList
  else
    match cutAt? '-' token with
    | some (low, high) => if stripChars low == stripChars high then stripChars low else token
    | none => token

/-- Two port texts ask for the same ports. -/
def samePorts (observed required : String) : Bool :=
  portSpelling observed == portSpelling required

end NodeLedger.Policy
