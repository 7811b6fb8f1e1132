import NodeLedger.Cloud.Fault
import NodeLedger.Ledger.Fault
import NodeLedger.LogLevel
import NodeLedger.Text.CodeText
import NodeLedger.Text.Utf8

/-!
# Faults

What can go wrong in a job. Three families of faults are expected and reported to the user: those of
the ledger, of the address lookup and of the clouds. All others end the program.

- `Fault`: every fault.
- `FaultClass`: the expected families, from the general to the particular.
- `Fault.class?`: the most particular family of a fault; none for a fault that ends the program.
-/

namespace NodeLedger

open Cloud

/-- Why the operator's address could not be found. -/
inductive LookupFault where
  | unreachable (url : String) (cause : OutsideFault)
  | badStatus (url : String) (status : Int)
  | noAddress (url : String)
  deriving Repr, DecidableEq

/-- The wording of a fault. -/
def LookupFault.message : LookupFault → String
  | unreachable url cause => s!"failed to reach {url}: {cause.message}"
  | badStatus url status => s!"{url} answered with status {Text.integer status}"
  | noAddress url => s!"no IP address found in the response of {url}"

/-- What can go wrong in a job. -/
inductive Fault where
  | ledger (fault : LedgerFault)
  | lookup (fault : LookupFault)
  | provider (fault : ProviderFault)
  /-- A failure of the outside world that no operation expects. -/
  | outside (fault : OutsideFault)
  | reply (fault : ReplyFault)
  /-- A file is not UTF-8. -/
  | encoding (fault : Text.Utf8Fault)
  /-- A text with lone halves has to be written, or is a path that no file can have. -/
  | halves (fault : HalfFault)
  /-- A text is not written as an integer, or as too long a one. -/
  | number (fault : Text.IntegerFault)
  /-- JSON values are nested too deep. -/
  | nestedTooDeep
  | nulInPath
  | level (fault : LevelFault)
  | unknownCloud (name : String)
  /-- A source that has to be compared is not a text. -/
  | sourceNotText
  deriving Repr, DecidableEq

/-- The wording of a fault, where it has one. -/
def Fault.message : Fault → CodeText
  | ledger fault => fault.message
  | lookup fault => fault.message
  | provider fault => fault.message
  | outside fault => fault.message
  | reply _ => ""
  | encoding fault => fault.message
  | halves fault => fault.message
  | number fault => fault.message
  | nestedTooDeep => ""
  | nulInPath => PathFault.nul.message
  | level fault => fault.message
  | unknownCloud name => s!"the '{name}' cloud provider is not supported"
  | sourceNotText => ""

/-- The families of expected faults. -/
inductive FaultClass where
  | expected
  | ledger
  | notFound
  | duplicate
  | badDirectory
  | fileSystem
  | lookup
  | provider
  deriving Repr, DecidableEq

/-- The next more general family. -/
def FaultClass.parent? : FaultClass → Option FaultClass
  | expected => none
  | ledger => some .expected
  | notFound => some .ledger
  | duplicate => some .ledger
  | badDirectory => some .ledger
  | fileSystem => some .ledger
  | lookup => some .expected
  | provider => some .expected

/-- How far a family is from the most general one. -/
def FaultClass.depth : FaultClass → Nat
  | expected => 0
  | ledger => 1
  | lookup => 1
  | provider => 1
  | _ => 2

/-- A family and at most so many of the more general ones, from the particular to the general. -/
def FaultClass.lineageWithin : Nat → FaultClass → List FaultClass
  | 0, c => [c]
  | n + 1, c =>
    match c.parent? with
    | some d => c :: lineageWithin n d
    | none => [c]

/-- A family and all more general ones, from the particular to the general. -/
def FaultClass.lineage (c : FaultClass) : List FaultClass :=
  lineageWithin c.depth c

/-- The family of a fault of the ledger. -/
def LedgerFault.class : LedgerFault → FaultClass
  | entry (.present _) => .duplicate
  | entry (.absent _) => .notFound
  | noFile _ => .notFound
  | notJson .. => .notFound
  | content .. => .notFound
  | noDirectory _ => .badDirectory
  | notDirectory _ => .badDirectory
  | file .. => .fileSystem

/-- The most particular family of a fault. -/
def Fault.class? : Fault → Option FaultClass
  | ledger fault => some fault.class
  | lookup _ => some .lookup
  | provider _ => some .provider
  | _ => none

/-- The fault is of a family, or of one within it. -/
def Fault.isOf (family : FaultClass) (fault : Fault) : Bool :=
  match fault.class? with
  | some c => c.lineage.contains family
  | none => false

/-- The fault of a path that no file can have. -/
def Fault.ofPath : PathFault → Fault
  | .halves fault => .halves fault
  | .nul => .nulInPath

/-- The fault of an action on a file of the ledger's. -/
def Fault.ofFile (action : FileAction) (path : CodeText) : FileFault → Fault
  | .noPath fault => .ofPath fault
  | fault => .ledger (.file action path fault)

end NodeLedger
