import NodeLedger.Json.Printer
import NodeLedger.Ledger.Entries

/-!
# The content of a ledger

A ledger remembers which instances and security groups a run has created, so that a later run can
delete them. Its file holds one JSON object on one line.

- `Ledger.text`: the text of the file.
- `Ledger.ofJson`: the ledger that a JSON value stands for. Both lists are read in any order and
  kept sorted; a list that is absent or null is empty. **A ledger comes back from its JSON value**
  (`Ledger.ofJson_json`).
- `Ledger.add`, `Ledger.subtract`: a ledger with more entries, or fewer.
-/

namespace NodeLedger

/-- The instances and the groups that a run has created. -/
structure Ledger where
  instances : List CodeText
  groups : List CodeText
  deriving Repr, DecidableEq

namespace Ledger

/-- The member of the file that lists instances. -/
def instancesKey : String := "InstanceIDs"

/-- The member of the file that lists groups. -/
def groupsKey : String := "SecurityGroupIDs"

/-- The ledger without entries. -/
def empty : Ledger := ⟨[], []⟩

/-- Nothing is left to remember. -/
def isEmpty (ledger : Ledger) : Bool :=
  ledger.instances.isEmpty && ledger.groups.isEmpty

/-- The JSON value of a ledger. -/
def json (ledger : Ledger) : Json :=
  .obj [(instancesKey, .arr (ledger.instances.map .str)), (groupsKey, .arr (ledger.groups.map .str))]

/-- The text of a ledger's file. -/
def text (ledger : Ledger) : String :=
  ledger.json.compact

/-- How a JSON value fails to be a ledger. -/
inductive ContentFault where
  | notObject
  | badList (key : String)
  deriving Repr, DecidableEq

/-- The strings of a list that is a member of an object. -/
def strings? (members : List (CodeText × Json)) (key : String) : Option (List CodeText) :=
  match Json.member? members key with
  | none | some .null => some []
  | some (.arr items) => items.mapM Json.str?
  | some _ => none

/-- The sorted entries of a member. -/
def entriesOf (members : List (CodeText × Json)) (key : String) :
    Except ContentFault (List CodeText) :=
  match strings? members key with
  | some entries => .ok (sortEntries entries)
  | none => .error (.badList key)

/-- The ledger that a JSON value stands for. -/
def ofJson : Json → Except ContentFault Ledger
  | .obj members => do
    let instances ← entriesOf members instancesKey
    let groups ← entriesOf members groupsKey
    return ⟨instances, groups⟩
  | _ => .error .notObject

/-- Texts come back from their JSON strings. -/
theorem mapM_str?_str (entries : List CodeText) : entries.mapM (Json.str? ∘ Json.str) = some entries := by
  induction entries with
  | nil => rfl
  | cons entry entries ih => simp [Json.str?, ih]

/-- **A ledger comes back from its JSON value**, with its entries in order. -/
theorem ofJson_json (ledger : Ledger) :
    ofJson ledger.json = .ok ⟨sortEntries ledger.instances, sortEntries ledger.groups⟩ := by
  have hinstances : entriesOf [(instancesKey, .arr (ledger.instances.map .str)),
      (groupsKey, .arr (ledger.groups.map .str))] instancesKey
      = .ok (sortEntries ledger.instances) := by
    simp [entriesOf, strings?, mapM_str?_str]
  have hgroups : entriesOf [(instancesKey, .arr (ledger.instances.map .str)),
      (groupsKey, .arr (ledger.groups.map .str))] groupsKey
      = .ok (sortEntries ledger.groups) := by
    simp [entriesOf, strings?, mapM_str?_str, instancesKey, groupsKey]
  simp [ofJson, json, hinstances, hgroups, bind, Except.bind, pure, Except.pure]

/-- The ledger with more entries; an instance that does not fit is noticed first. -/
def add (ledger : Ledger) (instances groups : List CodeText) : Except EntryFault Ledger := do
  let instances ← addEntries ledger.instances instances
  let groups ← addEntries ledger.groups groups
  return ⟨instances, groups⟩

/-- The ledger with fewer entries; an instance that does not fit is noticed first. -/
def subtract (ledger : Ledger) (instances groups : List CodeText) : Except EntryFault Ledger := do
  let instances ← removeEntries ledger.instances instances
  let groups ← removeEntries ledger.groups groups
  return ⟨instances, groups⟩

end Ledger

end NodeLedger
