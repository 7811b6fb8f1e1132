import NodeLedger.Json.Printer
import NodeLedger.Policy.Reconcile
import NodeLedger.Text.Digit

/-!
# Draft rules

A file of rules may say anything that JSON can say. A draft is a rule of such a file: only its
protocol is checked when it is read; its name, its sources and its priority may be any value. A
source matters only when it is compared with another one, and then it has to be a text. Texts may
hold lone halves of surrogate pairs, which no name, protocol or port range of a policy does.

- `DraftRule.ofDocument`: the drafts of a JSON document.
- `DraftRule.plan`: the changes that a policy asks of drafts. It takes the steps of `reconcile`, and
  stops at the first source that has to be compared and is no text.
- `DraftRule.document`: drafts as a JSON document again.
-/

namespace NodeLedger.Policy

/-- A rule as a file states it. -/
structure DraftRule where
  name : Json
  protocol : Protocol
  sources : List Json
  ports : CodeText
  priority : Json

/-- Why a JSON document holds no drafts. -/
inductive DraftFault where
  /-- A value of this kind has no items. -/
  | noItems (kind : String)
  /-- A value of this kind has no members. -/
  | noMembers (kind : String)
  /-- A list stands where a rule should. -/
  | listForRule
  /-- A text stands where a rule should. -/
  | textForRule
  | nameMissing
  /-- A value that is no protocol, in the notation of messages. -/
  | badProtocol (value : String)
  deriving Repr, DecidableEq

/-- The wording of a fault. -/
def DraftFault.message : DraftFault → String
  | noItems kind => s!"'{kind}' object is not iterable"
  | noMembers kind => s!"'{kind}' object is not subscriptable"
  | listForRule => "list indices must be integers or slices, not str"
  | textForRule => "string indices must be integers, not 'str'"
  | nameMissing => "'name'"
  | badProtocol value => s!"{value} is not a valid Protocol"

namespace DraftRule

/-- The items of a value: those of a list, the names of an object, the code points of a text. -/
def itemsOf : Json → Except DraftFault (List Json)
  | .arr items => .ok items
  | .obj members => .ok (members.map fun m => .str m.1)
  | .str text => .ok (text.points.map fun point => .str ⟨[point]⟩)
  | value => .error (.noItems value.kindWord)

/-- The protocol that a value names. -/
def protocolOf (value : Json) : Except DraftFault Protocol :=
  match (value.str?.bind (·.string?)).bind Protocol.ofWord? with
  | some protocol => .ok protocol
  | none => .error (.badProtocol value.literal)

/-- The draft of an object. -/
def ofMembers (members : List (CodeText × Json)) : Except DraftFault DraftRule := do
  let member := Json.member? members
  let name ← match member "name" with
    | some name => .ok name
    | none => .error .nameMissing
  let protocol ← protocolOf ((member "protocol").getD (.str Protocol.tcp.word))
  let sources ← itemsOf ((member "source_addresses").getD (.arr []))
  return {
    name := name
    protocol := protocol
    sources := sources
    ports := ((member "destination_port_range").getD (.str allPorts)).plainText
    priority := (member "priority").getD .null }

/-- The draft of a value. -/
def ofJson : Json → Except DraftFault DraftRule
  | .obj members => ofMembers members
  | .arr _ => .error .listForRule
  | .str _ => .error .textForRule
  | value => .error (.noMembers value.kindWord)

/-- The drafts of a document. -/
def ofDocument (document : Json) : Except DraftFault (List DraftRule) := do
  (← itemsOf document).mapM ofJson

/-- An integer, or null. -/
def optionalInt : Option Int → Json
  | some n => .int n
  | none => .null

/-- A text, or null. -/
def optionalText : Option String → Json
  | some s => .str s
  | none => .null

/-- The draft that states a rule. -/
def ofRule (rule : SecurityRule) : DraftRule where
  name := optionalText rule.name
  protocol := rule.protocol
  sources := rule.sources.map (.str <| .ofString ·)
  ports := rule.ports
  priority := optionalInt rule.priority

/-- A draft as JSON. -/
def json (draft : DraftRule) : Json :=
  .obj [("name", draft.name), ("protocol", .str draft.protocol.word),
    ("source_addresses", .arr draft.sources), ("destination_port_range", .str draft.ports),
    ("priority", draft.priority)]

/-- Drafts as a JSON document. -/
def document (drafts : List DraftRule) : Json :=
  .arr (drafts.map json)

/-- A source that has to be compared and is no text. -/
inductive SourceFault where
  | notText
  deriving Repr, DecidableEq

/-- Two characters that mean nothing in an address. -/
def neutralChars : List Char := ['\ue000', '\ue001']

/-- A text is a spelling of a source. A half has no place in a source, but it may stand in a scope
that the canonical text leaves out: then it makes no difference which character stands for it. -/
def spells (text : CodeText) (source : String) : Bool :=
  neutralChars.all fun c =>
    Address.canonical (text.fillHalves fun _ => [c]) == Address.canonical source

/-- A string spells a source exactly if both have one canonical text. -/
theorem spells_ofString (s source : String) :
    spells s source = (Address.canonical s == Address.canonical source) := by
  simp [spells, neutralChars]

/-- One of the sources is a spelling of another source. They are compared in their order, up to the
first match. -/
def anyMatches (source : String) : List Json → Except SourceFault Bool
  | [] => .ok false
  | .str text :: sources => if spells text source then .ok true else anyMatches source sources
  | _ :: _ => .error .notText

/-- The draft admits the source, under any spelling of it. -/
def allows (draft : DraftRule) (source : String) : Except SourceFault Bool :=
  anyMatches source draft.sources

/-- The draft has the name. -/
def isNamed (draft : DraftRule) (name : String) : Bool :=
  draft.name.str? == some (.ofString name)

/-- One of the drafts admits a source. -/
def anyAllows (source : String) : List DraftRule → Except SourceFault Bool
  | [] => .ok false
  | draft :: drafts => do
    if ← draft.allows source then return true else anyAllows source drafts

/-- A draft for every protocol admits a network; drafts for another protocol are not compared. -/
def admitsNetwork (network : String) (drafts : List DraftRule) : Except SourceFault Bool :=
  anyAllows network (drafts.filter (·.protocol == .all))

/-- The draft asks for the same ports. -/
def hasPorts (draft : DraftRule) (ports : String) : Bool :=
  draft.ports.string?.any (samePorts · ports)

/-- Name, protocol, ports and source of a draft are as required. -/
def satisfies (draft : DraftRule) (required : RequiredRule) (source : String) :
    Except SourceFault Bool :=
  if draft.isNamed required.name && draft.protocol == required.protocol
      && draft.hasPorts required.ports then draft.allows source
  else .ok false

/-- A draft changed to say what is required. It keeps its sources and its priority. -/
def updated (draft : DraftRule) (required : RequiredRule) (source : String) :
    Except SourceFault DraftRule := do
  let sources := if ← draft.allows source then draft.sources else draft.sources ++ [.str source]
  return {
    name := draft.name
    protocol := required.protocol
    sources := sources
    ports := required.ports
    priority := match draft.priority with
      | .null => .int required.priority
      | priority => priority }

/-- The change that a required rule asks for. -/
def changeFor (current : List DraftRule) (requester network : String) (required : RequiredRule) :
    Except SourceFault (Option DraftRule) := do
  let source := required.source requester network
  let reachable ←
    if required.scope == .network then admitsNetwork source current else .ok false
  if reachable then return none
  else
    match current.find? (·.isNamed required.name) with
    | none => return some (ofRule (required.newRule source))
    | some draft =>
      if ← draft.satisfies required source then return none
      else return some (← draft.updated required source)

/-- The changes that a policy asks for, in its order. -/
def plan (current : List DraftRule) (requester network : String) :
    List RequiredRule → Except SourceFault (List DraftRule)
  | [] => .ok []
  | required :: policy => do
    let change ← changeFor current requester network required
    return change.toList ++ (← plan current requester network policy)

end DraftRule

end NodeLedger.Policy
