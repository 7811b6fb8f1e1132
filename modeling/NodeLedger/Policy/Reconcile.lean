import NodeLedger.Policy.Required

/-!
# Reconciling a group with its policy

Which rules have to be created or updated so that a group grants what is required. Access is only
ever added: a source that a rule admits stays, because another operator may have asked for it.

- `changeFor`: the change that one required rule asks for, if any. Every required rule is compared
  with the rules as observed, not with the changes of the required rules before it.
- `reconcile`: the changes of a policy, in its order.
- `applyChange`, `applyByName`: a change replaces the first rule of its name, or is appended. It
  shows under its own name only (`findByName_applyChange_self`, `findByName_applyChange_of_ne`).
-/

namespace NodeLedger.Policy

/-- The rule admits a network on every protocol. Reachability within the network does not depend on
the rule's name, nor on its ports. -/
def SecurityRule.admitsNetwork (rule : SecurityRule) (network : String) : Bool :=
  rule.protocol == .all && rule.allows network

/-- The first rule of a name. -/
def findByName (rules : List SecurityRule) (name : String) : Option SecurityRule :=
  rules.find? fun rule => rule.name == some name

/-- The change that a required rule asks for. -/
def changeFor (current : List SecurityRule) (requester network : String) (required : RequiredRule) :
    Option SecurityRule :=
  let source := required.source requester network
  if required.scope == .network && current.any (·.admitsNetwork source) then none
  else
    match findByName current required.name with
    | none => some (required.newRule source)
    | some rule =>
      if required.isSatisfiedBy rule source then none else some (required.updatedRule rule source)

/-- The rules to create or update, in the order of the policy; none when the group complies. -/
def reconcile (current : List SecurityRule) (policy : List RequiredRule)
    (requester network : String) : List SecurityRule :=
  policy.filterMap (changeFor current requester network)

/-- The rules after one change: it replaces the first rule of its name, or is appended. -/
def applyChange : List SecurityRule → SecurityRule → List SecurityRule
  | [], change => [change]
  | rule :: rules, change =>
    if rule.name = change.name then change :: rules else rule :: applyChange rules change

/-- The rules after a list of changes, one after the other. -/
def applyByName (rules changes : List SecurityRule) : List SecurityRule :=
  changes.foldl applyChange rules

/-! ## One change -/

/-- A change is found by its name afterwards. -/
theorem findByName_applyChange_self {change : SecurityRule} {name : String}
    (h : change.name = some name) (rules : List SecurityRule) :
    findByName (applyChange rules change) name = some change := by
  induction rules with
  | nil => simp [applyChange, findByName, h]
  | cons rule rules ih =>
    rw [applyChange]
    split
    · simp [findByName, h]
    · rename_i hne
      rw [h] at hne
      simpa [findByName, hne] using ih

/-- A change leaves the rules of other names alone. -/
theorem findByName_applyChange_of_ne {change : SecurityRule} {name : String}
    (h : change.name ≠ some name) (rules : List SecurityRule) :
    findByName (applyChange rules change) name = findByName rules name := by
  induction rules with
  | nil => simp [applyChange, findByName, h]
  | cons rule rules ih =>
    rw [applyChange]
    split
    · rename_i heq
      simp [findByName, h, heq]
    · by_cases hrule : rule.name = some name
      · simp [findByName, hrule]
      · simpa [findByName, hrule] using ih

end NodeLedger.Policy
