import NodeLedger.Cloud.Nsg.Groups
import NodeLedger.Proofs.Cloud.Nsg.Visible
import NodeLedger.Proofs.Cloud.Requests

/-!
# A resource group of Azure

A resource group holds the one network security group of a cluster, or none yet. Any request to it
may fail, as a list of faults to come says; a request that fails changes nothing. A change is two
requests, one that starts it and one that waits for its end, and either may fail. The service tells
the truth about the group: it never says of a group that is there that it is not found.

- `ResourceGroup`, `ResourceGroup.client`: the resource group, and the requests that it answers. What
  else Azure can be asked is left open.
- `finished_started_of_fault`, `finished_started_of_none`: what becomes of a change.
- `cases_of_runOn_find`, `cases_of_runOn_rules`: **looking for the group and listing its rules change
  nothing**.
-/

namespace NodeLedger.Cloud.Nsg

open Policy

/-! ## The resource group -/

/-- A resource group as far as the network security group of one cluster goes. -/
structure ResourceGroup where
  /-- The group's name and its rules, once the group is there. -/
  group : Option (String × List NsgRule)
  /-- What becomes of the next requests: a fault, or nothing bad. After that nothing fails. -/
  faults : List (Option OutsideFault)
  /-- Every rule that was to be put into the group, in order. -/
  calls : List NsgRule
  deriving Repr, DecidableEq

namespace ResourceGroup

variable {α : Type}

/-- The fault that the next request may end with. -/
def next? (state : ResourceGroup) : Option OutsideFault :=
  state.faults.head?.join

/-- The resource group after one more request, as far as faults to come go. -/
def later (state : ResourceGroup) : ResourceGroup :=
  { state with faults := state.faults.tail }

/-- A request that a fault stops before it has done anything. -/
def stopped (fault? : ResourceGroup → Option OutsideFault) (request : Ask ResourceGroup α) :
    Ask ResourceGroup α := fun state =>
  match fault? state with
  | some fault => (.error fault, state.later)
  | none => request state.later

/-- The rules of a group, if it is there. -/
def rules? (state : ResourceGroup) (identifier : GroupId) : Option (List NsgRule) :=
  state.group.bind fun known =>
    if identifier = some (CodeText.ofString known.1) then some known.2 else none

/-- The refusal of a request about a group that is not there. -/
def absent : OutsideFault :=
  .response .notFound "the group does not exist"

/-- The fault that the next question for a group may end with. A group that is there is not said to
be absent. -/
def questionFault? (identifier : GroupId) (state : ResourceGroup) : Option OutsideFault :=
  state.next?.filter fun fault => !(isNotFound fault && (state.rules? identifier).isSome)

/-- The answer to a question for a group. -/
def answerGroup (identifier : GroupId) : Ask ResourceGroup GroupAnswer := fun state =>
  match state.rules? identifier with
  | some rules => (.ok ⟨identifier, some rules⟩, state)
  | none => (.error absent, state)

/-- A change that is started by one request and waited for by another. -/
def started (change : Ask ResourceGroup α) : Ask ResourceGroup (Ask ResourceGroup α) :=
  stopped next? fun state => (.ok (stopped next? change), state)

/-- Create a group without rules. -/
def addGroup (name : String) : Ask ResourceGroup GroupAnswer := fun state =>
  (.ok ⟨some (CodeText.ofString name), some []⟩, { state with group := some (name, []) })

/-- Put a rule into a group. -/
def addRule (identifier : GroupId) (rule : NsgRule) : Ask ResourceGroup Unit := fun state =>
  match state.rules? identifier with
  | some _ =>
    (.ok (), { state with group := state.group.map fun known => (known.1, putRule known.2 rule) })
  | none => (.error absent, state)

/-- A rule that is to be put into a group is written down, whether it gets there or not. -/
def recordCall (rule : NsgRule) (state : ResourceGroup) : ResourceGroup :=
  { state with calls := state.calls ++ [rule] }

/-- The requests that a resource group answers. All others are answered in any way. -/
def client (others : Client ResourceGroup) : Client ResourceGroup :=
  { others with
    getGroup := fun _ identifier => stopped (questionFault? identifier) (answerGroup identifier)
    createGroup := fun _ name _ => started (addGroup name)
    updateRule := fun _ identifier name rule state =>
      let named : NsgRule := { rule with name := name }
      started (addRule identifier named) (recordCall named state) }

/-- Without an identity no request is answered. -/
def locked : Client ResourceGroup where
  getGroup _ _ state := (.error (.response .notAuthenticated "no identity"), state)
  createGroup _ _ _ state := (.error (.response .notAuthenticated "no identity"), state)
  updateRule _ _ _ _ state := (.error (.response .notAuthenticated "no identity"), state)
  deleteRule _ _ _ state := (.error (.response .notAuthenticated "no identity"), state)
  deleteMachine _ _ state := (.error (.response .notAuthenticated "no identity"), state)

/-- The fault that a change ends with: the one of the request that starts it, or else the one of the
request that waits for its end. -/
def changeFault? (faults : List (Option OutsideFault)) : Option OutsideFault :=
  faults.head?.join.or faults.tail.head?.join

section

variable {others : Client ResourceGroup} {state after : ResourceGroup} {name : String}
  {rules : List NsgRule}

theorem rules?_of_group (h : state.group = some (name, rules)) :
    state.rules? (some (CodeText.ofString name)) = some rules := by
  rw [rules?, h, Option.bind_some, if_pos rfl]

/-- A change that a fault stops is not made. -/
theorem finished_started_of_fault {fault : OutsideFault} (h : changeFault? state.faults = some fault)
    (change : Ask ResourceGroup α) :
    ∃ faults, Ask.finished (started change) state = (.error fault, { state with faults := faults }) := by
  cases hfirst : state.next? with
  | some first =>
    have hstart : started change state = (.error first, state.later) := by
      rw [started, stopped, hfirst]
    have hfault : state.next?.or state.later.next? = some fault := h
    rw [hfirst, Option.some_or] at hfault
    cases hfault
    exact ⟨_, Ask.finished_of_error hstart⟩
  | none =>
    have hstart : started change state = (.ok (stopped next? change), state.later) := by
      rw [started, stopped, hfirst]
    have hfault : state.next?.or state.later.next? = some fault := h
    rw [hfirst, Option.none_or] at hfault
    refine ⟨state.faults.tail.tail, (Ask.finished_of_ok hstart).trans ?_⟩
    rw [stopped, hfault]
    rfl

/-- A change that no fault stops is made. -/
theorem finished_started_of_none (h : changeFault? state.faults = none)
    (change : Ask ResourceGroup α) :
    Ask.finished (started change) state = change state.later.later := by
  obtain ⟨hfirst, hsecond⟩ : state.next? = none ∧ state.later.next? = none := Option.or_eq_none_iff.1 h
  have hstart : started change state = (.ok (stopped next? change), state.later) := by
    rw [started, stopped, hfirst]
  rw [Ask.finished_of_ok hstart, stopped, hsecond]

/-- A rule whose update fails is not put into the group. -/
theorem finished_updateRule_of_fault {fault : OutsideFault}
    (h : changeFault? state.faults = some fault) (others : Client ResourceGroup) (resources : String)
    (identifier : GroupId) (change : SecurityRule) :
    ∃ faults, Ask.finished ((client others).updateRule resources identifier change.name
        (NsgRule.ofRule change)) state
      = (.error fault, { state with
          faults := faults
          calls := state.calls ++ [NsgRule.ofRule change] }) := by
  have hfault : changeFault? (recordCall (NsgRule.ofRule change) state).faults = some fault := h
  exact finished_started_of_fault hfault (addRule identifier (NsgRule.ofRule change))

/-- A rule whose update does not fail is put into the group. -/
theorem finished_updateRule_of_none (h : changeFault? state.faults = none)
    (hgroup : state.group = some (name, rules)) (others : Client ResourceGroup) (resources : String)
    (change : SecurityRule) :
    Ask.finished ((client others).updateRule resources (some (CodeText.ofString name)) change.name
        (NsgRule.ofRule change)) state
      = (.ok (), {
          group := some (name, putRule rules (NsgRule.ofRule change))
          faults := state.faults.tail.tail
          calls := state.calls ++ [NsgRule.ofRule change] }) := by
  have hnone : changeFault? (recordCall (NsgRule.ofRule change) state).faults = none := h
  have hthere : (recordCall (NsgRule.ofRule change) state).later.later.rules?
      (some (CodeText.ofString name)) = some rules := rules?_of_group hgroup
  refine (finished_started_of_none hnone
    (addRule (some (CodeText.ofString name)) (NsgRule.ofRule change))).trans ?_
  rw [addRule, hthere]
  show (_, { group := state.group.map _, faults := _, calls := _ : ResourceGroup }) = _
  rw [hgroup]
  rfl

/-- A question for a group that is there fails, but not because it is not found; or it tells the
rules of the group. -/
theorem cases_of_getGroup {resources : String} {answer : Except OutsideFault GroupAnswer}
    (hgroup : state.group = some (name, rules))
    (h : (client others).getGroup resources (some (CodeText.ofString name)) state = (answer, after)) :
    after = state.later ∧
      ((∃ fault, answer = .error fault ∧ isNotFound fault = false) ∨
        answer = .ok ⟨some (CodeText.ofString name), some rules⟩) := by
  have hstopped : stopped (questionFault? (some (CodeText.ofString name)))
      (answerGroup (some (CodeText.ofString name))) state = (answer, after) := h
  have hthere : state.rules? (some (CodeText.ofString name)) = some rules := rules?_of_group hgroup
  have hthere' : state.later.rules? (some (CodeText.ofString name)) = some rules :=
    rules?_of_group hgroup
  rw [stopped] at hstopped
  cases hfault : questionFault? (some (CodeText.ofString name)) state with
  | some fault =>
    rw [hfault] at hstopped
    cases hstopped
    refine ⟨rfl, .inl ⟨fault, rfl, ?_⟩⟩
    -- A fault that says so would have been passed over.
    have hcan := (Option.filter_eq_some_iff.1 hfault).2
    rwa [hthere, Option.isSome_some, Bool.and_true, Bool.not_eq_true'] at hcan
  | none =>
    rw [hfault, answerGroup, hthere'] at hstopped
    cases hstopped
    exact ⟨rfl, .inr rfl⟩

/-- Where nothing fails, a question for a group that is there is answered. -/
theorem getGroup_of_calm (resources : String) (hcalm : state.faults = [])
    (hgroup : state.group = some (name, rules)) :
    (client others).getGroup resources (some (CodeText.ofString name)) state
      = (.ok ⟨some (CodeText.ofString name), some rules⟩, state.later) := by
  have hthere : state.later.rules? (some (CodeText.ofString name)) = some rules :=
    rules?_of_group hgroup
  have hnone : questionFault? (some (CodeText.ofString name)) state = none := by
    rw [questionFault?, next?, hcalm]
    rfl
  show stopped (questionFault? _) (answerGroup _) state = _
  rw [stopped, hnone, answerGroup, hthere]

end

end ResourceGroup

/-- A host whose files and whose resource group are as before; messages and faults may have come and
gone. -/
structure Unchanged (before after : Host ResourceGroup) : Prop where
  files : after.files = before.files
  group : after.outside.group = before.outside.group
  calls : after.outside.calls = before.outside.calls

theorem Unchanged.refl (host : Host ResourceGroup) : Unchanged host host :=
  ⟨rfl, rfl, rfl⟩

/-- A message changes nothing else. -/
theorem unchanged_of_runOn_log {host after : Host ResourceGroup} {level : LogLevel}
    {message : CodeText} {outcome : Except Fault Unit}
    (h : (Job.log level message).runOn host = (outcome, after)) : Unchanged host after := by
  cases h
  exact ⟨rfl, rfl, rfl⟩

section Operations

open ResourceGroup

variable {others : Client ResourceGroup} {resources name : String} {host after : Host ResourceGroup}
  {rules : List NsgRule}

/-! ## Looking for the group and listing its rules -/

/-- **Looking for a group that is there** changes nothing. It fails, or finds the group. -/
theorem cases_of_runOn_find {outcome : Except Fault GroupId}
    (hgroup : host.outside.group = some (name, rules))
    (h : (find (client others) resources name).runOn host = (outcome, after)) :
    Unchanged host after ∧
      ((∃ fault, outcome = .error fault) ∨ outcome = .ok (some (CodeText.ofString name))) := by
  rw [find, Job.runOn_bind_of_ok (Job.runOn_ask _ host)] at h
  cases hanswer : (client others).getGroup resources (some (CodeText.ofString name)) host.outside with
  | mk answer state =>
    rw [hanswer] at h
    obtain ⟨rfl, ⟨fault, rfl, hfound⟩ | rfl⟩ := cases_of_getGroup hgroup hanswer
    · dsimp only at h
      rw [if_neg (by rw [hfound]; decide)] at h
      cases h
      exact ⟨⟨rfl, rfl, rfl⟩, .inl ⟨_, rfl⟩⟩
    · cases h
      exact ⟨⟨rfl, rfl, rfl⟩, .inr rfl⟩

/-- **Listing the rules of a group that is there** changes nothing. It fails, or shows what the policy
sees of them. -/
theorem cases_of_runOn_rules {outcome : Except Fault (List SecurityRule)}
    (hgroup : host.outside.group = some (name, rules))
    (h : (Nsg.rules (client others) resources (some (CodeText.ofString name))).runOn host
      = (outcome, after)) :
    Unchanged host after ∧
      ((∃ fault, outcome = .error fault) ∨ outcome = .ok (visible rules)) := by
  obtain ⟨fault, hask, rfl⟩ | ⟨answer, middle, hask, hnext⟩ := Job.cases_of_runOn_bind h
  · obtain ⟨state, rfl, ⟨_, _, hanswer, -⟩ | ⟨_, -, hok⟩⟩ := Job.cases_of_runOn_expecting hask
    · obtain ⟨rfl, -⟩ := cases_of_getGroup hgroup hanswer
      exact ⟨⟨rfl, rfl, rfl⟩, .inl ⟨fault, rfl⟩⟩
    · cases hok
  · obtain ⟨state, rfl, ⟨_, _, -, hfault⟩ | ⟨_, hanswer, hok⟩⟩ := Job.cases_of_runOn_expecting hask
    · cases hfault
    · cases hok
      obtain ⟨rfl, ⟨_, hfault, -⟩ | hrules⟩ := cases_of_getGroup hgroup hanswer
      · cases hfault
      · cases hrules
        cases hnext
        exact ⟨⟨rfl, rfl, rfl⟩, .inr rfl⟩

/-- The host if no fault were to come. -/
def calm (host : Host ResourceGroup) : Host ResourceGroup :=
  { host with outside := { host.outside with faults := [] } }

/-- What listing the rules of a group shows, if it does not fail. -/
def listing (others : Client ResourceGroup) (resources : String) (group : GroupId)
    (host : Host ResourceGroup) : Except Fault (List SecurityRule) :=
  ((Nsg.rules (client others) resources group).runOn (calm host)).1

theorem listing_of_group (others : Client ResourceGroup) (resources : String)
    (hgroup : host.outside.group = some (name, rules)) :
    listing others resources (some (CodeText.ofString name)) host = .ok (visible rules) := by
  have hanswer : (client others).getGroup resources (some (CodeText.ofString name))
      (calm host).outside = (.ok ⟨some (CodeText.ofString name), some rules⟩, _) :=
    getGroup_of_calm resources rfl hgroup
  rw [listing, Nsg.rules, Job.runOn_bind_of_ok (Job.runOn_expecting_of_ok hanswer)]
  rfl

end Operations

end NodeLedger.Cloud.Nsg
