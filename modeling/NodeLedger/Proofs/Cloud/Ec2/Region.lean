import NodeLedger.Proofs.Cloud.Ec2.Authorization
import NodeLedger.Proofs.Cloud.Requests

/-!
# A region of EC2

A region holds the one group of a cluster, or none yet. Any request to it may fail, as a list of
faults to come says; a request that fails changes nothing. What else EC2 can be asked is left open.

- `Region`, `Region.client`: the region, and the requests that it answers.
- `unchanged_of_runOn_find`, `cases_of_runOn_create`, `unchanged_of_runOn_rules`,
  `cases_of_runOn_apply`: **everything that an operation can do to a region**, whatever fails.
- `exists_runOn_rules`, `exists_runOn_apply`: what it does when nothing fails.
-/

namespace NodeLedger

open Cloud

namespace Cloud.Ec2

open Policy

/-! ## The region -/

/-- EC2 as far as the group of one cluster goes. -/
structure Region where
  /-- The group's identifier and its permissions, once the group is there. -/
  group : Option (String × List Permission)
  /-- The identifier that the group gets when it is created. -/
  coming : String
  /-- What becomes of the next requests: a fault, or nothing bad. After that nothing fails. -/
  faults : List (Option OutsideFault)
  /-- Every authorization that was asked for, in order. -/
  calls : List (List Permission)
  deriving Repr, DecidableEq

namespace Region

variable {α : Type}

/-- The permissions of the group. -/
def permissions (region : Region) : List Permission :=
  region.group.elim [] (·.2)

/-- The identifier that the group has, or gets. -/
def identifier (region : Region) : String :=
  (region.group.map (·.1)).getD region.coming

/-- A request that the next fault stops before it has done anything. -/
def stopped (request : Ask Region α) : Ask Region α := fun region =>
  match region.faults with
  | some fault :: faults => (.error fault, { region with faults := faults })
  | faults => request { region with faults := faults.tail }

/-- The refusal of a request for a group that is not there. -/
def absent (operation : String) : OutsideFault :=
  .client "InvalidGroup.NotFound" operation "the group does not exist"

/-- A group as it is described. -/
def describe (group : String × List Permission) : GroupDescription :=
  ⟨.value group.1, .value group.2⟩

/-- The group, if it is asked for by its identifier. -/
def known? (group : Option (String × List Permission)) (identifier : GroupId) :
    Option (String × List Permission) :=
  group.filter fun known => identifier = some (CodeText.ofString known.1)

theorem known?_self (known : String × List Permission) :
    known? (some known) (some (CodeText.ofString known.1)) = some known :=
  Option.filter_some_pos (decide_eq_true rfl)

theorem group_of_known? {group : Option (String × List Permission)} {identifier : GroupId}
    {known : String × List Permission} (h : known? group identifier = some known) :
    group = some known :=
  (Option.filter_eq_some_iff.1 h).1

/-- The answer to a question for the group. -/
def answerGroups (group : Option (String × List Permission)) :
    GroupQuery → Except OutsideFault (Option GroupsAnswer)
  | .named _ _ => .ok (some ⟨.value (group.toList.map describe)⟩)
  | .identified identifier =>
    match known? group identifier with
    | some known => .ok (some ⟨.value [describe known]⟩)
    | none => .error (absent "DescribeSecurityGroups")

/-- Create the group. There are no two groups of one name. -/
def addGroup : Ask Region (Option CreationAnswer) := fun region =>
  match region.group with
  | none =>
    (.ok (some ⟨.value region.coming⟩), { region with group := some (region.coming, []) })
  | some _ =>
    (.error (.client "InvalidGroup.Duplicate" "CreateSecurityGroup" "the group exists"), region)

/-- Authorize permissions for the group. -/
def addPermissions (identifier : GroupId) (sent : List Permission) : Ask Region Unit := fun region =>
  match known? region.group identifier with
  | some known => (.ok (), { region with group := some (known.1, authorized known.2 sent) })
  | none => (.error (absent "AuthorizeSecurityGroupIngress"), region)

/-- An authorization is written down, whether it fails or not. -/
def recordCall (sent : List Permission) (region : Region) : Region :=
  { region with calls := region.calls ++ [sent] }

/-- The requests that a region answers. All others are answered in any way. -/
def client (others : Client Region) : Client Region :=
  { others with
    describeGroups := fun query => stopped fun region => (answerGroups region.group query, region)
    createGroup := fun _ _ _ => stopped addGroup
    authorize := fun identifier sent region =>
      stopped (addPermissions identifier sent) (recordCall sent region) }

/-- Without credentials no request is answered. -/
def locked : Client Region where
  describeGroups _ region := (.error .noCredentials, region)
  createGroup _ _ _ region := (.error .noCredentials, region)
  authorize _ _ region := (.error .noCredentials, region)
  describeInstances _ region := (.error .noCredentials, region)
  deleteGroup _ region := (.error .noCredentials, region)
  terminate _ region := (.error .noCredentials, region)
  waiter _ region := (.error .noCredentials, region)
  wait _ region := (.error .noCredentials, region)

/-- A request fails as the next fault says, or is answered. -/
theorem cases_of_stopped {request : Ask Region α} {region after : Region}
    {answer : Except OutsideFault α} (h : stopped request region = (answer, after)) :
    (∃ fault rest, answer = .error fault ∧ after = { region with faults := rest }) ∨
      ∃ rest, request { region with faults := rest } = (answer, after) := by
  unfold stopped at h
  split at h
  · cases h
    exact .inl ⟨_, _, rfl, rfl⟩
  · exact .inr ⟨_, h⟩

/-- Where nothing fails, a request is answered. -/
theorem stopped_of_calm {region : Region} (h : region.faults = []) (request : Ask Region α) :
    stopped request region = request region := by
  obtain ⟨group, coming, faults, calls⟩ := region
  cases h
  rfl

/-- A question for the group changes nothing, and tells what is there. -/
theorem cases_of_describeGroups {others : Client Region} {query : GroupQuery}
    {region after : Region} {answer : Except OutsideFault (Option GroupsAnswer)}
    (h : (client others).describeGroups query region = (answer, after)) :
    (∃ rest, after = { region with faults := rest }) ∧
      ∀ a, answer = .ok a → answerGroups region.group query = .ok a := by
  have hstopped : stopped (fun region => (answerGroups region.group query, region)) region
      = (answer, after) := h
  rcases cases_of_stopped hstopped with ⟨fault, rest, rfl, rfl⟩ | ⟨rest, hrequest⟩
  · exact ⟨⟨rest, rfl⟩, nofun⟩
  · cases hrequest
    exact ⟨⟨rest, rfl⟩, fun _ ha => ha⟩

/-- A creation fails and changes nothing, or it makes a group without permissions. -/
theorem cases_of_createGroup {others : Client Region} {name description network : String}
    {region after : Region} {answer : Except OutsideFault (Option CreationAnswer)}
    (h : (client others).createGroup name description network region = (answer, after)) :
    (∃ fault rest, answer = .error fault ∧ after = { region with faults := rest }) ∨
      (region.group = none ∧ ∃ rest, answer = .ok (some ⟨.value region.coming⟩) ∧
        after = { region with faults := rest, group := some (region.coming, []) }) := by
  have hstopped : stopped addGroup region = (answer, after) := h
  rcases cases_of_stopped hstopped with ⟨fault, rest, rfl, rfl⟩ | ⟨rest, hadd⟩
  · exact .inl ⟨fault, rest, rfl, rfl⟩
  · rw [addGroup] at hadd
    cases hgroup : region.group with
    | none =>
      rw [hgroup] at hadd
      cases hadd
      exact .inr ⟨rfl, rest, rfl, rfl⟩
    | some known =>
      rw [hgroup] at hadd
      cases hadd
      exact .inl ⟨_, rest, rfl, rfl⟩

/-- An authorization fails and changes nothing, or the permissions are authorized. It is written down
in any case. -/
theorem cases_of_authorize {others : Client Region} {identifier : GroupId}
    {sent : List Permission} {region after : Region} {answer : Except OutsideFault Unit}
    (h : (client others).authorize identifier sent region = (answer, after)) :
    (∃ fault rest, answer = .error fault ∧
        after = { region with faults := rest, calls := region.calls ++ [sent] }) ∨
      ∃ known held rest, region.group = some (known, held) ∧ answer = .ok () ∧
        after = { region with
          group := some (known, authorized held sent)
          faults := rest
          calls := region.calls ++ [sent] } := by
  have hstopped : stopped (addPermissions identifier sent) (recordCall sent region)
      = (answer, after) := h
  rcases cases_of_stopped hstopped with ⟨fault, rest, rfl, rfl⟩ | ⟨rest, hadd⟩
  · exact .inl ⟨fault, rest, rfl, rfl⟩
  · rw [addPermissions] at hadd
    split at hadd
    · rename_i known hknown
      cases hadd
      exact .inr ⟨known.1, known.2, rest, group_of_known? hknown, rfl, rfl⟩
    · cases hadd
      exact .inl ⟨_, rest, rfl, rfl⟩

end Region

/-- A host whose files and whose region are as before; messages and faults may have come and gone. -/
structure Unchanged (before after : Host Region) : Prop where
  files : after.files = before.files
  group : after.outside.group = before.outside.group
  coming : after.outside.coming = before.outside.coming
  calls : after.outside.calls = before.outside.calls

theorem Unchanged.refl (host : Host Region) : Unchanged host host :=
  ⟨rfl, rfl, rfl, rfl⟩

theorem Unchanged.trans {before middle after : Host Region} (h : Unchanged before middle)
    (h' : Unchanged middle after) : Unchanged before after where
  files := h'.files.trans h.files
  group := h'.group.trans h.group
  coming := h'.coming.trans h.coming
  calls := h'.calls.trans h.calls

/-- A host after one request for permissions, which may have been refused. -/
structure Asked (sent : List Permission) (before after : Host Region) : Prop where
  files : after.files = before.files
  coming : after.outside.coming = before.outside.coming
  calls : after.outside.calls = before.outside.calls ++ [sent]
  group : after.outside.group = before.outside.group ∨
    ∃ known held, before.outside.group = some (known, held) ∧
      after.outside.group = some (known, authorized held sent)

section Operations

open Region

variable {others : Client Region} {network : Option String} {name identifier : String}
  {host after : Host Region} {held : List Permission} {group : GroupId}

/-- A question for the group leaves the host unchanged, whether it is answered or not. -/
theorem unchanged_of_runOn_describeGroups {query : GroupQuery}
    {isExpected : OutsideFault → Bool} {explain : OutsideFault → ProviderFault}
    {outcome : Except Fault (Option GroupsAnswer)}
    (h : (Job.expecting isExpected explain ((client others).describeGroups query)).runOn host
      = (outcome, after)) :
    Unchanged host after ∧
      ∀ a, outcome = .ok a → answerGroups host.outside.group query = .ok a := by
  obtain ⟨outside, rfl, ⟨fault, reported, hrequest, rfl⟩ | ⟨a, hrequest, rfl⟩⟩ :=
    Job.cases_of_runOn_expecting h
  · obtain ⟨⟨rest, rfl⟩, -⟩ := cases_of_describeGroups hrequest
    exact ⟨⟨rfl, rfl, rfl, rfl⟩, nofun⟩
  · obtain ⟨⟨rest, rfl⟩, hanswer⟩ := cases_of_describeGroups hrequest
    refine ⟨⟨rfl, rfl, rfl, rfl⟩, fun b hb => ?_⟩
    cases hb
    exact hanswer a rfl

/-! ## Finding the group -/

/-- **Looking for the group changes nothing**, and finds what is there. -/
theorem unchanged_of_runOn_find {outcome : Except Fault GroupId}
    (h : (find (client others) network name).runOn host = (outcome, after)) :
    Unchanged host after ∧ ∀ found, outcome = .ok found →
      found = host.outside.group.map fun known => CodeText.ofString known.1 := by
  obtain ⟨fault, hrun, rfl⟩ | ⟨answer, middle, hrun, hnext⟩ := Job.cases_of_runOn_bind h
  · exact ⟨(unchanged_of_runOn_describeGroups hrun).1, nofun⟩
  · obtain ⟨hunchanged, hanswer⟩ := unchanged_of_runOn_describeGroups hrun
    have hgroups := hanswer answer rfl
    rw [Job.runOn_ofExcept] at hnext
    cases hnext
    constructor
    · exact hunchanged
    · -- A question by name is answered by all the groups there are: one, or none.
      intro found hfound
      cases hgroups
      cases hgroup : host.outside.group with
      | none =>
        rw [hgroup] at hfound
        exact (Except.ok.inj hfound).symm
      | some known =>
        rw [hgroup] at hfound
        exact (Except.ok.inj hfound).symm

/-! ## Creating the group -/

/-- **Creating the group** either leaves all as it is or makes a group without permissions. It ends
well only in the second case. -/
theorem cases_of_runOn_create {outcome : Except Fault GroupId}
    (h : (create (client others) network name).runOn host = (outcome, after)) :
    (Unchanged host after ∧ ∃ fault, outcome = .error fault) ∨
      (host.outside.group = none ∧ after.files = host.files ∧
        after.outside.group = some (host.outside.coming, []) ∧
        after.outside.coming = host.outside.coming ∧ after.outside.calls = host.outside.calls ∧
        outcome = .ok (some (CodeText.ofString host.outside.coming))) := by
  rw [create] at h
  cases hnetwork : network.filter (· != "") with
  | none =>
    -- Without a VPC nothing is asked for.
    rw [hnetwork] at h
    cases h
    exact .inl ⟨.refl host, _, rfl⟩
  | some vpc =>
    rw [hnetwork] at h
    obtain ⟨fault, hrun, rfl⟩ | ⟨answer, middle, hrun, hnext⟩ := Job.cases_of_runOn_bind h
    · -- What fails here is the request itself, and then it has changed nothing.
      obtain ⟨outside, rfl, ⟨refusal, reported, hrequest, -⟩ | ⟨_, -, hok⟩⟩ :=
        Job.cases_of_runOn_expecting hrun
      · rcases cases_of_createGroup hrequest with ⟨_, rest, -, rfl⟩ | ⟨-, rest, hok, -⟩
        · exact .inl ⟨⟨rfl, rfl, rfl, rfl⟩, _, rfl⟩
        · cases hok
      · cases hok
    · obtain ⟨outside, rfl, ⟨_, _, -, hfault⟩ | ⟨_, hrequest, hok⟩⟩ :=
        Job.cases_of_runOn_expecting hrun
      · cases hfault
      · cases hok
        rcases cases_of_createGroup hrequest with ⟨_, rest, hfault, -⟩ | ⟨hnone, rest, hok, rfl⟩
        · cases hfault
        · cases hok
          cases hnext
          exact .inr ⟨hnone, rfl, rfl, rfl, rfl, rfl⟩

/-! ## The rules of the group -/

/-- Reading permissions writes messages only. It gives what the policy sees, and no fault as long as
the permissions are as EC2 reports them. -/
theorem cases_of_runOn_readPermissions {σ : Type} {host after : Host σ}
    {permissions : List Permission} {outcome : Except Fault (List SecurityRule)}
    (h : (readPermissions group permissions).runOn host = (outcome, after)) :
    (∃ log, after = { host with log := log }) ∧
      (∀ seen, outcome = .ok seen → seen = observed permissions) ∧
      ((∀ permission ∈ permissions, permission.Reported) → ∃ seen, outcome = .ok seen) := by
  induction permissions generalizing host after outcome with
  | nil =>
    cases h
    exact ⟨⟨_, rfl⟩, fun _ hseen => (Except.ok.inj hseen).symm, fun _ => ⟨_, rfl⟩⟩
  | cons permission permissions ih =>
    rw [readPermissions] at h
    cases hread : permission.rule? with
    | error fault =>
      rw [hread] at h
      cases h
      constructor
      · exact ⟨_, rfl⟩
      · constructor
        · intro seen hseen
          cases hseen
        · intro hreported
          rw [Permission.rule?_of_reported (hreported permission List.mem_cons_self)] at hread
          cases hread
    | ok seen =>
      rw [hread] at h
      have hobserved := Permission.eq_observed?_of_rule? hread
      rw [observed, List.filterMap_cons, ← hobserved]
      cases seen with
      | some rule =>
        have htail : (readPermissions group permissions >>= fun rules => pure (rule :: rules)).runOn
            host = (outcome, after) := h
        obtain ⟨fault, hrest, rfl⟩ | ⟨rest, middle, hrest, hnext⟩ := Job.cases_of_runOn_bind htail
        · obtain ⟨hafter, -, hok⟩ := ih hrest
          refine ⟨hafter, ?_, ?_⟩
          · intro seen hseen
            cases hseen
          · intro hreported
            obtain ⟨_, hrules⟩ := hok (List.forall_mem_cons.1 hreported).2
            cases hrules
        · obtain ⟨hafter, hseen, -⟩ := ih hrest
          cases hnext
          refine ⟨hafter, ?_, fun _ => ⟨_, rfl⟩⟩
          intro seen heq
          cases heq
          rw [hseen rest rfl]
          rfl
      | none =>
        -- The permission is skipped with a message.
        obtain ⟨fault, hlog, -⟩ | ⟨_, middle, hlog, hnext⟩ := Job.cases_of_runOn_bind h
        · cases hlog
        · cases hlog
          obtain ⟨⟨log, rfl⟩, hseen, hok⟩ := ih hnext
          refine ⟨⟨log, rfl⟩, hseen, fun hreported => ?_⟩
          exact hok (List.forall_mem_cons.1 hreported).2

/-- **Listing the rules changes nothing**, and shows what the policy sees of the group. -/
theorem unchanged_of_runOn_rules {outcome : Except Fault (List SecurityRule)}
    (h : (rules (client others) group).runOn host = (outcome, after)) :
    Unchanged host after ∧
      ∀ current, outcome = .ok current → current = observed host.outside.permissions := by
  obtain ⟨fault, hrun, rfl⟩ | ⟨answer, middle, hrun, hnext⟩ := Job.cases_of_runOn_bind h
  · exact ⟨(unchanged_of_runOn_describeGroups hrun).1, nofun⟩
  · obtain ⟨hunchanged, hanswer⟩ := unchanged_of_runOn_describeGroups hrun
    have hgroups := hanswer answer rfl
    rw [answerGroups] at hgroups
    split at hgroups
    · rename_i known hknown
      have hgroup : host.outside.group = some known := group_of_known? hknown
      cases hgroups
      have htail : (readPermissions group known.2 >>= fun rules => pure (rules ++ [])).runOn middle
          = (outcome, after) := hnext
      obtain ⟨fault, hread, rfl⟩ | ⟨seen, last, hread, hend⟩ := Job.cases_of_runOn_bind htail
      · obtain ⟨⟨log, rfl⟩, -, -⟩ := cases_of_runOn_readPermissions hread
        exact ⟨hunchanged.trans ⟨rfl, rfl, rfl, rfl⟩, nofun⟩
      · obtain ⟨⟨log, rfl⟩, hseen, -⟩ := cases_of_runOn_readPermissions hread
        cases hend
        refine ⟨hunchanged.trans ⟨rfl, rfl, rfl, rfl⟩, fun current hcurrent => ?_⟩
        cases hcurrent
        rw [hseen seen rfl, List.append_nil, permissions, hgroup]
        rfl
    · cases hgroups

/-- Where nothing fails, the rules of the group are listed. -/
theorem exists_runOn_rules (others : Client Region) (hcalm : host.outside.faults = [])
    (hgroup : host.outside.group = some (identifier, held))
    (hreported : ∀ permission ∈ held, permission.Reported) :
    ∃ log, (rules (client others) (some (CodeText.ofString identifier))).runOn host
      = (.ok (observed held), { host with log := log }) := by
  have hanswer : (client others).describeGroups
      (.identified (some (CodeText.ofString identifier))) host.outside
      = (.ok (some ⟨.value [describe (identifier, held)]⟩), host.outside) := by
    show stopped (fun region => (answerGroups region.group _, region)) host.outside = _
    rw [stopped_of_calm hcalm, hgroup, answerGroups, known?_self]
  cases hread : (readPermissions (some (CodeText.ofString identifier)) held).runOn host with
  | mk outcome after =>
    obtain ⟨⟨log, rfl⟩, hseen, hok⟩ := cases_of_runOn_readPermissions hread
    obtain ⟨seen, rfl⟩ := hok hreported
    refine ⟨log, ?_⟩
    rw [rules, Job.runOn_bind_of_ok (Job.runOn_expecting_of_ok hanswer)]
    show (readPermissions (some (CodeText.ofString identifier)) held
      >>= fun rules => pure (rules ++ [])).runOn host = _
    rw [Job.runOn_bind_of_ok hread, hseen seen rfl, List.append_nil]
    rfl

/-! ## Authorizations -/

/-- **Everything that an authorization can do**: nothing is sent, or one request is, and it fails or
adds the permissions to the group. -/
theorem cases_of_runOn_apply {changes current : List SecurityRule} {outcome : Except Fault Unit}
    (h : (apply (client others) group changes current).runOn host = (outcome, after)) :
    Unchanged host after ∨
      ∃ sent, permissionsFor current changes = .ok sent ∧ Asked sent host after := by
  rw [apply] at h
  cases hsent : permissionsFor current changes with
  | error fault =>
    rw [hsent] at h
    cases h
    exact .inl (.refl host)
  | ok sent =>
    rw [hsent] at h
    obtain ⟨fault, hnever, -⟩ | ⟨_, middle, hok, hnext⟩ := Job.cases_of_runOn_bind h
    · cases hnever
    · cases hok
      by_cases hempty : sent.isEmpty = true
      · rw [if_pos hempty] at hnext
        cases hnext
        exact .inl (.refl host)
      · rw [if_neg hempty] at hnext
        -- The message that follows an authorization changes neither files nor region.
        have hrequest : ∃ answer outside,
            (client others).authorize group sent host.outside = (answer, outside) ∧
              after.files = host.files ∧ after.outside = outside := by
          obtain ⟨fault, hrun, rfl⟩ | ⟨_, middle, hrun, hlog⟩ := Job.cases_of_runOn_bind hnext
          · obtain ⟨outside, rfl, ⟨_, _, hasked, -⟩ | ⟨_, -, hok⟩⟩ :=
              Job.cases_of_runOn_expecting hrun
            · exact ⟨_, outside, hasked, rfl, rfl⟩
            · cases hok
          · obtain ⟨outside, rfl, ⟨_, _, -, hfault⟩ | ⟨_, hasked, -⟩⟩ :=
              Job.cases_of_runOn_expecting hrun
            · cases hfault
            · cases hlog
              exact ⟨_, outside, hasked, rfl, rfl⟩
        obtain ⟨answer, outside, hasked, hfiles, houtside⟩ := hrequest
        refine .inr ⟨sent, rfl, ?_⟩
        rcases cases_of_authorize hasked with
          ⟨_, rest, -, rfl⟩ | ⟨known, held, rest, hgroup, -, rfl⟩
        · exact ⟨hfiles, by rw [houtside], by rw [houtside], .inl (by rw [houtside])⟩
        · refine ⟨hfiles, by rw [houtside], by rw [houtside], .inr ⟨known, held, hgroup, ?_⟩⟩
          rw [houtside]

/-- Where nothing fails, what has to be authorized is authorized in one request, and nothing is
requested for nothing. -/
theorem exists_runOn_apply (others : Client Region) (hcalm : host.outside.faults = [])
    (hgroup : host.outside.group = some (identifier, held)) {changes current : List SecurityRule}
    {sent : List Permission} (hsent : permissionsFor current changes = .ok sent) :
    ∃ log, (apply (client others) (some (CodeText.ofString identifier)) changes current).runOn host
      = (.ok (), ⟨host.files, log, { host.outside with
          group := some (identifier, authorized held sent)
          calls := host.outside.calls ++ if sent.isEmpty then [] else [sent] }⟩) := by
  have hresult : (permissionsFor current changes).mapError Fault.number = .ok sent := by
    rw [hsent]
    rfl
  rw [apply, Job.runOn_bind_of_ok (Job.runOn_ofExcept_of_eq hresult host)]
  by_cases hempty : sent.isEmpty = true
  · -- No request is made, and authorizing nothing leaves the group as it is.
    rw [if_pos hempty, if_pos hempty, List.append_nil, List.isEmpty_iff.1 hempty]
    refine ⟨host.log, ?_⟩
    show (Except.ok (), host) = _
    rw [authorized, List.foldl_nil, ← hgroup]
  · have hasked : (client others).authorize (some (CodeText.ofString identifier)) sent host.outside
        = (.ok (), { host.outside with
            group := some (identifier, authorized held sent)
            calls := host.outside.calls ++ [sent] }) := by
      show stopped _ (recordCall sent host.outside) = _
      have hstill : (recordCall sent host.outside).faults = [] := hcalm
      have hknown : (recordCall sent host.outside).group = some (identifier, held) := hgroup
      rw [stopped_of_calm hstill, addPermissions, hknown, known?_self]
      rfl
    rw [if_neg hempty, if_neg hempty, Job.runOn_bind_of_ok (Job.runOn_expecting_of_ok hasked)]
    exact ⟨_, rfl⟩

end Operations

end Cloud.Ec2

end NodeLedger
