import NodeLedger.Proofs.Cloud.Ec2.Region

/-!
# Compliance after one run

One run lists the rules of a group, compares them with the policy and authorizes what is asked for.
The sources that are sent are taken from the permission of a name, but what is left out of them is
taken from the permission of the key; so the run is right whatever the descriptions say.

- `Ec2.comply`: one run over a group that is there.
- `Ec2.requiredGrants`: what the policy asks for at a visit.
- `exists_runOn_comply`: **what a run does** where nothing fails.
- `complies_after_run`: **a group complies after one run**, which asks for nothing that is there and
  for nothing twice.
-/

namespace NodeLedger.Cloud.Ec2

open Policy

/-- List the rules of a group, compare them with the policy, and authorize what is asked for. -/
def comply {σ : Type} (client : Client σ) (group : GroupId) (visit : Visit) : Job σ Unit := do
  let current ← rules client group
  apply client group (visit.changes ec2Rules current) current

/-- What the policy asks for at a visit: the operator's address on three ports, and everything for
the network. -/
def requiredGrants (visit : Visit) : List (PermissionKey × String) :=
  [(.tcp 5986 5986, visit.requester ++ "/32"), (.tcp 3389 3389, visit.requester ++ "/32"),
    (.everything, Address.canonical visit.network), (.tcp 22 22, visit.requester ++ "/32")]

section

variable {visit : Visit} {held : List Permission} {grant : PermissionKey × String}

/-- The keys that the rules of the policy open. -/
theorem requiredKey_eq :
    requiredKey winRMRule = .tcp 5986 5986 ∧ requiredKey rdpRule = .tcp 3389 3389 ∧
      requiredKey vpcRule = .everything ∧ requiredKey sshRule = .tcp 22 22 := by
  decide +kernel

theorem requiredGrants_eq (h : (Address.readV4? visit.requester.toList).isSome = true) :
    requiredGrants visit
      = ec2Rules.map fun required => (requiredKey required, visit.source required) := by
  obtain ⟨hwinRM, hrdp, hvpc, hssh⟩ := requiredKey_eq
  rw [requiredGrants, ← Visit.canonical_requester h, ← hwinRM, ← hrdp, ← hvpc, ← hssh]
  rfl

theorem mem_requiredGrants_iff (h : (Address.readV4? visit.requester.toList).isSome = true) :
    grant ∈ requiredGrants visit ↔
      ∃ required ∈ ec2Rules, (requiredKey required, visit.source required) = grant := by
  rw [requiredGrants_eq h, List.mem_map]

/-- A group that has been asked for what a visit asks for grants all that is required. -/
theorem mem_grants_of_mem_requiredGrants (h : GroupReported held) (hvisit : visit.Valid)
    (hgrant : grant ∈ requiredGrants visit) :
    grant ∈ grants (authorized held (requests held visit)) := by
  obtain ⟨required, hmem, rfl⟩ := (mem_requiredGrants_iff hvisit.requester).1 hgrant
  rw [mem_grants_authorized_iff]
  by_cases hheld : (requiredKey required, visit.source required) ∈ grants held
  · exact .inl hheld
  · refine .inr ((mem_grants_requests_iff h hvisit).2 ⟨hheld, required, hmem, rfl, ?_, .inl rfl⟩)
    rintro ⟨hscope, hvouched⟩
    -- Only the rule for the network can be vouched for, and it opens everything.
    rcases cases_of_mem_ec2Rules hmem with ⟨_, -, hoperator, -⟩ | ⟨-, -, -, hkey⟩
    · rw [hscope] at hoperator
      cases hoperator
    · exact hheld (hkey ▸ hvouched)

/-- A group stays as EC2 reports groups. -/
theorem groupReported_after_requests (h : GroupReported held) (hvisit : visit.Valid) :
    GroupReported (authorized held (requests held visit)) := by
  refine groupReported_authorized h (reported_requests h hvisit) (nodup_grants_requests h hvisit) ?_
  rintro ⟨key, block⟩ hgrant
  exact ((mem_grants_requests_iff h hvisit).1 hgrant).1

end

section Run

variable {others : Client Region} {identifier : String} {visit : Visit} {host : Host Region}
  {held : List Permission}

/-- **What a run does** where nothing fails: what the visit asks for is authorized, in one request or
none. -/
theorem exists_runOn_comply (others : Client Region) (hcalm : host.outside.faults = [])
    (hgroup : host.outside.group = some (identifier, held)) (hreported : GroupReported held)
    (visit : Visit) :
    ∃ after, (comply (Region.client others) (some (CodeText.ofString identifier)) visit).runOn host
        = (.ok (), after) ∧
      after.outside.faults = [] ∧
      after.outside.group = some (identifier, authorized held (requests held visit)) ∧
      after.outside.calls = host.outside.calls
        ++ if (requests held visit).isEmpty then [] else [requests held visit] := by
  obtain ⟨log, hrules⟩ := exists_runOn_rules others hcalm hgroup hreported.permissions
  have hcalm' : (⟨host.files, log, host.outside⟩ : Host Region).outside.faults = [] := hcalm
  obtain ⟨log', happly⟩ :=
    exists_runOn_apply others hcalm' hgroup (permissionsFor_observed hreported visit)
  rw [comply, Job.runOn_bind_of_ok hrules]
  exact ⟨_, happly, hcalm, rfl, rfl⟩

/-- **A group complies after one run.** At most one authorization is asked for. It names nothing that
the group grants already, and nothing twice; and after it the operator is let in on the three ports,
and the network everywhere.

Names and descriptions do not matter. All traffic is one key, so a group has at most one permission for
it. -/
theorem complies_after_run (others : Client Region) (hcalm : host.outside.faults = [])
    (hgroup : host.outside.group = some (identifier, held)) (hreported : GroupReported held)
    (hvisit : visit.Valid) :
    ∃ after calls,
      (comply (Region.client others) (some (CodeText.ofString identifier)) visit).runOn host
          = (.ok (), after) ∧
        after.outside.calls = host.outside.calls ++ calls ∧ calls.length ≤ 1 ∧
        (∀ call ∈ calls, (grants call).Nodup ∧ ∀ grant ∈ grants call, grant ∉ grants held) ∧
        ∀ grant ∈ requiredGrants visit, grant ∈ grants after.outside.permissions := by
  obtain ⟨after, hrun, -, hafter, hcalls⟩ :=
    exists_runOn_comply others hcalm hgroup hreported visit
  refine ⟨after, _, hrun, hcalls, ?_, ?_, ?_⟩
  · split
    · exact Nat.zero_le 1
    · exact Nat.le_refl 1
  · intro call hcall
    have hsame : call = requests held visit := by
      split at hcall
      · cases hcall
      · exact List.mem_singleton.1 hcall
    rw [hsame]
    refine ⟨nodup_grants_requests hreported hvisit, ?_⟩
    rintro ⟨key, block⟩ hgrant
    exact ((mem_grants_requests_iff hreported hvisit).1 hgrant).1
  · intro grant hgrant
    rw [Region.permissions, hafter]
    exact mem_grants_of_mem_requiredGrants hreported hvisit hgrant

end Run

/-- A TCP port that one IPv4 block is let in on. -/
def openPort (port : Nat) (block description : String) : Permission where
  protocol := .value "tcp"
  low := .value port
  high := .value port
  ranges := .value [⟨.value block, .value description⟩]
  wideRanges := .missing

/-- A group whose descriptions mislead: HTTPS is described as SSH, and SSH as RDP. -/
def misdescribed : List Permission :=
  [openPort 443 "198.51.100.0/24" "SSH", openPort 22 "192.0.2.0/24" "RDP"]

/-- A host beside a region that holds a group, where nothing fails. -/
def beside (group : List Permission) : Host Region :=
  ⟨⟨[], []⟩, [], ⟨some ("sg-1", group), "sg-2", [], []⟩⟩

/-- A misdescribed group complies after one run. -/
theorem complies_if_misdescribed :
    let visit : Visit := ⟨"203.0.113.7", "10.0.0.9/16"⟩
    GroupReported misdescribed ∧ visit.Valid ∧
      ∃ after calls,
        (comply (Region.client Region.locked) (some (CodeText.ofString "sg-1")) visit).runOn
            (beside misdescribed) = (.ok (), after) ∧
          after.outside.calls = [] ++ calls ∧ calls.length ≤ 1 ∧
          (∀ call ∈ calls,
            (grants call).Nodup ∧ ∀ grant ∈ grants call, grant ∉ grants misdescribed) ∧
          ∀ grant ∈ requiredGrants visit, grant ∈ grants after.outside.permissions := by
  intro visit
  have hreported : GroupReported misdescribed := by decide +kernel
  have hvisit : visit.Valid := by decide +kernel
  refine ⟨hreported, hvisit, ?_⟩
  have hcalm : (beside misdescribed).outside.faults = [] := rfl
  exact complies_after_run Region.locked hcalm rfl hreported hvisit

/-- All traffic from one block, with or without ports, which mean nothing to it. -/
def openToAll (ports : Field Int × Field Int) (block description : String) : Permission where
  protocol := .value "-1"
  low := ports.1
  high := ports.2
  ranges := .value [⟨.value block, .value description⟩]
  wideRanges := .missing

/-- A group with two permissions for all traffic, told apart by their ports only. -/
def twiceOpen : List Permission :=
  [openToAll (.value 0, .value 65535) "192.0.2.0/24" "SSH",
    openToAll (.missing, .missing) "198.51.100.0/24" "vpc_traffic"]

/-- What the second permission for all traffic grants is asked for again, because it is compared with
the first one. -/
theorem asks_again_if_twice_open :
    let visit : Visit := ⟨"203.0.113.7", "10.0.0.0/16"⟩
    let after := ((comply (Region.client Region.locked) (some (CodeText.ofString "sg-1")) visit).runOn
      (beside twiceOpen)).2
    (twiceOpen.map fun permission => (permission.protocol, permission.low, permission.high)).Nodup ∧
      (∀ permission ∈ twiceOpen, permission.Reported) ∧ visit.Valid ∧
      ∃ call ∈ after.outside.calls, ∃ sent ∈ call, ∃ held ∈ twiceOpen,
        (sent.protocol, sent.low, sent.high) = (held.protocol, held.low, held.high) ∧
          "198.51.100.0/24" ∈ sent.blocks ∧ "198.51.100.0/24" ∈ held.blocks := by
  intro visit after
  exact ⟨by decide, by decide +kernel, by decide +kernel, by decide +kernel⟩

end NodeLedger.Cloud.Ec2
