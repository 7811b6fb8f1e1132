import NodeLedger.Proofs.Cloud.Ec2.Compliance
import NodeLedger.Proofs.Provisioning.Ensure

/-!
# What making sure of a group grants

Whoever makes sure of a group grants what the policy requires. But a rule that is corrected keeps its
sources, and on EC2 the rule of a name may have been seen on any ports; so the sources of a permission
that is described with the name of a required rule are let in on the ports of that rule too.

- `exists_opening_of_mem_permissionsFor`, `exists_of_mem_grants_permissionsFor`: where an authorized
  permission and its sources come from.
- `Permission.mem_descriptions_of_name?`: why a permission goes by a name that its ports do not give.
- `granted_by_ensureGroup`: **what is granted newly**, to any group, whatever fails.
- `ensureGroup_opens_other_port`: a source of HTTPS that is let in by SSH.
-/

namespace NodeLedger.Cloud

open Policy

/-! ## Names that ports do not give -/

namespace Permission

variable {permission : Permission} {required : RequiredRule}

/-- The name of a port is the name of the rule that opens the port. -/
theorem requiredKey_of_portName? (hmem : required ∈ ec2Rules) {port : Int}
    (hname : portName? port = some required.name) : Ec2.requiredKey required = .tcp port port := by
  obtain ⟨hwinRM, hrdp, -, hssh⟩ := Ec2.requiredKey_eq
  unfold portName? at hname
  split at hname
  · rename_i hport
    rw [← Ec2.eq_of_name_eq hmem (by decide) (Option.some.inj hname), hport]
    exact hrdp
  · split at hname
    · rename_i hport
      rw [← Ec2.eq_of_name_eq hmem (by decide) (Option.some.inj hname), hport]
      exact hwinRM
    · split at hname
      · rename_i hport
        rw [← Ec2.eq_of_name_eq hmem (by decide) (Option.some.inj hname), hport]
        exact hssh
      · cases hname

/-- The name made of two ports is no name of the policy. -/
theorem portsName_ne (hmem : required ∈ ec2Rules) (low high : String) :
    s!"tcp-{low}-{high}" ≠ required.name := by
  have hhead : ∀ r ∈ ec2Rules, r.name.toList.head? ≠ some 't' := by decide
  intro heq
  refine hhead required hmem ?_
  have htext : s!"tcp-{low}-{high}" = "tcp-" ++ (low ++ "-" ++ high) := by
    show "tcp-" ++ low ++ "-" ++ high = _
    rw [String.append_assoc, String.append_assoc, String.append_assoc]
  rw [← heq, htext, String.toList_append]
  rfl

/-- **A permission with the name of a required rule has the key of the rule, or the name is among its
descriptions.** -/
theorem mem_descriptions_of_name? (hmem : required ∈ ec2Rules)
    (hname : permission.name? = some required.name)
    (hkey : permission.key ≠ Ec2.requiredKey required) :
    required.name ∈ permission.descriptions := by
  obtain ⟨protocol, hprotocol, hname⟩ := Option.map_eq_some_iff.1 hname
  unfold name at hname
  split at hname
  · rename_i description hfind
    exact hname ▸ List.mem_of_find?_eq_some hfind
  · cases protocol with
    | all =>
      -- All traffic has the key of the rule for the network.
      have hrule := Ec2.eq_of_name_eq hmem (by decide) (show vpcRule.name = required.name from hname)
      rw [← hrule, Ec2.requiredKey_eq.2.2.1] at hkey
      exact absurd (key_eq_everything_iff.2 hprotocol) hkey
    | tcp =>
      have hchoice : (permission.nameOfPorts?.or permission.descriptions.head?).getD
          s!"tcp-{portText permission.low}-{portText permission.high}" = required.name := hname
      cases hports : permission.nameOfPorts? with
      | some other =>
        rw [hports] at hchoice
        have hother : other = required.name := hchoice
        rw [hother, nameOfPorts?] at hports
        obtain ⟨hsame, hbound⟩ := Option.ite_none_right_eq_some.1 hports
        obtain ⟨port, hlow, hport⟩ := Option.bind_eq_some_iff.1 hbound
        -- The ports give the name, so they are those of the rule.
        refine absurd ?_ hkey
        rw [requiredKey_of_portName? hmem hport, key, hprotocol, ← hsame, hlow]
        rfl
      | none =>
        -- The ports give no name, so it is the first description, if there is one.
        rw [hports] at hchoice
        cases hhead : permission.descriptions.head? with
        | some first =>
          rw [hhead] at hchoice
          have hfirst : first = required.name := hchoice
          exact hfirst ▸ List.mem_of_head? hhead
        | none =>
          rw [hhead] at hchoice
          exact absurd hchoice (portsName_ne hmem _ _)

end Permission

/-! ## Where authorized sources come from -/

namespace Ec2

variable {group : List Permission} {visit : Visit} {required : RequiredRule} {change : SecurityRule}
  {block : String} {grant : PermissionKey × String}

theorem missingSources_subset (rule : SecurityRule) (held : Option SecurityRule) :
    missingSources rule held ⊆ rule.sources := by
  cases held with
  | none => exact List.Subset.refl _
  | some current => exact List.filter_subset_self _

/-- What is sent for a change opens its rule to sources that the change has. -/
theorem exists_of_permissionFor? {current : List SecurityRule} {permission : Permission}
    (h : permissionFor? current change = .ok (some permission)) :
    ∃ addresses ⊆ change.sources, Permission.ofRule change addresses = .ok permission := by
  obtain ⟨held, -, h⟩ := exists_of_bind_eq_ok h
  dsimp only at h
  split at h
  · -- Nothing is sent for nothing.
    cases h
  · obtain ⟨opened, hopens, h⟩ := exists_of_bind_eq_ok h
    cases h
    exact ⟨_, missingSources_subset change held, hopens⟩

/-- What is sent for a list of changes is sent for one of them. -/
theorem exists_of_mem_permissionsFor {current changes : List SecurityRule} {sent : List Permission}
    {permission : Permission} (hsent : permissionsFor current changes = .ok sent)
    (hmem : permission ∈ sent) :
    ∃ change ∈ changes, permissionFor? current change = .ok (some permission) := by
  induction changes generalizing sent with
  | nil =>
    cases hsent
    cases hmem
  | cons change changes ih =>
    obtain ⟨first, hfirst, hsent⟩ := exists_of_bind_eq_ok hsent
    obtain ⟨rest, hrest, hsent⟩ := exists_of_bind_eq_ok hsent
    cases hsent
    rcases List.mem_append.1 hmem with hhead | htail
    · rw [Option.mem_toList.1 hhead] at hfirst
      exact ⟨change, List.mem_cons_self, hfirst⟩
    · obtain ⟨other, hother, hopens⟩ := ih hrest htail
      exact ⟨other, List.mem_cons_of_mem _ hother, hopens⟩

/-- Each permission that is sent opens the key of a required rule, which has asked for a change, to
sources that the change has. The group may be any. -/
theorem exists_opening_of_mem_permissionsFor {sent : List Permission} {permission : Permission}
    (hsent : permissionsFor (observed group) (visit.changes ec2Rules (observed group)) = .ok sent)
    (hmem : permission ∈ sent) :
    ∃ required ∈ ec2Rules, ∃ change, change? group visit required = some change ∧
      PermissionKey.of? change.protocol change.ports = some (requiredKey required) ∧
      ∃ addresses ⊆ change.sources,
        permission = .opening (requiredKey required) change.name addresses := by
  obtain ⟨change, hchange, hsent⟩ := exists_of_mem_permissionsFor hsent hmem
  obtain ⟨addresses, hsub, hopens⟩ := exists_of_permissionFor? hsent
  obtain ⟨required, hrequired, hchange⟩ := List.mem_filterMap.1 hchange
  have hopened := of?_of_change? hrequired hchange
  rw [Permission.ofRule_eq_opening hopened] at hopens
  cases hopens
  exact ⟨required, hrequired, change, hchange, hopened, addresses, hsub, rfl⟩

/-- **Where authorized sources come from.** What is authorized has the key of a required rule. It is
the source that the rule requires, or a source of the permission that goes by the name of the rule.
The group may be any. -/
theorem exists_of_mem_grants_permissionsFor {sent : List Permission}
    (hsent : permissionsFor (observed group) (visit.changes ec2Rules (observed group)) = .ok sent)
    (hgrant : grant ∈ grants sent) :
    ∃ required ∈ ec2Rules, grant.1 = requiredKey required ∧
      (grant.2 = visit.source required ∨ ∃ permission,
        firstNamed group required.name = some permission ∧ grant.2 ∈ permission.blocks) := by
  obtain ⟨key, block⟩ := grant
  obtain ⟨permission, hpermission, hkey, hblock⟩ := mem_grants_iff.1 hgrant
  obtain ⟨required, hmem, change, hchange, hopened, addresses, hsub, rfl⟩ :=
    exists_opening_of_mem_permissionsFor hsent hpermission
  rw [Permission.key_opening hopened] at hkey
  refine ⟨required, hmem, hkey.symm, ?_⟩
  exact eq_source_or_exists_firstNamed hchange (hsub (Permission.mem_of_mem_blocks_opening hblock))

end Ec2

end NodeLedger.Cloud

namespace NodeLedger.Provisioning

open Cloud Cloud.Ec2 Policy

section

variable {others : Client Region} {vpc : Option String} {path : CodeText} {cluster network : String}
  {requester : Except Fault String} {host after : Host Region} {outcome : Except Fault GroupId}
  {grant : PermissionKey × String}

/-- What is granted newly was sent for what a visit asks of the group. -/
theorem exists_sent_of_granted [Json.Nesting]
    (h : ((onRegion others vpc path requester).ensureGroup cluster network).runOn host
      = (outcome, after))
    (hgranted : grant ∈ grants after.outside.permissions)
    (hnew : grant ∉ grants host.outside.permissions) :
    ∃ address sent, requester = .ok address ∧ grant ∈ grants sent ∧
      permissionsFor (observed host.outside.permissions)
        ((Visit.mk address network).changes ec2Rules (observed host.outside.permissions))
          = .ok sent := by
  rcases permissions_of_runOn_ensureGroup h with hsame | ⟨address, sent, rfl, hsent, hadded⟩
  · exact absurd (hsame ▸ hgranted) hnew
  · rw [hadded] at hgranted
    exact ⟨address, sent, rfl, (mem_grants_authorized_iff.1 hgranted).resolve_left hnew, hsent⟩

/-- **What is granted newly**, whatever the group and whatever fails. It is one of the grants that the
policy requires; or it lets a source in on the ports of a required rule that a permission with other
ports has, which goes by the name of the rule because one of its ranges is described so. -/
theorem granted_by_ensureGroup [Json.Nesting] {address : String}
    (haddress : (Address.readV4? address.toList).isSome = true)
    (h : ((onRegion others vpc path (.ok address)).ensureGroup cluster network).runOn host
      = (outcome, after))
    (hgranted : grant ∈ grants after.outside.permissions)
    (hnew : grant ∉ grants host.outside.permissions) :
    grant ∈ requiredGrants ⟨address, network⟩ ∨
      ∃ required ∈ ec2Rules, ∃ permission,
        firstNamed host.outside.permissions required.name = some permission ∧
          permission.key ≠ requiredKey required ∧ required.name ∈ permission.descriptions ∧
          grant.1 = requiredKey required ∧ grant.2 ∈ permission.blocks := by
  obtain ⟨_, sent, heq, hgrant, hsent⟩ := exists_sent_of_granted h hgranted hnew
  cases heq
  obtain ⟨required, hmem, hkey, hsource | ⟨permission, hfirst, hblock⟩⟩ :=
    exists_of_mem_grants_permissionsFor hsent hgrant
  · refine .inl ((mem_requiredGrants_iff haddress).2 ⟨required, hmem, ?_⟩)
    exact Prod.ext hkey.symm hsource.symm
  · obtain ⟨hgroup, hname⟩ := mem_of_firstNamed hfirst
    -- On the key of the rule itself the source would not be new.
    have hother : permission.key ≠ requiredKey required := by
      intro hsame
      exact hnew (mem_grants_iff.2 ⟨permission, hgroup, hsame.trans hkey.symm, hblock⟩)
    refine .inr ⟨required, hmem, permission, hfirst, hother, ?_, hkey, hblock⟩
    exact Permission.mem_descriptions_of_name? hmem hname hother

attribute [local instance] Json.Nesting.usual

/-- A source of HTTPS, described as SSH, is let in by SSH, beside the grants that are required. -/
theorem granted_to_misdescribed :
    let run := (onRegion Region.locked (some "vpc-1") "ledger.json" (.ok "203.0.113.7")).ensureGroup
      "cluster" "10.0.0.0/16"
    let after := (run.runOn (beside misdescribed)).2
    let grant : PermissionKey × String := (.tcp 22 22, "198.51.100.0/24")
    grant ∈ grants after.outside.permissions ∧ grant ∉ grants misdescribed ∧
      (grant ∈ requiredGrants ⟨"203.0.113.7", "10.0.0.0/16"⟩ ∨
        ∃ required ∈ ec2Rules, ∃ permission,
          firstNamed misdescribed required.name = some permission ∧
            permission.key ≠ requiredKey required ∧ required.name ∈ permission.descriptions ∧
            grant.1 = requiredKey required ∧ grant.2 ∈ permission.blocks) := by
  intro run after grant
  have haddress : (Address.readV4? "203.0.113.7".toList).isSome = true := by decide
  have hgranted : grant ∈ grants after.outside.permissions := by decide +kernel
  have hnew : grant ∉ grants (beside misdescribed).outside.permissions := by decide +kernel
  refine ⟨hgranted, hnew, ?_⟩
  have hrun : run.runOn (beside misdescribed) = ((run.runOn (beside misdescribed)).1, after) := rfl
  exact granted_by_ensureGroup haddress hrun hgranted hnew

/-- Making sure of a group as EC2 reports groups can let in, on a port that the policy requires, a
source that was let in on another port only and that the policy does not ask for. -/
theorem ensureGroup_opens_other_port :
    GroupReported misdescribed ∧ (Visit.mk "203.0.113.7" "10.0.0.0/16").Valid ∧
      ∃ grant ∈ grants (((onRegion Region.locked (some "vpc-1") "ledger.json"
            (.ok "203.0.113.7")).ensureGroup "cluster" "10.0.0.0/16").runOn
            (beside misdescribed)).2.outside.permissions,
        grant ∉ grants misdescribed ∧ grant ∉ requiredGrants ⟨"203.0.113.7", "10.0.0.0/16"⟩ ∧
          (.tcp 443 443, grant.2) ∈ grants misdescribed := by
  decide +kernel

end

end NodeLedger.Provisioning
