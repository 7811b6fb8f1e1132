import NodeLedger.Proofs.Policy.Pass

/-!
# What an empty plan grants

A plan is empty when every required rule is met or vouched for. A met rule grants all that is
required. A rule that vouches for a network admits it on every protocol, but nobody looks at its
ports.

- `granted_of_met`, `granted_of_vouched`: what each of the two ways grants.
- `granted_of_changes_eq_nil`: **an empty plan grants the policy of a cloud**, the ports of the
  network's rule apart.
- `vouching_ignores_ports`: an empty plan for a group that admits the network on one port only.
-/

namespace NodeLedger.Policy

section

variable {rules : List SecurityRule} {requester network : String} {required : RequiredRule}

/-- The first rule of a met name grants protocol, ports and source. -/
theorem granted_of_met (h : Met rules requester network required) :
    ∃ rule ∈ rules, rule.protocol = required.protocol ∧
      samePorts rule.ports required.ports = true ∧
      rule.allows (required.source requester network) = true := by
  obtain ⟨rule, hfind, hsatisfied⟩ := h
  obtain ⟨-, hprotocol, hports, hallows⟩ := RequiredRule.isSatisfiedBy_iff.1 hsatisfied
  exact ⟨rule, List.mem_of_find?_eq_some hfind, hprotocol, hports, hallows⟩

/-- A rule that vouches for a network grants protocol and source. -/
theorem granted_of_vouched (h : Vouched rules requester network required) :
    ∃ rule ∈ rules, rule.protocol = .all ∧
      rule.allows (required.source requester network) = true := by
  obtain ⟨-, rule, hrule, hadmits⟩ := h
  exact ⟨rule, hrule, SecurityRule.admitsNetwork_iff.1 hadmits⟩

end

theorem eq_ec2Rules_or_eq_azureRules {cloud : String} {policy : List RequiredRule}
    (h : rulesFor? cloud = some policy) : policy = ec2Rules ∨ policy = azureRules := by
  unfold rulesFor? at h
  split at h
  · exact .inl (Option.some.inj h).symm
  · exact .inr (Option.some.inj h).symm
  · cases h

/-- A cloud's network is required on every protocol. -/
theorem protocol_of_scope_eq_network {cloud : String} {policy : List RequiredRule}
    (h : rulesFor? cloud = some policy) {required : RequiredRule} (hmem : required ∈ policy)
    (hscope : required.scope = .network) : required.protocol = .all := by
  have hec2 : ∀ r ∈ ec2Rules, r.scope = .network → r.protocol = .all := by decide
  have hazure : ∀ r ∈ azureRules, r.scope = .network → r.protocol = .all := by decide
  rcases eq_ec2Rules_or_eq_azureRules h with rfl | rfl
  · exact hec2 required hmem hscope
  · exact hazure required hmem hscope

/-- **An empty plan grants the policy of a cloud**: for every required rule there is a rule of the
required protocol that admits the required source, and it names the required ports unless it is the
network that is required. -/
theorem granted_of_changes_eq_nil {cloud : String} {policy : List RequiredRule}
    (hcloud : rulesFor? cloud = some policy) {rules : List SecurityRule} {visit : Visit}
    (hempty : visit.changes policy rules = []) :
    ∀ required ∈ policy, ∃ rule ∈ rules, rule.protocol = required.protocol ∧
      (required.scope = .network ∨ samePorts rule.ports required.ports = true) ∧
      rule.allows (required.source visit.requester visit.network) = true := by
  intro required hmem
  rcases reconcile_eq_nil_iff.1 hempty required hmem with hvouched | hmet
  · obtain ⟨rule, hrule, hprotocol, hallows⟩ := granted_of_vouched hvouched
    have hall : required.protocol = .all := protocol_of_scope_eq_network hcloud hmem hvouched.1
    exact ⟨rule, hrule, hprotocol.trans hall.symm, .inl hvouched.1, hallows⟩
  · obtain ⟨rule, hrule, hprotocol, hports, hallows⟩ := granted_of_met hmet
    exact ⟨rule, hrule, hprotocol, .inr hports, hallows⟩

/-- The rules that a first visit makes are granted. -/
theorem granted_after_first_visit :
    rulesFor? "AWS" = some ec2Rules ∧
      (⟨"203.0.113.7", "10.0.0.9/16"⟩ : Visit).changes ec2Rules
        (pass ec2Rules [] ⟨"203.0.113.7", "10.0.0.9/16"⟩) = [] ∧
      ∀ required ∈ ec2Rules,
        ∃ rule ∈ pass ec2Rules [] ⟨"203.0.113.7", "10.0.0.9/16"⟩,
          rule.protocol = required.protocol ∧
            (required.scope = .network ∨ samePorts rule.ports required.ports = true) ∧
            rule.allows (required.source "203.0.113.7" "10.0.0.9/16") = true := by
  have hcloud : rulesFor? "AWS" = some ec2Rules := by decide +kernel
  have hempty : (⟨"203.0.113.7", "10.0.0.9/16"⟩ : Visit).changes ec2Rules
      (pass ec2Rules [] ⟨"203.0.113.7", "10.0.0.9/16"⟩) = [] := by decide +kernel
  have hgranted := granted_of_changes_eq_nil hcloud hempty
  exact ⟨hcloud, hempty, hgranted⟩

/-- The ports of a rule that vouches for the network are not looked at: the plan is empty, although
the network is admitted on port 53 only. -/
theorem vouching_ignores_ports :
    reconcile
        ([winRMRule, rdpRule, sshRule].map (·.newRule "203.0.113.7/32")
          ++ [⟨some "dns", .all, ["10.0.0.0/16"], "53", none⟩])
        ec2Rules "203.0.113.7" "10.0.0.0/16" = [] ∧
      ¬ ∃ rule ∈ [winRMRule, rdpRule, sshRule].map (·.newRule "203.0.113.7/32")
          ++ [⟨some "dns", .all, ["10.0.0.0/16"], "53", none⟩],
        rule.protocol = vpcRule.protocol ∧ samePorts rule.ports vpcRule.ports = true ∧
          rule.allows (vpcRule.source "203.0.113.7" "10.0.0.0/16") = true := by
  decide +kernel

end NodeLedger.Policy
