import NodeLedger.Proofs.Policy.Grants

/-!
# Passes that end early

A pass may end before all of its changes are applied, and nothing says in which order they were. The
next pass of the same operator starts from what is there.

Changes can get in each other's way in two ways only: they share a name, or one of them makes or takes
away what vouches for the network that the other is for. `Separate` policies rule out both, but for a
rule of protocol all that has the name of a rule for operators: there a change makes a TCP rule of what
vouched for the network.

- `Separate`: a policy that opens one network, and TCP ports to operators. The policies of both clouds
  are separate.
- `changeFor_applyByName`: what a required rule asks for after any of the changes.
- `reconcile_applyByName`, `rest_of_changes`: **the next pass asks for what has not been done, and for
  nothing else**.
-/

namespace NodeLedger.Policy

section

variable {rules done other : List SecurityRule} {requester network : String}
  {required : RequiredRule} {change : SecurityRule}

/-- What a required rule asks for is decided by what vouches for it and by the first rule of its
name. -/
theorem changeFor_congr
    (hvouched : Vouched rules requester network required ↔ Vouched other requester network required)
    (hname : findByName rules required.name = findByName other required.name) :
    changeFor rules requester network required = changeFor other requester network required := by
  by_cases h : Vouched rules requester network required
  · rw [changeFor_of_vouched h, changeFor_of_vouched (hvouched.1 h)]
  · rw [changeFor_of_not_vouched h, changeFor_of_not_vouched fun h' => h (hvouched.2 h'), hname]

/-- Changes to TCP rules neither vouch for a network nor take away what does, unless a rule of protocol
all has the name of one of them. -/
theorem vouched_applyByName_iff (htcp : ∀ change ∈ done, change.protocol = .tcp)
    (hapart : ∀ rule ∈ rules, rule.protocol = .all → ∀ change ∈ done, change.name ≠ rule.name) :
    Vouched (applyByName rules done) requester network required ↔
      Vouched rules requester network required := by
  constructor
  · rintro ⟨hscope, rule, hrule, hadmits⟩
    refine ⟨hscope, rule, ?_, hadmits⟩
    rcases mem_of_mem_applyByName hrule with hbefore | hmade
    · exact hbefore
    · have hall := (SecurityRule.admitsNetwork_iff.1 hadmits).1
      rw [htcp rule hmade] at hall
      cases hall
  · rintro ⟨hscope, rule, hrule, hadmits⟩
    have hall := (SecurityRule.admitsNetwork_iff.1 hadmits).1
    exact ⟨hscope, rule, mem_applyByName_of_ne hrule (hapart rule hrule hall), hadmits⟩

variable {policy : List RequiredRule}

theorem protocol_of_changeFor (h : changeFor rules requester network required = some change) :
    change.protocol = required.protocol :=
  (RequiredRule.isSatisfiedBy_iff.1 (isSatisfiedBy_of_changeFor h)).2.1

/-! ## Separate policies -/

/-- A policy of distinct names that opens TCP ports to operators, and everything to one network. -/
structure Separate (policy : List RequiredRule) : Prop where
  names : (policy.map (·.name)).Nodup
  tcp : ∀ required ∈ policy, required.scope = .operator → required.protocol = .tcp
  network : ∀ required ∈ policy, ∀ other ∈ policy,
    required.scope = .network → other.scope = .network → other = required

theorem separate_ec2Rules : Separate ec2Rules :=
  ⟨by decide, by decide, by decide⟩

theorem separate_azureRules : Separate azureRules :=
  ⟨by decide, by decide, by decide⟩

theorem separate_of_rulesFor? {cloud : String} (h : rulesFor? cloud = some policy) :
    Separate policy := by
  rcases eq_ec2Rules_or_eq_azureRules h with rfl | rfl
  · exact separate_ec2Rules
  · exact separate_azureRules

/-- No rule of protocol all has the name of a required rule for operators. -/
def NetworkApart (policy : List RequiredRule) (rules : List SecurityRule) : Prop :=
  ∀ rule ∈ rules, rule.protocol = .all →
    ∀ required ∈ policy, required.scope = .operator → rule.name ≠ some required.name

/-- The changes that other required rules have asked for leave a required network vouched for or not,
as it was. -/
theorem vouched_of_others_iff (h : Separate policy) (hapart : NetworkApart policy rules)
    (hdone : done ⊆ reconcile rules policy requester network) (hmem : required ∈ policy)
    (hothers : ∀ change ∈ done, change.name ≠ some required.name) :
    Vouched (applyByName rules done) requester network required ↔
      Vouched rules requester network required := by
  cases hscope : required.scope with
  | operator => exact iff_of_false (not_vouched_of_operator hscope) (not_vouched_of_operator hscope)
  | network =>
    -- There is no other network, so the changes are for operators.
    have hoperator : ∀ change ∈ done, ∃ asking ∈ policy, asking.scope = .operator ∧
        changeFor rules requester network asking = some change := by
      intro change hchange
      obtain ⟨asking, hasking, hasked⟩ := mem_reconcile_iff.1 (hdone hchange)
      refine ⟨asking, hasking, ?_, hasked⟩
      cases hother : asking.scope with
      | operator => rfl
      | network =>
        have hsame := h.network required hmem asking hasking hscope hother
        rw [hsame] at hasked
        exact absurd (name_of_changeFor hasked) (hothers change hchange)
    refine vouched_applyByName_iff (fun change hchange => ?_) fun rule hrule hall change hchange => ?_
    · obtain ⟨asking, hasking, hfor, hasked⟩ := hoperator change hchange
      rw [protocol_of_changeFor hasked]
      exact h.tcp asking hasking hfor
    · obtain ⟨asking, hasking, hfor, hasked⟩ := hoperator change hchange
      rw [name_of_changeFor hasked]
      exact (hapart rule hrule hall asking hasking hfor).symm

/-- **What a required rule asks for after any of the changes**: what it asked for before, or nothing if
that has been done. -/
theorem changeFor_applyByName (h : Separate policy) (hapart : NetworkApart policy rules)
    (hdone : done ⊆ reconcile rules policy requester network) (hmem : required ∈ policy) :
    changeFor (applyByName rules done) requester network required
      = (changeFor rules requester network required).filter (· ∉ done) := by
  by_cases hmade : ∃ change ∈ done, change.name = some required.name
  · obtain ⟨change, hchange, hname⟩ := hmade
    have hasked : ∀ other ∈ done, other.name = some required.name →
        changeFor rules requester network required = some other := fun other hother =>
      changeFor_of_mem_reconcile h.names hmem (hdone hother)
    have hfind : findByName (applyByName rules done) required.name = some change := by
      refine findByName_applyByName_of_unique hchange hname (fun other hother heq => ?_) rules
      exact Option.some.inj ((hasked other hother heq).symm.trans (hasked change hchange hname))
    have hwanted := hasked change hchange hname
    rw [hwanted, Option.filter_some_neg (by simpa using hchange)]
    exact changeFor_eq_none_iff.2 (.inr ⟨change, hfind, isSatisfiedBy_of_changeFor hwanted⟩)
  · have hothers : ∀ change ∈ done, change.name ≠ some required.name := fun change hchange hname =>
      hmade ⟨change, hchange, hname⟩
    rw [changeFor_congr (vouched_of_others_iff h hapart hdone hmem hothers)
      (findByName_applyByName_of_ne hothers rules)]
    cases hasked : changeFor rules requester network required with
    | none => rfl
    | some change =>
      have hnew : change ∉ done := fun hchange => hothers change hchange (name_of_changeFor hasked)
      rw [Option.filter_some_pos (by simpa using hnew)]

/-- The next pass asks for what has not been done, unchanged and in the order of the policy. -/
theorem reconcile_applyByName (h : Separate policy) (hapart : NetworkApart policy rules)
    (hdone : done ⊆ reconcile rules policy requester network) :
    reconcile (applyByName rules done) policy requester network
      = (reconcile rules policy requester network).filter (· ∉ done) := by
  rw [reconcile, reconcile, List.filter_filterMap]
  exact List.filterMap_congr fun required hmem => changeFor_applyByName h hapart hdone hmem

end

/-- **A visit can be taken up again wherever it ended**, with the policy of either cloud: whichever of
its changes have been applied, in whatever order and however often, the same visit then asks for the
others, unchanged and in the same order. So it asks for nothing only once all of them are done. -/
theorem rest_of_changes {cloud : String} {policy : List RequiredRule}
    (hcloud : rulesFor? cloud = some policy) {rules done : List SecurityRule} {visit : Visit}
    (hapart : ∀ rule ∈ rules, rule.protocol = .all →
      rule.name ≠ some "WinRM" ∧ rule.name ≠ some "RDP" ∧ rule.name ≠ some "SSH")
    (hdone : done ⊆ visit.changes policy rules) :
    visit.changes policy (applyByName rules done)
        = (visit.changes policy rules).filter (· ∉ done) ∧
      (visit.changes policy (applyByName rules done) = [] ↔ visit.changes policy rules ⊆ done) := by
  have hnames : ∀ required ∈ policy, required.scope = .operator →
      required.name ∈ ["WinRM", "RDP", "SSH"] := by
    rcases eq_ec2Rules_or_eq_azureRules hcloud with rfl | rfl
    · decide
    · decide
  have hnetwork : NetworkApart policy rules := by
    intro rule hrule hall required hmem hscope heq
    obtain ⟨hwinRM, hrdp, hssh⟩ := hapart rule hrule hall
    have hname := hnames required hmem hscope
    simp only [List.mem_cons, List.not_mem_nil, or_false] at hname
    rcases hname with hname | hname | hname
    · exact hwinRM (heq.trans (congrArg some hname))
    · exact hrdp (heq.trans (congrArg some hname))
    · exact hssh (heq.trans (congrArg some hname))
  have hrest := reconcile_applyByName (separate_of_rulesFor? hcloud) hnetwork hdone
  refine ⟨hrest, ?_⟩
  rw [Visit.changes, hrest, List.filter_eq_nil_iff]
  simp only [decide_not, Bool.not_eq_true', decide_eq_false_iff_not, not_not]
  rfl

/-- A visit to a group whose network is open under the name of the policy, but to another network, and
which has two rules for SSH. The changes for SSH and WinRM are applied, in this order. -/
theorem rest_after_two_changes :
    let visit : Visit := ⟨"203.0.113.7", "10.0.0.0/16"⟩
    let rules : List SecurityRule :=
      [⟨some "vnet_traffic", .all, ["10.9.0.0/16"], "*", some 100⟩,
        ⟨some "SSH", .tcp, ["192.0.2.1"], "2222", none⟩, ⟨some "SSH", .tcp, [], "22", none⟩]
    let ssh : SecurityRule := ⟨some "SSH", .tcp, ["192.0.2.1", "203.0.113.7/32"], "22", some 603⟩
    let done := [ssh, winRMRule.newRule "203.0.113.7/32"]
    done ⊆ visit.changes azureRules rules ∧
      visit.changes azureRules (applyByName rules done)
        = [rdpRule.newRule "203.0.113.7/32",
          ⟨some "vnet_traffic", .all, ["10.9.0.0/16", "10.0.0.0/16"], "1-65535", some 100⟩] := by
  intro visit rules ssh done
  have hcloud : rulesFor? "Azure" = some azureRules := by decide +kernel
  have hapart : ∀ rule ∈ rules, rule.protocol = .all →
      rule.name ≠ some "WinRM" ∧ rule.name ≠ some "RDP" ∧ rule.name ≠ some "SSH" := by decide
  have hdone : done ⊆ visit.changes azureRules rules := by decide +kernel
  refine ⟨hdone, (rest_of_changes hcloud hapart hdone).1.trans ?_⟩
  decide +kernel

end NodeLedger.Policy
