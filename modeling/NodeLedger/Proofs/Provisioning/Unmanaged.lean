import NodeLedger.Proofs.Cloud.Nsg.Updates
import NodeLedger.Proofs.Provisioning.Stages

/-!
# Rules that are not managed

The group of a cluster on Azure is shared with its other machines, and holds rules that the policy
does not see: denials, outbound rules, rules for other protocols. Making sure of the group puts rules
into it by name, and a rule that is put into it takes the place of the one of its name, seen or not.
So a hidden rule that has the name of a required rule is not safe.

- `Provisioning.onResourceGroup`: an operator's run against a resource group.
- `Updated`, `updated_of_runOn_ensureGroup`: **everything that making sure of a group that is there can
  do to it**, whatever fails.
- `Spared`: no required rule of the hidden rule's name asks for anything.
- `hidden_rule_stays_iff`: **which hidden rules stay**. A rule that is spared stays whatever fails, and
  after a run that ends well no other one is there.
-/

namespace NodeLedger.Provisioning

open Cloud Cloud.Nsg Cloud.Nsg.ResourceGroup Policy

/-! ## Making sure of the group -/

/-- An operator's run against a resource group of Azure. -/
def onResourceGroup (others : Client ResourceGroup) (resources : String) (location : Option String)
    (ledgerPath : CodeText) (requester : Except Fault String) : Provisioning ResourceGroup where
  provider := Nsg.provider (ResourceGroup.client others) resources location
  ledgerPath := ledgerPath
  ownAddress := Job.ofExcept requester

/-- The changes that a run makes, if nothing fails. Without the operator's address there are none. -/
def planned (requester : Except Fault String) (network : String) (rules : List NsgRule) :
    List SecurityRule :=
  match requester with
  | .ok address => (Visit.mk address network).changes azureRules (visible rules)
  | .error _ => []

/-- No required rule of a hidden rule's name asks for anything: the network that it is for is let in
already, or the operator's address is not known. -/
def Spared (requester : Except Fault String) (network : String) (rules : List NsgRule)
    (rule : NsgRule) : Prop :=
  ∀ address, requester = .ok address →
    ∀ required ∈ azureRules, rule.name = some required.name →
      Vouched (visible rules) address network required

/-- A resource group after changes of a plan, its first ones, have been made, and perhaps one more has
failed. -/
structure Updated (plan : List SecurityRule) (name : String) (rules : List NsgRule)
    (made : List SecurityRule) (failed : Option SecurityRule)
    (before after : Host ResourceGroup) : Prop where
  asked : made ++ failed.toList <+: plan
  group : after.outside.group = some (name, putRules rules made)
  calls : after.outside.calls
    = before.outside.calls ++ (made ++ failed.toList).map NsgRule.ofRule

section

variable {others : Client ResourceGroup} {resources : String} {location : Option String}
  {path : CodeText} {cluster network name : String} {requester : Except Fault String} {visit : Visit}
  {host middle after : Host ResourceGroup} {plan made : List SecurityRule}
  {failed : Option SecurityRule} {rules : List NsgRule} {rule : NsgRule}

/-- A group to which nothing has been done. -/
theorem Updated.of_unchanged (hgroup : host.outside.group = some (name, rules))
    (h : Unchanged host after) (plan : List SecurityRule) :
    Updated plan name rules [] none host after where
  asked := List.nil_prefix
  group := h.group.trans hgroup
  calls := h.calls.trans (List.append_nil _).symm

theorem Updated.after_unchanged (h : Unchanged host middle)
    (h' : Updated plan name rules made failed middle after) :
    Updated plan name rules made failed host after where
  asked := h'.asked
  group := h'.group
  calls := by rw [h'.calls, h.calls]

/-- Applying a plan makes its first changes, and all of them if it ends well. -/
theorem updated_of_runOn_apply {outcome : Except Fault Unit}
    (hgroup : host.outside.group = some (name, rules))
    (h : (Nsg.apply (client others) resources (some (CodeText.ofString name)) plan).runOn host
      = (outcome, after)) :
    ∃ made failed, Updated plan name rules made failed host after ∧
      (outcome = .ok () → made = plan) := by
  obtain ⟨log, faults, hrun⟩ := runOn_apply others resources hgroup plan
  rw [h] at hrun
  cases hrun
  have hasked : (course plan host.outside.faults).asked
      = (course plan host.outside.faults).made
        ++ ((course plan host.outside.faults).failed.map (·.1)).toList := by
    rw [Course.asked, Option.toList_map]
  refine ⟨(course plan host.outside.faults).made,
    (course plan host.outside.faults).failed.map (·.1), ⟨?_, rfl, ?_⟩, ?_⟩
  · rw [← hasked]
    exact asked_course_isPrefix _ _
  · rw [← hasked]
  · intro hok
    refine made_course_of_not_failed ?_
    cases hfailed : (course plan host.outside.faults).failed with
    | none => rfl
    | some failure =>
      rw [Course.outcome, hfailed] at hok
      cases hok

/-- Applying a plan, unless it is empty, makes its first changes, and all of them if it ends well. -/
theorem updated_of_runOn_applyChanges {current : List SecurityRule} {outcome : Except Fault Unit}
    (hgroup : host.outside.group = some (name, rules))
    (h : ((onResourceGroup others resources location path requester).applyChanges
      (some (CodeText.ofString name)) plan current).runOn host = (outcome, after)) :
    ∃ made failed, Updated plan name rules made failed host after ∧
      (outcome = .ok () → made = plan) := by
  rw [applyChanges] at h
  split at h
  · rename_i hempty
    have hlogged := unchanged_of_runOn_log h
    exact ⟨[], none, .of_unchanged hgroup hlogged plan, fun _ => (List.isEmpty_iff.1 hempty).symm⟩
  · obtain ⟨fault, hlog, -⟩ | ⟨_, logged, hlog, hmade⟩ := Job.cases_of_runOn_bind h
    · cases hlog
    · have hlogged := unchanged_of_runOn_log hlog
      obtain ⟨made, failed, hupdated, hall⟩ :=
        updated_of_runOn_apply (hlogged.group.trans hgroup) hmade
      exact ⟨made, failed, hupdated.after_unchanged hlogged, hall⟩

/-- Asking a group that is there to conform makes the first changes of the visit, and all of them if it
ends well. -/
theorem updated_of_runOn_conform {outcome : Except Fault Unit}
    (hgroup : host.outside.group = some (name, rules))
    (h : ((onResourceGroup others resources location path requester).conform
      (some (CodeText.ofString name)) visit).runOn host = (outcome, after)) :
    ∃ made failed,
      Updated (visit.changes azureRules (visible rules)) name rules made failed host after ∧
        (outcome = .ok () → made = visit.changes azureRules (visible rules)) := by
  obtain ⟨fault, hrules, rfl⟩ | ⟨current, listed, hrules, hnext⟩ := Job.cases_of_runOn_bind h
  · obtain ⟨hlisted, -⟩ := cases_of_runOn_rules hgroup hrules
    exact ⟨[], none, .of_unchanged hgroup hlisted _, nofun⟩
  · obtain ⟨hlisted, ⟨_, hfault⟩ | hcurrent⟩ := cases_of_runOn_rules hgroup hrules
    · cases hfault
    · cases hcurrent
      obtain ⟨made, failed, hupdated, hall⟩ :=
        updated_of_runOn_applyChanges (hlisted.group.trans hgroup) hnext
      exact ⟨made, failed, hupdated.after_unchanged hlisted, hall⟩

/-- **Everything that making sure of a group that is there can do to it**, whatever fails. It makes the
first changes of its plan; if it ends well, then all of them, and the operator's address was known. -/
theorem updated_of_runOn_ensureGroup [Json.Nesting] {outcome : Except Fault GroupId}
    (hgroup : host.outside.group = some (groupName cluster, rules))
    (h : ((onResourceGroup others resources location path requester).ensureGroup cluster
      network).runOn host = (outcome, after)) :
    ∃ made failed,
      Updated (planned requester network rules) (groupName cluster) rules made failed host after ∧
        ∀ group, outcome = .ok group →
          (∃ address, requester = .ok address) ∧ made = planned requester network rules := by
  rw [ensureGroup_eq] at h
  obtain ⟨fault, haddress, rfl⟩ | ⟨address, middle, haddress, hnext⟩ := Job.cases_of_runOn_bind h
  · -- Without the operator's address nothing is asked for.
    cases haddress
    exact ⟨[], none, .of_unchanged hgroup (.refl host) _, nofun⟩
  cases haddress
  obtain ⟨fault, hfind, rfl⟩ | ⟨found, sought, hfind, hnext⟩ := Job.cases_of_runOn_bind hnext
  · exact ⟨[], none, .of_unchanged hgroup (cases_of_runOn_find hgroup hfind).1 _, nofun⟩
  obtain ⟨hsought, ⟨_, hfault⟩ | hfound⟩ := cases_of_runOn_find hgroup hfind
  · cases hfault
  cases hfound
  -- The group was found, so none is created.
  obtain ⟨fault, hcreate, -⟩ | ⟨group, ready, hcreate, hnext⟩ := Job.cases_of_runOn_bind hnext
  · cases hcreate
  cases hcreate
  have hthere : sought.outside.group = some (groupName cluster, rules) := hsought.group.trans hgroup
  obtain ⟨fault, hconform, rfl⟩ | ⟨_, last, hconform, hrecord⟩ := Job.cases_of_runOn_bind hnext
  · obtain ⟨made, failed, hupdated, -⟩ := updated_of_runOn_conform hthere hconform
    exact ⟨made, failed, hupdated.after_unchanged hsought, nofun⟩
  · obtain ⟨made, failed, hupdated, hall⟩ := updated_of_runOn_conform hthere hconform
    have hlast : after.outside = last.outside := outside_of_runOn_recordNew hrecord
    have hdone := hupdated.after_unchanged hsought
    refine ⟨made, failed, ⟨hdone.asked, ?_, ?_⟩, fun _ _ => ⟨⟨address, rfl⟩, hall rfl⟩⟩
    · rw [hlast]
      exact hdone.group
    · rw [hlast]
      exact hdone.calls

/-! ## Hidden rules -/

/-- A change of a plan has ports. -/
theorem ports_ne_of_mem_planned {change : SecurityRule}
    (h : change ∈ planned requester network rules) : change.ports ≠ "" := by
  have hports : ∀ required ∈ azureRules, required.ports ≠ "" := by decide
  cases requester with
  | error fault => cases h
  | ok address =>
    obtain ⟨required, hmem, hasked⟩ := mem_reconcile_iff.1 h
    rw [(opening_of_changeFor hasked).2]
    exact hports required hmem

/-- A hidden rule is spared if no change of the plan has its name. -/
theorem spared_iff (hnames : (rules.map (·.name)).Nodup) (hrule : rule ∈ rules)
    (hhidden : rule.rule? = none) :
    Spared requester network rules rule ↔
      ∀ change ∈ planned requester network rules, change.name ≠ rule.name := by
  have hpolicy : (azureRules.map (·.name)).Nodup := by decide
  cases requester with
  | error fault => exact ⟨fun _ => List.forall_mem_nil _, fun _ _ => nofun⟩
  | ok address =>
    have hvouched : ∀ required ∈ azureRules, rule.name = some required.name →
        ((∀ change ∈ planned (.ok address) network rules, change.name ≠ rule.name) ↔
          Vouched (visible rules) address network required) := by
      intro required hmem hname
      rw [hname]
      exact forall_name_ne_iff_vouched hpolicy hmem
        (findByName_visible_of_hidden hnames hrule hhidden hname)
    constructor
    · intro hspared change hchange hname
      obtain ⟨required, hmem, hasked⟩ := mem_reconcile_iff.1 hchange
      have hsame : rule.name = some required.name := hname.symm.trans (name_of_changeFor hasked)
      exact (hvouched required hmem hsame).2 (hspared address rfl required hmem hsame) change hchange
        hname
    · intro hother _ haddress required hmem hname
      cases haddress
      exact (hvouched required hmem hname).1 hother

/-- **Which hidden rules stay** when the group is made sure of. A hidden rule stays exactly if no change
that was made has its name. So it stays whatever fails if it is spared; and if nothing fails, it stays
only then. -/
theorem hidden_rule_stays_iff [Json.Nesting] {outcome : Except Fault GroupId}
    (hnames : (rules.map (·.name)).Nodup)
    (hgroup : host.outside.group = some (groupName cluster, rules)) (hrule : rule ∈ rules)
    (hhidden : rule.rule? = none)
    (h : ((onResourceGroup others resources location path requester).ensureGroup cluster
      network).runOn host = (outcome, after)) :
    ∃ made failed,
      Updated (planned requester network rules) (groupName cluster) rules made failed host after ∧
        (rule ∈ putRules rules made ↔ ∀ change ∈ made, change.name ≠ rule.name) ∧
        (Spared requester network rules rule → rule ∈ putRules rules made) ∧
        (∀ group, outcome = .ok group →
          (rule ∈ putRules rules made ↔ Spared requester network rules rule)) := by
  obtain ⟨made, failed, hupdated, hall⟩ := updated_of_runOn_ensureGroup hgroup h
  have hmade : made <+: planned requester network rules :=
    (List.prefix_append _ _).trans hupdated.asked
  have hstays : rule ∈ putRules rules made ↔ ∀ change ∈ made, change.name ≠ rule.name := by
    rw [mem_putRules_iff hnames (fun change hchange => ports_ne_of_mem_planned (hmade.subset hchange))
      hhidden]
    exact and_iff_right hrule
  refine ⟨made, failed, hupdated, hstays, ?_, ?_⟩
  · intro hspared
    have hother := (spared_iff hnames hrule hhidden).1 hspared
    exact hstays.2 fun change hchange => hother change (hmade.subset hchange)
  · intro group hok
    rw [hstays, spared_iff hnames hrule hhidden, (hall group hok).2]

attribute [local instance] Json.Nesting.usual

/-- The denial of one source stays, though an update fails midway. -/
theorem quarantine_stays :
    let fault := OutsideFault.response .general "conflict"
    let host : Host ResourceGroup := ⟨⟨[], []⟩, [],
      ⟨some ("cluster-nsg", interleaved), [none, none, none, none, none, some fault], []⟩⟩
    let run := ((onResourceGroup locked "workers" none "ledger.json" (.ok "203.0.113.7")).ensureGroup
      "cluster" "10.0.0.0/16").runOn host
    (interleaved.map (·.name)).Nodup ∧ (denial "quarantine" "22").rule? = none ∧
      run.1 = .error (.provider (.ruleUpdate "cluster-nsg" "RDP" fault)) ∧
      ∃ left, run.2.outside.group = some ("cluster-nsg", left) ∧ denial "quarantine" "22" ∈ left := by
  intro fault host run
  have hnames : (interleaved.map (·.name)).Nodup := by decide
  have hrule : denial "quarantine" "22" ∈ interleaved := List.mem_cons_self
  have hhidden : (denial "quarantine" "22").rule? = none := by decide +kernel
  have hspared : Spared (.ok "203.0.113.7") "10.0.0.0/16" interleaved (denial "quarantine" "22") := by
    have hother : ∀ required ∈ azureRules, (denial "quarantine" "22").name ≠ some required.name := by
      decide
    intro _ _ required hmem hname
    exact absurd hname (hother required hmem)
  refine ⟨hnames, hhidden, by decide +kernel, ?_⟩
  obtain ⟨made, failed, hupdated, -, hstays, -⟩ :=
    hidden_rule_stays_iff hnames (show host.outside.group = _ from rfl) hrule hhidden
      (show run = (run.1, run.2) from rfl)
  exact ⟨_, hupdated.group, hstays hspared⟩

/-- All that the policy requires is there but SSH, which a denial has the name of. The denial is lost,
and nothing fails. -/
theorem denial_of_ssh_lost :
    let rules := denial "SSH" "22" :: [winRMRule, rdpRule, vnetRule].map fun required =>
      NsgRule.ofRule (required.newRule (required.source "203.0.113.7" "10.0.0.0/16"))
    let host : Host ResourceGroup := ⟨⟨[], []⟩, [], ⟨some ("infra-nsg", rules), [], []⟩⟩
    let run := ((onResourceGroup locked "workers" none "ledger.json" (.ok "203.0.113.7")).ensureGroup
      "infra" "10.0.0.0/16").runOn host
    (rules.map (·.name)).Nodup ∧ (denial "SSH" "22").rule? = none ∧
      run.1 = .ok (some (CodeText.ofString "infra-nsg")) ∧
      denial "SSH" "22" ∉ run.2.outside.group.elim [] (·.2) := by
  decide +kernel

end

end NodeLedger.Provisioning
