import NodeLedger.Cloud.Nsg.Rule
import NodeLedger.Proofs.Policy.Application

/-!
# What the policy sees of a network security group

The policy sees the rules of a group that let TCP or all traffic in. The others (outbound rules,
rules that deny, rules for other protocols) are hidden from it. Azure knows no such difference: a
rule that is put into the group takes the place of the rule of its name, whatever that one is.

- `visible`: what the policy sees of the rules of a group.
- `putRule`, `putRules`: the rules after a rule has been put among them, or what changes say.
- `visible_putRules`: **as long as no hidden rule has the name of a change, what is put into a group
  shows as changes applied by name**.
- `mem_putRules_iff`: **a hidden rule stays exactly if no change has its name**.
-/

namespace NodeLedger.Cloud.Nsg

open Policy

/-- What the policy sees of the rules of a group. -/
def visible (rules : List NsgRule) : List SecurityRule :=
  rules.filterMap NsgRule.rule?

/-- The rules after a rule has been put among them: it replaces the first rule of its name, or comes
last. -/
def putRule (rules : List NsgRule) (new : NsgRule) : List NsgRule :=
  upsert (·.name) rules new

/-- The rules after all that changes say has been put among them, one after the other. -/
def putRules (rules : List NsgRule) (changes : List SecurityRule) : List NsgRule :=
  changes.foldl (fun rules change => putRule rules (NsgRule.ofRule change)) rules

section

variable {rules : List NsgRule} {rule : NsgRule} {change : SecurityRule}
  {changes : List SecurityRule}

@[simp] theorem putRules_cons (rules : List NsgRule) (change : SecurityRule)
    (changes : List SecurityRule) :
    putRules rules (change :: changes)
      = putRules (putRule rules (NsgRule.ofRule change)) changes := rfl

/-- What a rule shows as has its name. -/
theorem name_of_rule? {seen : SecurityRule} (h : rule.rule? = some seen) : seen.name = rule.name := by
  rw [NsgRule.rule?] at h
  split at h
  · cases h
  · obtain ⟨protocol, -, rfl⟩ := Option.map_eq_some_iff.1 h
    rfl

/-- Where names are distinct, nothing shows under the name of a hidden rule. -/
theorem findByName_visible_of_hidden {name : String} (hnames : (rules.map (·.name)).Nodup)
    (hrule : rule ∈ rules) (hhidden : rule.rule? = none) (hname : rule.name = some name) :
    findByName (visible rules) name = none := by
  rw [findByName, List.find?_eq_none]
  intro seen hseen hsame
  obtain ⟨other, hother, hshown⟩ := List.mem_filterMap.1 hseen
  have hothername : other.name = rule.name := by
    rw [← name_of_rule? hshown, hname]
    exact beq_iff_eq.1 hsame
  rw [List.inj_on_of_nodup_map hnames hother hrule hothername, hhidden] at hshown
  cases hshown

/-! ## Rules put into a group -/

/-- **A change that is put into a group shows as a change applied by name**, if no hidden rule has
its name. -/
theorem visible_putRule (hports : change.ports ≠ "")
    (hvisible : ∀ rule ∈ rules, rule.rule? = none → change.name ≠ rule.name) :
    visible (putRule rules (NsgRule.ofRule change)) = applyChange (visible rules) change := by
  rw [applyChange_eq_upsert]
  refine filterMap_upsert (fun rule seen hseen => name_of_rule? hseen) (NsgRule.rule?_ofRule hports) ?_
  intro rule hrule hhidden
  exact (hvisible rule hrule hhidden).symm

/-- **What is put into a group shows as changes applied by name**, as long as no hidden rule has the
name of a change. -/
theorem visible_putRules (hports : ∀ change ∈ changes, change.ports ≠ "")
    (hvisible : ∀ rule ∈ rules, rule.rule? = none → ∀ change ∈ changes, change.name ≠ rule.name) :
    visible (putRules rules changes) = applyByName (visible rules) changes := by
  induction changes generalizing rules with
  | nil => rfl
  | cons change changes ih =>
    obtain ⟨hshown, hrest⟩ := List.forall_mem_cons.1 hports
    have hfirst : visible (putRule rules (NsgRule.ofRule change)) = applyChange (visible rules) change :=
      visible_putRule hshown fun rule hrule hhidden => hvisible rule hrule hhidden change List.mem_cons_self
    rw [putRules_cons, ih hrest, hfirst]
    · rfl
    · intro rule hrule hhidden other hother
      rcases mem_of_mem_upsert hrule with hthere | rfl
      · exact hvisible rule hthere hhidden other (List.mem_cons_of_mem _ hother)
      · rw [NsgRule.rule?_ofRule hshown] at hhidden
        cases hhidden

/-- **A hidden rule stays exactly if no change has its name.** -/
theorem mem_putRules_iff (hnames : (rules.map (·.name)).Nodup)
    (hports : ∀ change ∈ changes, change.ports ≠ "") (hhidden : rule.rule? = none) :
    rule ∈ putRules rules changes ↔
      rule ∈ rules ∧ ∀ change ∈ changes, change.name ≠ rule.name := by
  induction changes generalizing rules with
  | nil => exact ⟨fun h => ⟨h, List.forall_mem_nil _⟩, fun h => h.1⟩
  | cons change changes ih =>
    obtain ⟨hshown, hrest⟩ := List.forall_mem_cons.1 hports
    have hne : rule ≠ NsgRule.ofRule change := by
      rintro rfl
      rw [NsgRule.rule?_ofRule hshown] at hhidden
      cases hhidden
    have hput : rule ∈ putRule rules (NsgRule.ofRule change) ↔
        rule ∈ rules ∧ rule.name ≠ change.name := mem_upsert_iff hnames hne
    have hdistinct : ((putRule rules (NsgRule.ofRule change)).map (·.name)).Nodup :=
      nodup_keys_upsert hnames _
    rw [putRules_cons, ih hdistinct hrest, hput, ne_comm, List.forall_mem_cons, and_assoc]

end

end NodeLedger.Cloud.Nsg
