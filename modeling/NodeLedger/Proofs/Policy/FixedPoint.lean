import NodeLedger.Proofs.Policy.Pass

/-!
# When a second pass finds nothing to do

The changes of a pass are all worked out on the rules as observed. A required network may be vouched
for by a rule of any name; if that name is a required one too, the same pass may turn the rule into
a TCP rule, and nothing admits the network any more. Only the next pass notices.

- `Undisturbed`: a rule that no change of a visit goes to.
- `admitsNetwork_pass_iff`: what admits a network after a pass.
- `changes_pass_eq_nil_iff`: **a second pass is empty exactly when every required network that was
  only vouched for keeps a rule that vouches for it**.
- `second_pass_not_empty`: a group in which it does not.
-/

namespace NodeLedger.Policy

/-- The rule at a position that no change of a visit goes to. -/
def Undisturbed (policy : List RequiredRule) (rules : List SecurityRule) (visit : Visit)
    (i : Nat) : Prop :=
  ∀ change ∈ visit.changes policy rules, firstAt rules change.name ≠ some i

section

variable {policy : List RequiredRule} {rules : List SecurityRule} {visit : Visit}

/-- A network is admitted after a pass by an undisturbed rule or by a change. -/
theorem admitsNetwork_pass_iff (h : (policy.map (·.name)).Nodup) {network : String} :
    (∃ rule ∈ pass policy rules visit, rule.admitsNetwork network = true) ↔
      (∃ i rule, rules[i]? = some rule ∧ rule.admitsNetwork network = true ∧
          Undisturbed policy rules visit i) ∨
        ∃ change ∈ visit.changes policy rules, change.admitsNetwork network = true := by
  have hnames : ((visit.changes policy rules).map (·.name)).Nodup := nodup_names_reconcile h
  have hundisturbed : ∀ i, changeAt rules (visit.changes policy rules) i = none ↔
      Undisturbed policy rules visit i := by
    intro i
    rw [changeAt, List.find?_eq_none]
    exact forall₂_congr fun _ _ => by rw [decide_eq_true_iff]
  constructor
  · rintro ⟨rule, hrule, hadmits⟩
    rcases (mem_applyByName_iff hnames).1 hrule with hmade | ⟨i, hi, hfree⟩
    · exact .inr ⟨rule, hmade, hadmits⟩
    · exact .inl ⟨i, rule, hi, hadmits, (hundisturbed i).1 hfree⟩
  · rintro (⟨i, rule, hi, hadmits, hfree⟩ | ⟨change, hmade, hadmits⟩)
    · exact ⟨rule, (mem_applyByName_iff hnames).2 (.inr ⟨i, hi, (hundisturbed i).2 hfree⟩), hadmits⟩
    · exact ⟨change, (mem_applyByName_iff hnames).2 (.inl hmade), hadmits⟩

/-- A required rule asks for something in the second pass exactly when the first pass left it alone
for a rule that vouched for its network, and nothing does so afterwards. -/
theorem changeFor_pass_eq_none_iff (h : (policy.map (·.name)).Nodup) {required : RequiredRule}
    (hmem : required ∈ policy) :
    changeFor (pass policy rules visit) visit.requester visit.network required = none ↔
      (Vouched rules visit.requester visit.network required →
        ¬ Met rules visit.requester visit.network required →
          Vouched (pass policy rules visit) visit.requester visit.network required) := by
  rw [changeFor_eq_none_iff, met_pass_iff h hmem, Ne, changeFor_eq_none_iff]
  constructor
  · rintro (hafter | hasked | hmet) hvouched hunmet
    · exact hafter
    · exact absurd (.inl hvouched) hasked
    · exact absurd hmet hunmet
  · -- Whatever is neither vouched for nor met was asked for, and is met after the pass.
    intro hkeeps
    by_cases hmet : Met rules visit.requester visit.network required
    · exact .inr (.inr hmet)
    · by_cases hvouched : Vouched rules visit.requester visit.network required
      · exact .inl (hkeeps hvouched hmet)
      · exact .inr (.inl (not_or.2 ⟨hvouched, hmet⟩))

/-- **A second pass is empty exactly when no required network has lost what vouched for it**: every
network that some rule admits, and whose own rule is not as required, is still admitted by a rule
that the first pass does not touch, or by one of its changes. -/
theorem changes_pass_eq_nil_iff (h : (policy.map (·.name)).Nodup) (rules : List SecurityRule)
    (visit : Visit) :
    visit.changes policy (pass policy rules visit) = [] ↔
      ∀ required ∈ policy, Vouched rules visit.requester visit.network required →
        ¬ Met rules visit.requester visit.network required →
          (∃ i rule, rules[i]? = some rule ∧
              rule.admitsNetwork (required.source visit.requester visit.network) = true ∧
              Undisturbed policy rules visit i) ∨
            ∃ change ∈ visit.changes policy rules,
              change.admitsNetwork (required.source visit.requester visit.network) = true := by
  rw [Visit.changes, reconcile, List.filterMap_eq_nil_iff]
  refine forall₂_congr fun required hmem => ?_
  rw [changeFor_pass_eq_none_iff h hmem]
  refine forall₂_congr fun hvouched _ => ?_
  rw [← admitsNetwork_pass_iff h, Vouched]
  exact and_iff_right hvouched.1

end

/-- A rule that vouches for the network under a name of its own keeps the second pass empty. -/
theorem second_pass_empty_beside_own_name :
    (ec2Rules.map (·.name)).Nodup ∧
      (⟨"203.0.113.7", "10.0.0.0/16"⟩ : Visit).changes ec2Rules
        (pass ec2Rules [⟨some "allow-cluster", .all, ["10.0.0.0/16"], "*", none⟩]
          ⟨"203.0.113.7", "10.0.0.0/16"⟩) = [] := by
  refine ⟨by decide, (changes_pass_eq_nil_iff (by decide) _ _).2 ?_⟩
  rintro required - ⟨-, rule, hrule, hadmits⟩ -
  obtain rfl := List.mem_singleton.1 hrule
  refine .inl ⟨0, _, rfl, hadmits, ?_⟩
  show ∀ change ∈ _, _
  decide +kernel

/-- The only rule that vouches for the network is named like a required one: the first pass makes it
a TCP rule, and the second one has to open the network again. -/
theorem second_pass_not_empty :
    (ec2Rules.map (·.name)).Nodup ∧
      (⟨"203.0.113.7", "10.0.0.0/16"⟩ : Visit).changes ec2Rules
        (pass ec2Rules [⟨some "WinRM", .all, ["10.0.0.0/16"], "*", none⟩]
          ⟨"203.0.113.7", "10.0.0.0/16"⟩) = [vpcRule.newRule "10.0.0.0/16"] := by
  decide +kernel

end NodeLedger.Policy
