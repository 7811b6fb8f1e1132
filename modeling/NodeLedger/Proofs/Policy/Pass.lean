import NodeLedger.Proofs.Policy.Application

/-!
# Passes

A pass compares the rules of a group with a policy and applies the changes that come out. Operators
pass over a group one after the other, each with an address of their own.

- `Vouched`, `Met`: the two ways in which a required rule asks for nothing. Either its network is
  admitted by some rule of protocol all, or the first rule of its name is as required.
- `changeFor_eq_none_iff`, `changeFor_eq_some_iff`: everything that a required rule can ask for.
- `Visit`, `pass`, `passes`: an operator's visit, the rules after it, and after several.
- `findByName_pass`, `met_pass_iff`, `getElem?_pass`: a pass seen under one required name and at one
  position.
-/

namespace NodeLedger.Policy

/-! ## Rules as required -/

theorem samePorts_refl (ports : String) : samePorts ports ports = true :=
  beq_self_eq_true _

theorem RequiredRule.isSatisfiedBy_iff {required : RequiredRule} {rule : SecurityRule}
    {source : String} :
    required.isSatisfiedBy rule source = true ↔
      rule.name = some required.name ∧ rule.protocol = required.protocol ∧
        samePorts rule.ports required.ports = true ∧ rule.allows source = true := by
  simp only [RequiredRule.isSatisfiedBy, Bool.and_eq_true, beq_iff_eq, and_assoc]

theorem SecurityRule.admitsNetwork_iff {rule : SecurityRule} {network : String} :
    rule.admitsNetwork network = true ↔ rule.protocol = .all ∧ rule.allows network = true := by
  simp only [SecurityRule.admitsNetwork, Bool.and_eq_true, beq_iff_eq]

theorem SecurityRule.allows_iff {rule : SecurityRule} {source : String} :
    rule.allows source = true ↔
      ∃ s ∈ rule.sources, Address.canonical s = Address.canonical source := by
  simp only [SecurityRule.allows, List.any_eq_true, beq_iff_eq]

theorem SecurityRule.allows_iff_mem {rule : SecurityRule} {source : String} :
    rule.allows source = true ↔
      Address.canonical source ∈ rule.sources.map Address.canonical := by
  rw [SecurityRule.allows_iff, List.mem_map]

/-- More sources admit more. -/
theorem SecurityRule.allows_of_isPrefix {rule later : SecurityRule} {source : String}
    (h : rule.sources <+: later.sources) (hallows : rule.allows source = true) :
    later.allows source = true := by
  obtain ⟨s, hs, heq⟩ := SecurityRule.allows_iff.1 hallows
  exact SecurityRule.allows_iff.2 ⟨s, h.subset hs, heq⟩

/-- A new rule is as required. -/
theorem RequiredRule.isSatisfiedBy_newRule (required : RequiredRule) (source : String) :
    required.isSatisfiedBy (required.newRule source) source = true :=
  RequiredRule.isSatisfiedBy_iff.2
    ⟨rfl, rfl, samePorts_refl _, SecurityRule.allows_iff.2 ⟨source, List.mem_singleton_self _, rfl⟩⟩

/-- An updated rule is as required. -/
theorem RequiredRule.isSatisfiedBy_updatedRule {required : RequiredRule} {rule : SecurityRule}
    (hname : rule.name = some required.name) (source : String) :
    required.isSatisfiedBy (required.updatedRule rule source) source = true := by
  have hallows : (required.updatedRule rule source).allows source = true :=
    rule.allows_withSource source
  exact RequiredRule.isSatisfiedBy_iff.2 ⟨hname, rfl, samePorts_refl _, hallows⟩

/-! ## What a required rule asks for -/

/-- A rule of protocol all admits the network that is required. -/
def Vouched (rules : List SecurityRule) (requester network : String) (required : RequiredRule) :
    Prop :=
  required.scope = .network ∧
    ∃ rule ∈ rules, rule.admitsNetwork (required.source requester network) = true

/-- The first rule of the required name is as required. -/
def Met (rules : List SecurityRule) (requester network : String) (required : RequiredRule) :
    Prop :=
  ∃ rule, findByName rules required.name = some rule ∧
    required.isSatisfiedBy rule (required.source requester network) = true

section Changes

variable {rules : List SecurityRule} {requester network : String} {required : RequiredRule}
  {change : SecurityRule}

theorem vouched_iff_any :
    Vouched rules requester network required ↔
      (required.scope == .network
        && rules.any (·.admitsNetwork (required.source requester network))) = true := by
  simp only [Vouched, Bool.and_eq_true, beq_iff_eq, List.any_eq_true]

/-- Nothing vouches for an operator. -/
theorem not_vouched_of_operator (h : required.scope = .operator) :
    ¬ Vouched rules requester network required := by
  rintro ⟨hnetwork, -⟩
  rw [h] at hnetwork
  cases hnetwork

theorem changeFor_of_vouched (h : Vouched rules requester network required) :
    changeFor rules requester network required = none :=
  if_pos (vouched_iff_any.1 h)

/-- What a required rule that is not vouched for asks for depends on the first rule of its name. -/
theorem changeFor_of_not_vouched (h : ¬ Vouched rules requester network required) :
    changeFor rules requester network required =
      match findByName rules required.name with
      | none => some (required.newRule (required.source requester network))
      | some rule =>
        if required.isSatisfiedBy rule (required.source requester network) then none
        else some (required.updatedRule rule (required.source requester network)) :=
  if_neg fun hany => h (vouched_iff_any.2 hany)

/-- A required rule asks for nothing exactly when it is vouched for or met. -/
theorem changeFor_eq_none_iff :
    changeFor rules requester network required = none ↔
      Vouched rules requester network required ∨ Met rules requester network required := by
  by_cases hvouched : Vouched rules requester network required
  · exact ⟨fun _ => .inl hvouched, fun _ => changeFor_of_vouched hvouched⟩
  · rw [or_iff_right hvouched, changeFor_of_not_vouched hvouched, Met]
    cases findByName rules required.name with
    | none => simp
    | some rule => simp

/-- **Everything that a required rule can ask for**: a rule of its own when there is none of its
name, else the first rule of its name corrected and extended. -/
theorem changeFor_eq_some_iff :
    changeFor rules requester network required = some change ↔
      ¬ Vouched rules requester network required ∧ ¬ Met rules requester network required ∧
        ((findByName rules required.name = none ∧
            change = required.newRule (required.source requester network)) ∨
          ∃ rule, findByName rules required.name = some rule ∧
            change = required.updatedRule rule (required.source requester network)) := by
  by_cases hvouched : Vouched rules requester network required
  · rw [changeFor_of_vouched hvouched]
    constructor
    · intro h
      cases h
    · rintro ⟨hnot, -⟩
      exact absurd hvouched hnot
  · rw [changeFor_of_not_vouched hvouched, Met]
    cases findByName rules required.name with
    | none =>
      constructor
      · intro h
        cases h
        refine ⟨hvouched, ?_, .inl ⟨rfl, rfl⟩⟩
        rintro ⟨_, hfind, -⟩
        cases hfind
      · rintro ⟨-, -, ⟨-, rfl⟩ | ⟨_, hfind, -⟩⟩
        · rfl
        · cases hfind
    | some rule =>
      by_cases hmet : required.isSatisfiedBy rule (required.source requester network) = true
      · simp [hmet]
      · simp only [hmet, Bool.false_eq_true, if_false]
        constructor
        · intro h
          cases h
          refine ⟨hvouched, ?_, .inr ⟨rule, rfl, rfl⟩⟩
          rintro ⟨_, hfind, hsatisfied⟩
          cases hfind
          exact hmet hsatisfied
        · rintro ⟨-, -, ⟨hfind, -⟩ | ⟨_, hfind, rfl⟩⟩
          · cases hfind
          · cases hfind
            rfl

theorem name_of_changeFor (h : changeFor rules requester network required = some change) :
    change.name = some required.name := by
  obtain ⟨-, -, ⟨-, rfl⟩ | ⟨rule, hfind, rfl⟩⟩ := changeFor_eq_some_iff.1 h
  · rfl
  · have hname : rule.name = some required.name := name_of_findByName hfind
    exact hname

/-- A change opens what the required rule opens. -/
theorem opening_of_changeFor (h : changeFor rules requester network required = some change) :
    change.protocol = required.protocol ∧ change.ports = required.ports := by
  obtain ⟨-, -, ⟨-, rfl⟩ | ⟨rule, -, rfl⟩⟩ := changeFor_eq_some_iff.1 h
  · exact ⟨rfl, rfl⟩
  · exact ⟨rfl, rfl⟩

/-- A change is what the required rule wants. -/
theorem isSatisfiedBy_of_changeFor (h : changeFor rules requester network required = some change) :
    required.isSatisfiedBy change (required.source requester network) = true := by
  obtain ⟨-, -, ⟨-, rfl⟩ | ⟨rule, hfind, rfl⟩⟩ := changeFor_eq_some_iff.1 h
  · exact required.isSatisfiedBy_newRule _
  · exact RequiredRule.isSatisfiedBy_updatedRule (name_of_findByName hfind) _

variable {policy : List RequiredRule}

theorem mem_reconcile_iff :
    change ∈ reconcile rules policy requester network ↔
      ∃ required ∈ policy, changeFor rules requester network required = some change :=
  List.mem_filterMap

/-- A plan is empty exactly when every required rule is vouched for or met. -/
theorem reconcile_eq_nil_iff :
    reconcile rules policy requester network = [] ↔
      ∀ required ∈ policy,
        Vouched rules requester network required ∨ Met rules requester network required := by
  rw [reconcile, List.filterMap_eq_nil_iff]
  exact forall₂_congr fun _ _ => changeFor_eq_none_iff

/-- Required rules of distinct names ask for changes of distinct names. -/
theorem nodup_names_reconcile (h : (policy.map (·.name)).Nodup) :
    ((reconcile rules policy requester network).map (·.name)).Nodup := by
  induction policy with
  | nil => exact List.nodup_nil
  | cons required policy ih =>
    obtain ⟨hnotin, hrest⟩ := List.nodup_cons.1 h
    rw [reconcile, List.filterMap_cons]
    cases hchange : changeFor rules requester network required with
    | none => exact ih hrest
    | some change =>
      refine List.nodup_cons.2 ⟨fun hmem => ?_, ih hrest⟩
      obtain ⟨other, hother, hname⟩ := List.mem_map.1 hmem
      obtain ⟨p, hp, hpchange⟩ := mem_reconcile_iff.1 hother
      refine hnotin (List.mem_map.2 ⟨p, hp, ?_⟩)
      have hsame : other.name = change.name := hname
      rw [name_of_changeFor hchange, name_of_changeFor hpchange] at hsame
      exact Option.some.inj hsame

/-- A change with the name of a required rule is what that rule asks for. -/
theorem changeFor_of_mem_reconcile (h : (policy.map (·.name)).Nodup) (hmem : required ∈ policy)
    (hchange : change ∈ reconcile rules policy requester network)
    (hname : change.name = some required.name) :
    changeFor rules requester network required = some change := by
  obtain ⟨asking, hasking, hasked⟩ := mem_reconcile_iff.1 hchange
  have hsame : asking.name = required.name :=
    Option.some.inj ((name_of_changeFor hasked).symm.trans hname)
  rw [← List.inj_on_of_nodup_map h hasking hmem hsame]
  exact hasked

/-- A required rule whose name no rule has asks for a change unless it is vouched for. -/
theorem forall_name_ne_iff_vouched (h : (policy.map (·.name)).Nodup) (hmem : required ∈ policy)
    (hnone : findByName rules required.name = none) :
    (∀ change ∈ reconcile rules policy requester network, change.name ≠ some required.name) ↔
      Vouched rules requester network required := by
  constructor
  · intro hother
    by_contra hvouched
    have hasked : changeFor rules requester network required
        = some (required.newRule (required.source requester network)) := by
      rw [changeFor_of_not_vouched hvouched, hnone]
    exact hother _ (mem_reconcile_iff.2 ⟨required, hmem, hasked⟩) (name_of_changeFor hasked)
  · intro hvouched change hchange hname
    have hasked := changeFor_of_mem_reconcile h hmem hchange hname
    rw [changeFor_of_vouched hvouched] at hasked
    cases hasked

end Changes

/-! ## Visits -/

/-- An operator at work on a cluster: the address that the operator has, and the cluster's
network. -/
structure Visit where
  requester : String
  network : String
  deriving Repr, DecidableEq

/-- The changes that a visit makes. -/
def Visit.changes (visit : Visit) (policy : List RequiredRule) (rules : List SecurityRule) :
    List SecurityRule :=
  reconcile rules policy visit.requester visit.network

/-- The rules after a visit: the changes that the policy asks for, applied by name. -/
def pass (policy : List RequiredRule) (rules : List SecurityRule) (visit : Visit) :
    List SecurityRule :=
  applyByName rules (visit.changes policy rules)

/-- The rules after several visits, one after the other. -/
def passes (policy : List RequiredRule) (rules : List SecurityRule) (visits : List Visit) :
    List SecurityRule :=
  visits.foldl (pass policy) rules

section Pass

variable {policy : List RequiredRule} {rules : List SecurityRule} {visit : Visit}
  {required : RequiredRule}

@[simp] theorem passes_cons (visits : List Visit) :
    passes policy rules (visit :: visits) = passes policy (pass policy rules visit) visits := rfl

theorem passes_append (earlier later : List Visit) :
    passes policy rules (earlier ++ later) = passes policy (passes policy rules earlier) later :=
  List.foldl_append ..

/-- A pass shows under a required name as the change that was asked for, if any. -/
theorem findByName_pass (h : (policy.map (·.name)).Nodup) (hmem : required ∈ policy) :
    findByName (pass policy rules visit) required.name
      = (changeFor rules visit.requester visit.network required).or
          (findByName rules required.name) := by
  cases hchange : changeFor rules visit.requester visit.network required with
  | some change =>
    exact findByName_applyByName (nodup_names_reconcile h)
      (mem_reconcile_iff.2 ⟨required, hmem, hchange⟩) (name_of_changeFor hchange) rules
  | none =>
    -- Names are distinct, so a change of this name would have been asked for by this rule.
    refine findByName_applyByName_of_ne (fun other hmade hname => ?_) rules
    have hasked := changeFor_of_mem_reconcile h hmem hmade hname
    rw [hchange] at hasked
    cases hasked

/-- A required rule is met after a pass exactly when it was before or has asked for a change. -/
theorem met_pass_iff (h : (policy.map (·.name)).Nodup) (hmem : required ∈ policy) :
    Met (pass policy rules visit) visit.requester visit.network required ↔
      changeFor rules visit.requester visit.network required ≠ none ∨
        Met rules visit.requester visit.network required := by
  rw [Met, findByName_pass h hmem]
  cases hchange : changeFor rules visit.requester visit.network required with
  | some change => simp [isSatisfiedBy_of_changeFor hchange]
  | none => simp [Met]

/-- After a pass, every required rule for operators is met. -/
theorem met_pass_of_operator (h : (policy.map (·.name)).Nodup) (hmem : required ∈ policy)
    (hscope : required.scope = .operator) :
    Met (pass policy rules visit) visit.requester visit.network required := by
  rw [met_pass_iff h hmem, Ne, changeFor_eq_none_iff, or_iff_right (not_vouched_of_operator hscope)]
  exact (em _).symm

/-- What a pass makes of the rule at a position. -/
theorem getElem?_pass (h : (policy.map (·.name)).Nodup) {i : Nat} {rule : SecurityRule}
    (hi : rules[i]? = some rule) :
    (pass policy rules visit)[i]? = some rule ∨
      ∃ required ∈ policy, firstAt rules (some required.name) = some i ∧
        (pass policy rules visit)[i]?
          = some (required.updatedRule rule
              (required.source visit.requester visit.network)) := by
  have hnames : ((visit.changes policy rules).map (·.name)).Nodup := nodup_names_reconcile h
  have hpass : (pass policy rules visit)[i]?
      = some ((changeAt rules (visit.changes policy rules) i).getD rule) :=
    getElem?_applyByName hnames hi
  rw [hpass]
  cases hat : changeAt rules (visit.changes policy rules) i with
  | none => exact .inl rfl
  | some change =>
    obtain ⟨hmade, hfirst⟩ := (changeAt_eq_some_iff hnames).1 hat
    obtain ⟨required, hmem, hasked⟩ := mem_reconcile_iff.1 hmade
    rw [name_of_changeFor hasked] at hfirst
    have hfind : findByName rules required.name = some rule := by
      rw [findByName_eq_firstAt, hfirst]
      exact hi
    refine .inr ⟨required, hmem, hfirst, ?_⟩
    -- The rule is there, so the change is no new rule.
    obtain ⟨-, -, ⟨hnone, -⟩ | ⟨old, hold, rfl⟩⟩ := changeFor_eq_some_iff.1 hasked
    · rw [hfind] at hnone
      cases hnone
    · rw [hfind] at hold
      cases hold
      rfl

end Pass

end NodeLedger.Policy
