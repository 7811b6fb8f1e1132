import NodeLedger.Proofs.Address.Canonical
import NodeLedger.Proofs.Policy.Pass

/-!
# Access over many visits

Operators come and go, each with another address, and every visit may correct the rules that earlier
visits have made. What an operator has been granted stays granted all the same.

- `SecurityRule.GrowsInto`, `Preserves`: what may become of a rule, and of all rules. `Preserves` is
  reflexive and transitive, and every pass preserves (`preserves_pass`), so every run does.
- `SecurityRule.ExtendsTo`: one visit adds at most one source to a rule, and only a new one.
- `Admits`: the first rule of a required name lets an operator in. A visit establishes it
  (`admits_pass_self`), and later visits keep it (`Admits.pass`).
- `access_over_visits`: **no operator's access is lost over any run of visits**.
-/

namespace NodeLedger.Policy

/-! ## What may become of rules -/

/-- The rule keeps its name, its sources and a priority that it has. -/
structure SecurityRule.GrowsInto (rule later : SecurityRule) : Prop where
  name : later.name = rule.name
  sources : rule.sources <+: later.sources
  priority : ∀ p, rule.priority = some p → later.priority = some p

/-- The rule at each position grows, and stays as it is unless it is the first rule of a required
name. -/
def Preserves (policy : List RequiredRule) (before after : List SecurityRule) : Prop :=
  ∀ i rule, before[i]? = some rule → ∃ later, after[i]? = some later ∧ rule.GrowsInto later ∧
    ((∀ required ∈ policy, firstAt before (some required.name) ≠ some i) → later = rule)

/-- The rule keeps its sources, and at most one is added at the end. An added source has a canonical
form that is not there yet, neither as it stands nor under another spelling. -/
def SecurityRule.ExtendsTo (rule later : SecurityRule) : Prop :=
  later.sources = rule.sources ∨
    ∃ source, later.sources = rule.sources ++ [source] ∧
      Address.canonical source ∉ rule.sources ∧
      Address.canonical source ∉ rule.sources.map Address.canonical

/-- The source of the required rule is the operator's address. -/
def RequiredRule.FollowsOperator (required : RequiredRule) : Prop :=
  required.scope = .operator ∧ (required.fixedSource = none ∨ required.fixedSource = some "")

/-- The first rule of the required name has the protocol and the ports that are required, and lets
the operator in. -/
def Admits (rules : List SecurityRule) (required : RequiredRule) (requester : String) : Prop :=
  ∃ rule, findByName rules required.name = some rule ∧ rule.protocol = required.protocol ∧
    samePorts rule.ports required.ports = true ∧ rule.allows requester = true

section

variable {rule mid later : SecurityRule} {required : RequiredRule}

theorem SecurityRule.GrowsInto.refl (rule : SecurityRule) : rule.GrowsInto rule :=
  ⟨rfl, List.prefix_rfl, fun _ h => h⟩

theorem SecurityRule.GrowsInto.trans (h : rule.GrowsInto mid) (h' : mid.GrowsInto later) :
    rule.GrowsInto later where
  name := h'.name.trans h.name
  sources := h.sources.trans h'.sources
  priority p hp := h'.priority p (h.priority p hp)

/-- An updated rule has grown. -/
theorem SecurityRule.growsInto_updatedRule (rule : SecurityRule) (required : RequiredRule)
    (source : String) : rule.GrowsInto (required.updatedRule rule source) where
  name := rfl
  sources := rule.sources_isPrefix_withSource source
  priority p hp := by rw [RequiredRule.updatedRule, hp, Option.getD_some]

@[simp] theorem SecurityRule.allows_canonical (rule : SecurityRule) (source : String) :
    rule.allows (Address.canonical source) = rule.allows source := by
  rw [SecurityRule.allows, Address.canonical_canonical, SecurityRule.allows]

/-- A rule is extended by a source only when it does not admit that source. -/
theorem SecurityRule.extendsTo_updatedRule (rule : SecurityRule) (required : RequiredRule)
    (source : String) : rule.ExtendsTo (required.updatedRule rule source) := by
  by_cases hallows : rule.allows source = true
  · refine .inl ?_
    rw [RequiredRule.updatedRule, SecurityRule.withSource, if_pos hallows]
  · have hspelled : Address.canonical source ∉ rule.sources.map Address.canonical :=
      mt SecurityRule.allows_iff_mem.2 hallows
    refine .inr ⟨source, ?_, fun hmem => hspelled ?_, hspelled⟩
    · rw [RequiredRule.updatedRule, SecurityRule.withSource, if_neg hallows]
    · exact List.mem_map.2 ⟨_, hmem, Address.canonical_canonical source⟩

/-- What a required rule asks for is canonical text. -/
@[simp] theorem RequiredRule.canonical_source (required : RequiredRule)
    (requester network : String) :
    Address.canonical (required.source requester network)
      = required.source requester network := by
  unfold RequiredRule.source
  split
  · exact Address.canonical_canonical _
  · split
    · exact Address.canonical_canonical _
    · exact Address.canonical_canonical _

theorem RequiredRule.FollowsOperator.source (h : required.FollowsOperator)
    (requester network : String) :
    required.source requester network = Address.canonical requester := by
  obtain ⟨hscope, hfixed⟩ := h
  have hnone : required.fixedSource.filter (· != "") = none := by
    rcases hfixed with hfixed | hfixed
    · rw [hfixed, Option.filter_none]
    · rw [hfixed]
      rfl
  simp only [RequiredRule.source, hnone, hscope]

end

section

variable {policy : List RequiredRule} {before mid after : List SecurityRule}

/-! ## Rules preserved -/

theorem Preserves.refl (policy : List RequiredRule) (rules : List SecurityRule) :
    Preserves policy rules rules :=
  fun _ rule hrule => ⟨rule, hrule, .refl rule, fun _ => rfl⟩

/-- A first rule of its name was so before, if it was there. -/
theorem Preserves.firstAt (h : Preserves policy before after) {name : Option String} {i : Nat}
    (hi : i < before.length) (hfirst : firstAt after name = some i) :
    firstAt before name = some i := by
  obtain ⟨⟨later, hlater, hname⟩, hearlier⟩ := firstAt_eq_some_iff.1 hfirst
  refine firstAt_eq_some_iff.2 ⟨⟨before[i], List.getElem?_eq_getElem hi, ?_⟩, ?_⟩
  · obtain ⟨_, hsome, hgrows, -⟩ := h i _ (List.getElem?_eq_getElem hi)
    rw [hlater] at hsome
    cases hsome
    exact hgrows.name.symm.trans hname
  · intro j hj rule hrule hsame
    obtain ⟨other, hother, hgrows, -⟩ := h j rule hrule
    exact hearlier j hj other hother (hgrows.name.trans hsame)

theorem Preserves.trans (h : Preserves policy before mid) (h' : Preserves policy mid after) :
    Preserves policy before after := by
  intro i rule hrule
  obtain ⟨middle, hmiddle, hgrows, hkept⟩ := h i rule hrule
  obtain ⟨later, hlater, hgrows', hkept'⟩ := h' i middle hmiddle
  refine ⟨later, hlater, hgrows.trans hgrows', fun hnone => ?_⟩
  -- What is first of its name after the first step has been so before it.
  rw [← hkept hnone]
  refine hkept' fun required hmem hfirst => hnone required hmem ?_
  exact h.firstAt (List.getElem?_eq_some_iff.1 hrule).1 hfirst

variable {rules : List SecurityRule}

/-- **A pass preserves the rules.** -/
theorem preserves_pass (h : (policy.map (·.name)).Nodup) (rules : List SecurityRule)
    (visit : Visit) : Preserves policy rules (pass policy rules visit) := by
  intro i rule hrule
  rcases getElem?_pass h hrule with hsame | ⟨required, hmem, hfirst, hupdated⟩
  · exact ⟨rule, hsame, .refl rule, fun _ => rfl⟩
  · refine ⟨_, hupdated, rule.growsInto_updatedRule required _, fun hnone => ?_⟩
    exact absurd hfirst (hnone required hmem)

theorem preserves_passes (h : (policy.map (·.name)).Nodup) (rules : List SecurityRule)
    (visits : List Visit) : Preserves policy rules (passes policy rules visits) := by
  induction visits generalizing rules with
  | nil => exact Preserves.refl policy rules
  | cons visit visits ih => exact (preserves_pass h rules visit).trans (ih _)

/-- One visit adds at most one source to each rule, and none that is there. -/
theorem extendsTo_pass (h : (policy.map (·.name)).Nodup) (visit : Visit) {i : Nat}
    {rule later : SecurityRule} (hrule : rules[i]? = some rule)
    (hlater : (pass policy rules visit)[i]? = some later) : rule.ExtendsTo later := by
  rcases getElem?_pass h hrule with hsame | ⟨required, -, -, hupdated⟩
  · rw [hlater] at hsame
    cases hsame
    exact .inl rfl
  · rw [hlater] at hupdated
    cases hupdated
    exact rule.extendsTo_updatedRule required _

/-! ## Operators let in -/

variable {required : RequiredRule} {requester : String}

/-- A visit lets its operator in. -/
theorem admits_pass_self (h : (policy.map (·.name)).Nodup) (hmem : required ∈ policy)
    (hfollows : required.FollowsOperator) (rules : List SecurityRule) (visit : Visit) :
    Admits (pass policy rules visit) required visit.requester := by
  have hmet : Met (pass policy rules visit) visit.requester visit.network required :=
    met_pass_of_operator h hmem hfollows.1
  obtain ⟨rule, hfind, hsatisfied⟩ := hmet
  obtain ⟨-, hprotocol, hports, hallows⟩ := RequiredRule.isSatisfiedBy_iff.1 hsatisfied
  rw [hfollows.source, SecurityRule.allows_canonical] at hallows
  exact ⟨rule, hfind, hprotocol, hports, hallows⟩

/-- **A pass takes no operator's access**, whoever makes it. -/
theorem Admits.pass (h : (policy.map (·.name)).Nodup) (hmem : required ∈ policy)
    (hadmits : Admits rules required requester) (visit : Visit) :
    Admits (pass policy rules visit) required requester := by
  obtain ⟨rule, hfind, hprotocol, hports, hallows⟩ := hadmits
  rw [Admits, findByName_pass h hmem, hfind]
  cases hchange : changeFor rules visit.requester visit.network required with
  | none => exact ⟨rule, rfl, hprotocol, hports, hallows⟩
  | some change =>
    -- The change is the operator's rule with its sources kept, whoever asked for it.
    refine ⟨change, rfl, ?_⟩
    obtain ⟨-, -, ⟨hnone, -⟩ | ⟨old, hold, rfl⟩⟩ := changeFor_eq_some_iff.1 hchange
    · rw [hfind] at hnone
      cases hnone
    · rw [hfind] at hold
      cases hold
      refine ⟨rfl, samePorts_refl _, ?_⟩
      exact SecurityRule.allows_of_isPrefix (rule.growsInto_updatedRule required _).sources hallows

theorem Admits.passes (h : (policy.map (·.name)).Nodup) (hmem : required ∈ policy)
    (hadmits : Admits rules required requester) (visits : List Visit) :
    Admits (passes policy rules visits) required requester := by
  induction visits generalizing rules with
  | nil => exact hadmits
  | cons visit visits ih => exact ih (hadmits.pass h hmem visit)

/-- **No operator's access is lost over any run of visits.** Between any two states of a run, the
rules are preserved; no visit adds a source that is there; and whoever has visited is let in by
every required rule that follows the operator, in every later state. -/
theorem access_over_visits (h : (policy.map (·.name)).Nodup) (rules : List SecurityRule)
    (earlier later : List Visit) :
    Preserves policy (passes policy rules earlier) (passes policy rules (earlier ++ later)) ∧
      (∀ (visit : Visit) (i : Nat) (before after : SecurityRule),
        (passes policy rules earlier)[i]? = some before →
          (passes policy rules (earlier ++ [visit]))[i]? = some after → before.ExtendsTo after) ∧
      ∀ visit : Visit, ∀ required ∈ policy, required.FollowsOperator →
        Admits (passes policy rules (earlier ++ visit :: later)) required visit.requester := by
  refine ⟨?_, ?_, ?_⟩
  · rw [passes_append]
    exact preserves_passes h _ later
  · intro visit i before after hbefore hafter
    rw [passes_append] at hafter
    exact extendsTo_pass h visit hbefore hafter
  · intro visit required hmem hfollows
    rw [passes_append, passes_cons]
    exact (admits_pass_self h hmem hfollows _ visit).passes h hmem later

end

/-- The first of two operators keeps access beside the second one. -/
theorem access_of_first_operator :
    (ec2Rules.map (·.name)).Nodup ∧ winRMRule ∈ ec2Rules ∧ winRMRule.FollowsOperator ∧
      Admits (passes ec2Rules [⟨some "WinRM", .all, ["192.0.2.1"], "5986", none⟩]
          ([] ++ ⟨"203.0.113.7", "10.0.0.0/16"⟩ :: [⟨"198.51.100.9", "10.0.0.0/16"⟩]))
        winRMRule "203.0.113.7" := by
  have hnames : (ec2Rules.map (·.name)).Nodup := by decide
  have hmem : winRMRule ∈ ec2Rules := by decide
  have hfollows : winRMRule.FollowsOperator := ⟨rfl, .inl rfl⟩
  have haccess := access_over_visits hnames [⟨some "WinRM", .all, ["192.0.2.1"], "5986", none⟩] []
    [⟨"198.51.100.9", "10.0.0.0/16"⟩]
  have hadmits := haccess.2.2 ⟨"203.0.113.7", "10.0.0.0/16"⟩ winRMRule hmem hfollows
  exact ⟨hnames, hmem, hfollows, hadmits⟩

end NodeLedger.Policy
