import NodeLedger.Proofs.Policy.Grants

/-!
# Visits that are repeated

The same operator passes over a group again and again. A pass may take away what vouches for a network
(a rule of protocol all becomes a TCP rule), so one pass is not always enough. But a required rule that
has asked for a change has a rule of its own afterwards, and never asks again.

- `Visit.changesIn`: the changes of one round of a repeated visit.
- `Met.pass`, `name_notMem_changesIn_of_met`: **a required rule that is met stays met** and asks for
  nothing in any later round.
- `unsettled`: the networks without a rule of their own. Once the operator is let in, every round that
  changes anything makes their number smaller (`unsettled_pass_lt`), so they bound the number of such
  rounds (`changingRounds_le_unsettled`).
- `rounds_settle`: **repeated visits settle**, with the policy of a cloud after two rounds.
-/

namespace NodeLedger.Policy

instance {rules : List SecurityRule} {requester network : String} {required : RequiredRule} :
    Decidable (Met rules requester network required) :=
  decidable_of_iff ((findByName rules required.name).any fun rule =>
      required.isSatisfiedBy rule (required.source requester network)) <| by
    rw [Option.any_eq_true]
    rfl

/-- The changes of a round of a repeated visit; the first round is round 0. -/
def Visit.changesIn (visit : Visit) (policy : List RequiredRule) (rules : List SecurityRule)
    (round : Nat) : List SecurityRule :=
  visit.changes policy (passes policy rules (List.replicate round visit))

/-- How many of the first rounds of a repeated visit change anything. -/
def Visit.changingRounds (visit : Visit) (policy : List RequiredRule) (rules : List SecurityRule)
    (rounds : Nat) : Nat :=
  (List.range rounds).countP fun round => visit.changesIn policy rules round ≠ []

/-- The required networks that have no rule of their own as required. -/
def unsettled (policy : List RequiredRule) (visit : Visit) (rules : List SecurityRule) : Nat :=
  policy.countP fun required =>
    required.scope = .network ∧ ¬ Met rules visit.requester visit.network required

/-- The operator is let in by every required rule for operators. -/
def OperatorsMet (policy : List RequiredRule) (visit : Visit) (rules : List SecurityRule) : Prop :=
  ∀ required ∈ policy, required.scope = .operator →
    Met rules visit.requester visit.network required

/-- A property that holds of all members another one holds of, and not of one of them, holds of
fewer. -/
theorem countP_lt_countP {α : Type} {p q : α → Bool} {l : List α} {a : α}
    (h : ∀ x ∈ l, p x = true → q x = true) (hmem : a ∈ l) (hp : p a = false) (hq : q a = true) :
    l.countP p < l.countP q := by
  obtain ⟨before, after, rfl⟩ := List.append_of_mem hmem
  have hbefore : before.countP p ≤ before.countP q :=
    List.countP_mono_left fun x hx => h x (List.mem_append_left _ hx)
  have hafter : after.countP p ≤ after.countP q :=
    List.countP_mono_left fun x hx => h x (List.mem_append_right _ (List.mem_cons_of_mem _ hx))
  rw [List.countP_append, List.countP_append, List.countP_cons_of_pos hq,
    List.countP_cons_of_neg (by rw [hp]; exact Bool.false_ne_true)]
  omega

section

variable {policy : List RequiredRule} {rules : List SecurityRule} {visit : Visit}
  {required : RequiredRule}

/-! ## Rounds -/

theorem changesIn_zero : visit.changesIn policy rules 0 = visit.changes policy rules := rfl

/-- The rounds after the first one are those of the rules that it leaves. -/
theorem changesIn_succ (round : Nat) :
    visit.changesIn policy rules (round + 1)
      = visit.changesIn policy (pass policy rules visit) round := rfl

/-- A round that changes nothing leaves the rules as they are. -/
theorem pass_of_changes_eq_nil (h : visit.changes policy rules = []) :
    pass policy rules visit = rules := by
  rw [pass, h]
  rfl

theorem changesIn_succ_of_eq_nil {round : Nat} (h : visit.changesIn policy rules round = []) :
    visit.changesIn policy rules (round + 1) = [] := by
  induction round generalizing rules with
  | zero =>
    have hrules : pass policy rules visit = rules := pass_of_changes_eq_nil h
    rw [changesIn_succ, hrules]
    exact h
  | succ round ih => exact ih h

theorem changesIn_eq_nil_of_le {round later : Nat} (h : visit.changesIn policy rules round = [])
    (hle : round ≤ later) : visit.changesIn policy rules later = [] := by
  induction hle with
  | refl => exact h
  | step _ ih => exact changesIn_succ_of_eq_nil ih

/-! ## Required rules that are met -/

/-- The changes of a visit have the names of the required rules that ask for one. -/
theorem name_mem_changes_iff (h : (policy.map (·.name)).Nodup) (hmem : required ∈ policy) :
    some required.name ∈ (visit.changes policy rules).map (·.name) ↔
      changeFor rules visit.requester visit.network required ≠ none := by
  constructor
  · intro hname
    obtain ⟨change, hchange, heq⟩ := List.mem_map.1 hname
    rw [changeFor_of_mem_reconcile h hmem hchange heq]
    exact Option.some_ne_none change
  · intro hne
    obtain ⟨change, hasked⟩ := Option.ne_none_iff_exists'.1 hne
    exact List.mem_map.2
      ⟨change, mem_reconcile_iff.2 ⟨required, hmem, hasked⟩, name_of_changeFor hasked⟩

/-- A required rule that is met stays met. -/
theorem Met.pass (hmet : Met rules visit.requester visit.network required)
    (h : (policy.map (·.name)).Nodup) (hmem : required ∈ policy) :
    Met (pass policy rules visit) visit.requester visit.network required :=
  (met_pass_iff h hmem).2 (.inr hmet)

/-- **A required rule that is met asks for nothing in any round.** -/
theorem name_notMem_changesIn_of_met (h : (policy.map (·.name)).Nodup) (hmem : required ∈ policy)
    (hmet : Met rules visit.requester visit.network required) (round : Nat) :
    some required.name ∉ (visit.changesIn policy rules round).map (·.name) := by
  induction round generalizing rules with
  | zero =>
    rw [changesIn_zero, name_mem_changes_iff h hmem]
    exact not_not.2 (changeFor_eq_none_iff.2 (.inr hmet))
  | succ round ih =>
    rw [changesIn_succ]
    exact ih (hmet.pass h hmem)

/-- A required rule that asks for a change in one round asks for none in a later one. -/
theorem name_notMem_changesIn_of_lt (h : (policy.map (·.name)).Nodup) (hmem : required ∈ policy)
    {round later : Nat} (hlt : round < later)
    (hasks : some required.name ∈ (visit.changesIn policy rules round).map (·.name)) :
    some required.name ∉ (visit.changesIn policy rules later).map (·.name) := by
  induction round generalizing rules later with
  | zero =>
    cases later with
    | zero => exact absurd hlt (Nat.lt_irrefl 0)
    | succ later =>
      rw [changesIn_zero, name_mem_changes_iff h hmem] at hasks
      rw [changesIn_succ]
      exact name_notMem_changesIn_of_met h hmem ((met_pass_iff h hmem).2 (.inl hasks)) later
  | succ round ih =>
    cases later with
    | zero => exact absurd hlt (Nat.not_lt_zero _)
    | succ later =>
      rw [changesIn_succ] at hasks ⊢
      exact ih (Nat.succ_lt_succ_iff.1 hlt) hasks

/-! ## Networks without a rule of their own -/

/-- A visit lets its operator in. -/
theorem operatorsMet_pass (h : (policy.map (·.name)).Nodup) (rules : List SecurityRule)
    (visit : Visit) : OperatorsMet policy visit (pass policy rules visit) :=
  fun _ hmem hscope => met_pass_of_operator h hmem hscope

theorem unsettled_pass_le (h : (policy.map (·.name)).Nodup) (rules : List SecurityRule)
    (visit : Visit) : unsettled policy visit (pass policy rules visit) ≤ unsettled policy visit rules := by
  refine List.countP_mono_left fun required hmem hopen => ?_
  simp only [decide_eq_true_eq] at hopen ⊢
  exact ⟨hopen.1, fun hmet => hopen.2 (hmet.pass h hmem)⟩

/-- **Once the operator is let in, a round that changes anything gives a network a rule of its own.** -/
theorem unsettled_pass_lt (h : (policy.map (·.name)).Nodup) (hoperators : OperatorsMet policy visit rules)
    (hchanges : visit.changes policy rules ≠ []) :
    unsettled policy visit (pass policy rules visit) < unsettled policy visit rules := by
  obtain ⟨change, hchange⟩ := List.exists_mem_of_ne_nil _ hchanges
  obtain ⟨required, hmem, hasked⟩ := mem_reconcile_iff.1 hchange
  have hunmet : ¬ Met rules visit.requester visit.network required :=
    (changeFor_eq_some_iff.1 hasked).2.1
  have hnetwork : required.scope = .network := by
    cases hscope : required.scope with
    | operator => exact absurd (hoperators required hmem hscope) hunmet
    | network => rfl
  have hmet : Met (pass policy rules visit) visit.requester visit.network required := by
    rw [met_pass_iff h hmem, hasked]
    exact .inl (Option.some_ne_none change)
  refine countP_lt_countP (fun other hother hopen => ?_) hmem ?_ ?_
  · simp only [decide_eq_true_eq] at hopen ⊢
    exact ⟨hopen.1, fun hother' => hopen.2 (hother'.pass h hother)⟩
  · exact decide_eq_false fun hopen => hopen.2 hmet
  · exact decide_eq_true ⟨hnetwork, hunmet⟩

/-- The first round is counted if it changes anything, and the others are those of the rules that it
leaves. -/
theorem changingRounds_succ (rounds : Nat) :
    visit.changingRounds policy rules (rounds + 1)
      = visit.changingRounds policy (pass policy rules visit) rounds
        + if visit.changes policy rules ≠ [] then 1 else 0 := by
  rw [Visit.changingRounds, List.range_succ_eq_map, List.countP_cons, List.countP_map, changesIn_zero]
  refine congrArg₂ (· + ·) rfl ?_
  by_cases hchanges : visit.changes policy rules = []
  · rw [if_neg (not_not.2 hchanges), if_neg (by rw [decide_eq_true_eq]; exact not_not.2 hchanges)]
  · rw [if_pos hchanges, if_pos (decide_eq_true hchanges)]

/-- Once the operator is let in, no more rounds change anything than there are networks without a rule
of their own. -/
theorem changingRounds_le_unsettled (h : (policy.map (·.name)).Nodup)
    (hoperators : OperatorsMet policy visit rules) (rounds : Nat) :
    visit.changingRounds policy rules rounds ≤ unsettled policy visit rules := by
  induction rounds generalizing rules with
  | zero => exact Nat.zero_le _
  | succ rounds ih =>
    have hlater := ih (operatorsMet_pass h rules visit)
    rw [changingRounds_succ]
    by_cases hchanges : visit.changes policy rules = []
    · have hsame := unsettled_pass_le h rules visit
      rw [if_neg (not_not.2 hchanges)]
      omega
    · have hfewer := unsettled_pass_lt h hoperators hchanges
      rw [if_pos hchanges]
      omega

/-- The first round lets the operator in, and each further round that changes anything is for a network
of the policy. -/
theorem changingRounds_le (h : (policy.map (·.name)).Nodup) (rules : List SecurityRule)
    (visit : Visit) (rounds : Nat) :
    visit.changingRounds policy rules rounds ≤ 1 + policy.countP (·.scope = .network) := by
  cases rounds with
  | zero => exact Nat.zero_le _
  | succ rounds =>
    have hlater := changingRounds_le_unsettled h (operatorsMet_pass h rules visit) rounds
    have hnetworks : unsettled policy visit (pass policy rules visit)
        ≤ policy.countP (·.scope = .network) := by
      refine List.countP_mono_left fun required _ hopen => ?_
      simp only [decide_eq_true_eq] at hopen ⊢
      exact hopen.1
    rw [changingRounds_succ]
    split <;> omega

/-- After one round for the operator and one for each network, nothing is left to do. -/
theorem changesIn_eq_nil (h : (policy.map (·.name)).Nodup) (rules : List SecurityRule) (visit : Visit)
    {round : Nat} (hround : 1 + policy.countP (·.scope = .network) ≤ round) :
    visit.changesIn policy rules round = [] := by
  by_contra hne
  -- Otherwise none of the rounds so far was empty, and there are too many of them.
  have hall : visit.changingRounds policy rules (round + 1) = (List.range (round + 1)).length := by
    refine List.countP_eq_length.2 fun earlier hearlier => decide_eq_true fun hnil => hne ?_
    exact changesIn_eq_nil_of_le hnil (Nat.le_of_lt_succ (List.mem_range.1 hearlier))
  have hfew := changingRounds_le h rules visit (round + 1)
  rw [hall, List.length_range] at hfew
  omega

/-- **Repeated visits settle.** Every required rule asks for a change in one round at most; a round after
one that changes nothing changes nothing; so at most one round and one for each required network change
anything. With the policy of a cloud nothing is changed from the third round on. -/
theorem rounds_settle (h : (policy.map (·.name)).Nodup) (rules : List SecurityRule) (visit : Visit) :
    (∀ required ∈ policy, ∀ round later,
        some required.name ∈ (visit.changesIn policy rules round).map (·.name) →
          some required.name ∈ (visit.changesIn policy rules later).map (·.name) →
            round = later) ∧
      (∀ round, visit.changesIn policy rules round = [] →
        visit.changesIn policy rules (round + 1) = []) ∧
      (∀ rounds, visit.changingRounds policy rules rounds
        ≤ 1 + policy.countP (·.scope = .network)) ∧
      ∀ cloud, rulesFor? cloud = some policy →
        ∀ round ≥ 2, visit.changesIn policy rules round = [] := by
  refine ⟨?_, ?_, changingRounds_le h rules visit, ?_⟩
  · intro required hmem round later hround hlater
    rcases Nat.lt_trichotomy round later with hlt | heq | hgt
    · exact absurd hlater (name_notMem_changesIn_of_lt h hmem hlt hround)
    · exact heq
    · exact absurd hround (name_notMem_changesIn_of_lt h hmem hgt hlater)
  · intro round hnil
    exact changesIn_succ_of_eq_nil hnil
  · intro cloud hcloud round hround
    have hone : policy.countP (·.scope = .network) = 1 := by
      rcases eq_ec2Rules_or_eq_azureRules hcloud with rfl | rfl
      · rfl
      · rfl
    exact changesIn_eq_nil h rules visit (by rw [hone]; exact hround)

end

/-- Where the only rule that vouches for the network has the name of a rule for operators, two rounds
change something, and the third one does not. -/
theorem settled_in_third_round :
    let visit : Visit := ⟨"203.0.113.7", "10.0.0.0/16"⟩
    let rules : List SecurityRule := [⟨some "SSH", .all, ["10.0.0.0/16"], "*", none⟩]
    (ec2Rules.map (·.name)).Nodup ∧ rulesFor? "aws" = some ec2Rules ∧
      visit.changesIn ec2Rules rules 0 ≠ [] ∧ visit.changesIn ec2Rules rules 1 ≠ [] ∧
      visit.changesIn ec2Rules rules 2 = [] := by
  intro visit rules
  have hnames : (ec2Rules.map (·.name)).Nodup := by decide
  have hcloud : rulesFor? "aws" = some ec2Rules := by decide +kernel
  have hfirst : visit.changesIn ec2Rules rules 0 ≠ [] := by decide +kernel
  have hsecond : visit.changesIn ec2Rules rules 1 ≠ [] := by decide +kernel
  have hsettled := rounds_settle hnames rules visit
  exact ⟨hnames, hcloud, hfirst, hsecond, hsettled.2.2.2 "aws" hcloud 2 (Nat.le_refl 2)⟩

end NodeLedger.Policy
