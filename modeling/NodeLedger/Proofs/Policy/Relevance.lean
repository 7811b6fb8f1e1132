import Mathlib.Data.List.Perm.Basic
import Mathlib.Logic.Relation
import NodeLedger.Proofs.Policy.Pass

/-!
# Rules that do not matter

A required rule asks two things of a group: which rule comes first under its name, and, for a network,
whether some rule of protocol all admits it. Rules that answer neither question for any required rule
may come and go, wherever they stand in the group. The first question depends on the order of the
rules only where a name repeats.

- `Relevant`: the rules that answer one of the questions.
- `changes_congr`: **what the changes of a visit depend on**.
- `Inserted`: a rule put in somewhere that does not matter; `changes_of_inserted` is the step, and its
  closure in both directions is any number of rules put in and taken out.
- `findByName_of_perm`: first rules of distinct names in any order.
- `changes_unmoved`: **neither rules that do not matter nor, for distinct names, the order of the rules
  make a difference**.
-/

namespace NodeLedger.Policy

/-- The rule has a required name, or it admits a required network on every protocol. -/
def Relevant (policy : List RequiredRule) (visit : Visit) (rule : SecurityRule) : Prop :=
  ∃ required ∈ policy, rule.name = some required.name ∨
    (required.scope = .network ∧
      rule.admitsNetwork (required.source visit.requester visit.network) = true)

instance (policy : List RequiredRule) (visit : Visit) (rule : SecurityRule) :
    Decidable (Relevant policy visit rule) :=
  inferInstanceAs (Decidable (∃ required ∈ policy, _ ∨ (_ ∧ _)))

/-- The second list is the first one with a rule put in that does not matter to the visit. -/
def Inserted (policy : List RequiredRule) (visit : Visit) (rules more : List SecurityRule) : Prop :=
  ∃ before rule after, ¬ Relevant policy visit rule ∧ rules = before ++ after ∧
    more = before ++ rule :: after

section

variable {policy : List RequiredRule} {visit : Visit} {current other : List SecurityRule}

/-- **What the changes of a visit depend on**: the first rules of the required names, and whether the
required networks are admitted. -/
theorem changes_congr
    (hfirst : ∀ required ∈ policy,
      findByName other required.name = findByName current required.name)
    (hadmits : ∀ required ∈ policy, required.scope = .network →
      other.any (·.admitsNetwork (required.source visit.requester visit.network))
        = current.any (·.admitsNetwork (required.source visit.requester visit.network))) :
    visit.changes policy other = visit.changes policy current := by
  refine List.filterMap_congr fun required hmem => ?_
  have hvouched : Vouched other visit.requester visit.network required ↔
      Vouched current visit.requester visit.network required := by
    rw [vouched_iff_any, vouched_iff_any, Bool.and_eq_true, Bool.and_eq_true, beq_iff_eq]
    exact and_congr_right fun hscope => by rw [hadmits required hmem hscope]
  by_cases h : Vouched current visit.requester visit.network required
  · rw [changeFor_of_vouched h, changeFor_of_vouched (hvouched.2 h)]
  · rw [changeFor_of_not_vouched h, changeFor_of_not_vouched (mt hvouched.1 h),
      hfirst required hmem]

/-! ## Rules put in and taken out -/

/-- A rule that does not matter can be put in anywhere. -/
theorem changes_of_inserted (h : Inserted policy visit current other) :
    visit.changes policy other = visit.changes policy current := by
  obtain ⟨before, rule, after, hirrelevant, rfl, rfl⟩ := h
  refine changes_congr (fun required hmem => ?_) fun required hmem hscope => ?_
  · have hname : rule.name ≠ some required.name := fun hname =>
      hirrelevant ⟨required, hmem, .inl hname⟩
    have hskip : findByName (rule :: after) required.name = findByName after required.name :=
      List.find?_cons_of_neg (by simpa using hname)
    rw [findByName, findByName, List.find?_append, List.find?_append]
    exact congrArg _ hskip
  · have hadmits : rule.admitsNetwork (required.source visit.requester visit.network) = false :=
      Bool.eq_false_iff.2 fun hadmits => hirrelevant ⟨required, hmem, .inr ⟨hscope, hadmits⟩⟩
    rw [List.any_append, List.any_append, List.any_cons, hadmits, Bool.false_or]

/-! ## Rules in another order -/

/-- Where names are distinct, the first rule of a name is the one that has it. -/
theorem findByName_eq_some_iff_of_nodup (h : (current.map (·.name)).Nodup) {name : String}
    {rule : SecurityRule} :
    findByName current name = some rule ↔ rule ∈ current ∧ rule.name = some name := by
  constructor
  · intro hfind
    exact ⟨List.mem_of_find?_eq_some hfind, name_of_findByName hfind⟩
  · rintro ⟨hmem, hname⟩
    have hsome : (findByName current name).isSome = true :=
      List.find?_isSome.2 ⟨rule, hmem, beq_iff_eq.2 hname⟩
    obtain ⟨first, hfirst⟩ := Option.isSome_iff_exists.1 hsome
    have hsame : first.name = rule.name := (name_of_findByName hfirst).trans hname.symm
    rw [hfirst, List.inj_on_of_nodup_map h (List.mem_of_find?_eq_some hfirst) hmem hsame]

/-- Where names are distinct, the first rule of a name does not depend on the order. -/
theorem findByName_of_perm (h : (current.map (·.name)).Nodup) (hperm : current.Perm other)
    (name : String) : findByName other name = findByName current name := by
  have hother : (other.map (·.name)).Nodup := (hperm.map _).nodup_iff.1 h
  refine Option.ext fun rule => ?_
  rw [findByName_eq_some_iff_of_nodup h, findByName_eq_some_iff_of_nodup hother, hperm.mem_iff]

theorem changes_of_perm (h : (current.map (·.name)).Nodup) (hperm : current.Perm other) :
    visit.changes policy other = visit.changes policy current :=
  changes_congr (fun required _ => findByName_of_perm h hperm required.name)
    fun _ _ _ => hperm.any_eq.symm

/-- **Neither rules that do not matter nor, for distinct names, the order of the rules make a
difference** to what a visit changes, whatever the policy. Rules that do not matter may be put in and
taken out any number of times, anywhere in the group. -/
theorem changes_unmoved (policy : List RequiredRule) (visit : Visit)
    (current other : List SecurityRule) :
    (Relation.EqvGen (Inserted policy visit) current other →
        visit.changes policy other = visit.changes policy current) ∧
      ((current.map (·.name)).Nodup → current.Perm other →
        visit.changes policy other = visit.changes policy current) := by
  refine ⟨fun h => ?_, changes_of_perm⟩
  induction h with
  | rel rules more hinserted => exact changes_of_inserted hinserted
  | refl rules => rfl
  | symm rules more _ ih => exact ih.symm
  | trans rules middle more _ _ ih ih' => exact ih'.trans ih

end

/-- A rule for DNS moves from the front to the end, and the rules for SSH and for the network change
places: the changes stay. -/
theorem changes_unmoved_beside_dns :
    let visit : Visit := ⟨"203.0.113.7", "10.0.0.0/16"⟩
    let dns : SecurityRule := ⟨some "dns", .tcp, ["0.0.0.0/0"], "53", none⟩
    let ssh : SecurityRule := ⟨some "SSH", .tcp, ["192.0.2.1"], "22", none⟩
    let cluster : SecurityRule := ⟨some "cluster", .all, ["10.0.9.9/16"], "*", none⟩
    (Relation.EqvGen (Inserted ec2Rules visit) [dns, ssh, cluster] [ssh, cluster, dns] ∧
        visit.changes ec2Rules [ssh, cluster, dns] = visit.changes ec2Rules [dns, ssh, cluster]) ∧
      ([ssh, cluster].map (·.name)).Nodup ∧ [ssh, cluster].Perm [cluster, ssh] ∧
      visit.changes ec2Rules [cluster, ssh] = visit.changes ec2Rules [ssh, cluster] := by
  intro visit dns ssh cluster
  have hdns : ¬ Relevant ec2Rules visit dns := by decide +kernel
  have hfront : Inserted ec2Rules visit [ssh, cluster] [dns, ssh, cluster] :=
    ⟨[], dns, [ssh, cluster], hdns, rfl, rfl⟩
  have hback : Inserted ec2Rules visit [ssh, cluster] [ssh, cluster, dns] :=
    ⟨[ssh, cluster], dns, [], hdns, rfl, rfl⟩
  have hmoved : Relation.EqvGen (Inserted ec2Rules visit) [dns, ssh, cluster] [ssh, cluster, dns] :=
    .trans _ _ _ (.symm _ _ (.rel _ _ hfront)) (.rel _ _ hback)
  have hnames : ([ssh, cluster].map (·.name)).Nodup := by decide
  have hperm : [ssh, cluster].Perm [cluster, ssh] := List.Perm.swap ..
  exact ⟨⟨hmoved, (changes_unmoved ec2Rules visit _ _).1 hmoved⟩, hnames, hperm,
    (changes_unmoved ec2Rules visit _ _).2 hnames hperm⟩

end NodeLedger.Policy
