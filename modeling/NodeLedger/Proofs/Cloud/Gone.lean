import NodeLedger.Proofs.Cloud.Exchanges

/-!
# What has gone away

What a cloud has taken down is read off the exchanges with it. Each item has exchanges of its own, so
what is told about one item does not depend on the others.

- `Platform.InstanceGone`, `Platform.GroupGone`: the exchanges in which an instance or a group went
  away.
- `Platform.InstanceTried`, `Platform.GroupTried`: the exchanges of an attempt.
- `Platform.GroupRefused`: the exchanges in which a group could not be taken down.
- `Platform.instanceGone_congr`, `Platform.groupGone_congr` and their like: **what is told about an
  item depends on the exchanges about it alone**.
-/

namespace NodeLedger.Cloud

open Job Policy

section Gone

variable {σ : Type}

/-- The exchange took a rule away, or found that it was gone. -/
def Exchange.takesRule (group : GroupId) (rule : String) : Exchange → Bool
  | deleteRule g r (.ok _) => g == group && r == rule
  | deleteRule g r (.error fault) => g == group && r == rule && Nsg.isNotFound fault
  | _ => false

theorem Exchange.takesRule_deleteRule_iff {group other : GroupId} {name rule : String}
    {answer : Except OutsideFault Unit} :
    (deleteRule group name answer).takesRule other rule = true ↔
      group = other ∧ name = rule ∧ ∀ fault, answer = .error fault → Nsg.isNotFound fault = true := by
  cases answer with
  | ok _ => simp [takesRule]
  | error fault => simp [takesRule, and_assoc]

/-- A rule of the group could not be deleted although it may still be there. -/
def RuleFails (seen : List Exchange) (group : CodeText) : Prop :=
  ∃ rule fault, .deleteRule (some group) rule (.error fault) ∈ seen ∧ Nsg.isNotFound fault = false

/-- The answer tells that no instance holds on to the group. -/
def Ec2.IsFree (answer : Except OutsideFault (Option InstancesAnswer)) : Prop :=
  ∃ found, answer = .ok found ∧ holders found = .ok []

namespace Platform

/-- Every request that takes the instance down has succeeded. -/
def InstanceGone : Platform σ → List Exchange → CodeText → Prop
  | ec2 .., seen, machine =>
    .terminate machine (.ok ()) ∈ seen ∧ .wait machine (.ok ()) ∈ seen
  | azure .., seen, machine => .deleteMachine machine (.ok ()) ∈ seen

/-- The instance was to be taken down. On EC2 it was waited for if its termination was accepted. -/
def InstanceTried : Platform σ → List Exchange → CodeText → Prop
  | ec2 .., seen, machine =>
    (∃ answer, .terminate machine answer ∈ seen) ∧
      (.terminate machine (.ok ()) ∈ seen → ∃ answer, .wait machine answer ∈ seen)
  | azure .., seen, machine => ∃ answer, .deleteMachine machine answer ∈ seen

/-- EC2 has deleted the group; on Azure, each rule of the policy was taken away or was gone. -/
def GroupGone : Platform σ → List Exchange → CodeText → Prop
  | ec2 .., seen, group => .deleteGroup (some group) (.ok ()) ∈ seen
  | azure .., seen, group =>
    ∀ rule ∈ azureRules, ∃ e ∈ seen, e.takesRule (some group) rule.name = true

/-- What it takes to delete the group was refused: on EC2 the instances that hold on to it could not be
listed, or there were any, or its deletion failed; on Azure a rule could not be deleted although it may
still be there. -/
def GroupRefused : Platform σ → List Exchange → CodeText → Prop
  | ec2 .., seen, group =>
    (∃ answer, .instances (some group) answer ∈ seen ∧ ¬ Ec2.IsFree answer) ∨
      ∃ fault, .deleteGroup (some group) (.error fault) ∈ seen
  | azure .., seen, group => RuleFails seen group

/-- The group was to be deleted: on EC2 the instances that hold on to it were asked for, on Azure a
rule was to be deleted. -/
def GroupTried : Platform σ → List Exchange → CodeText → Prop
  | ec2 .., seen, group => ∃ answer, .instances (some group) answer ∈ seen
  | azure .., seen, group => ∃ rule answer, .deleteRule (some group) rule answer ∈ seen

instance (platform : Platform σ) (seen : List Exchange) (machine : CodeText) :
    Decidable (platform.InstanceGone seen machine) :=
  match platform with
  | ec2 .. => inferInstanceAs (Decidable (_ ∧ _))
  | azure .. => inferInstanceAs (Decidable (_ ∈ _))

instance (platform : Platform σ) (seen : List Exchange) (group : CodeText) :
    Decidable (platform.GroupGone seen group) :=
  match platform with
  | ec2 .. => inferInstanceAs (Decidable (_ ∈ _))
  | azure .. => inferInstanceAs (Decidable (∀ rule ∈ azureRules, _))

end Platform

/-! Whether something went away is told by the exchanges about it alone. -/

section Congr

variable {platform : Platform σ} {a b : List Exchange} {machine group : CodeText}

theorem Platform.instanceGone_congr (h : ∀ e, e.group? = none → (e ∈ a ↔ e ∈ b)) :
    platform.InstanceGone a machine ↔ platform.InstanceGone b machine := by
  cases platform with
  | ec2 client network => exact and_congr (h _ rfl) (h _ rfl)
  | azure client resources location => exact h _ rfl

theorem Platform.instanceTried_congr (h : ∀ e, e.group? = none → (e ∈ a ↔ e ∈ b)) :
    platform.InstanceTried a machine ↔ platform.InstanceTried b machine := by
  cases platform with
  | ec2 client network =>
    exact and_congr (exists_congr fun _ => h _ rfl)
      (imp_congr (h _ rfl) (exists_congr fun _ => h _ rfl))
  | azure client resources location => exact exists_congr fun _ => h _ rfl

theorem Platform.groupGone_congr (h : ∀ e, e.group? = some (some group) → (e ∈ a ↔ e ∈ b)) :
    platform.GroupGone a group ↔ platform.GroupGone b group := by
  cases platform with
  | ec2 client network => exact h _ rfl
  | azure client resources location =>
    refine forall₂_congr fun rule _ => exists_congr fun e => and_congr_left fun htakes => h e ?_
    cases e with
    | deleteRule id name answer =>
      rw [Exchange.group?, (Exchange.takesRule_deleteRule_iff.1 htakes).1]
    | _ => cases htakes

theorem Platform.groupTried_congr (h : ∀ e, e.group? = some (some group) → (e ∈ a ↔ e ∈ b)) :
    platform.GroupTried a group ↔ platform.GroupTried b group := by
  cases platform with
  | ec2 client network => exact exists_congr fun _ => h _ rfl
  | azure client resources location => exact exists₂_congr fun _ _ => h _ rfl

theorem Platform.groupRefused_congr (h : ∀ e, e.group? = some (some group) → (e ∈ a ↔ e ∈ b)) :
    platform.GroupRefused a group ↔ platform.GroupRefused b group := by
  cases platform with
  | ec2 client network =>
    exact or_congr (exists_congr fun _ => and_congr_left fun _ => h _ rfl)
      (exists_congr fun _ => h _ rfl)
  | azure client resources location =>
    exact exists₂_congr fun _ _ => and_congr_left fun _ => h _ rfl

end Congr

end Gone

end NodeLedger.Cloud
