import NodeLedger.Proofs.Parts
import NodeLedger.Proofs.Policy.Pass

/-!
# The stages of making sure of a group

To make sure of a group is to find it or create it, to make it conform to the policy, and to record it.
What follows holds for every cloud.

- `ensureGroup_eq`: the stages, one after the other.
- `outside_of_runOn_recordGroup`, `outside_of_runOn_recordNew`: recording a group asks nothing of the
  cloud.
-/

namespace NodeLedger.Provisioning

open Cloud Policy

section Stages

variable {σ : Type}

/-- The group that was found, or a new one. -/
def findOrCreate (run : Provisioning σ) (found : GroupId) (name : String) : Job σ GroupId :=
  if found.isSome then pure found else run.provider.create name

/-- Ask for what a visit requires of the group. -/
def conform (run : Provisioning σ) (group : GroupId) (visit : Visit) : Job σ Unit := do
  let current ← run.provider.rules group
  run.applyChanges group (visit.changes run.provider.policy current) current

/-- Record the group if it was created, or if groups that were found are recorded too. -/
def recordNew [Json.Nesting] (run : Provisioning σ) (found group : GroupId) : Job σ GroupId := do
  if found.isNone || run.provider.recordsFoundGroups then run.recordGroup group
  return group

/-- Making sure of a group in stages. -/
theorem ensureGroup_eq [Json.Nesting] (run : Provisioning σ) (cluster network : String) :
    run.ensureGroup cluster network = (do
      let requester ← run.ownAddress
      let found ← run.provider.find (run.provider.groupName cluster)
      let group ← run.findOrCreate found (run.provider.groupName cluster)
      run.conform group ⟨requester, network⟩
      run.recordNew found group) := by
  refine bind_congr fun requester => bind_congr fun found => ?_
  by_cases hfound : found.isSome = true
  · simp only [findOrCreate, conform, if_pos hfound, pure_bind, bind_assoc]
    rfl
  · simp only [findOrCreate, conform, if_neg hfound, bind_assoc]
    rfl

end Stages

/-! ## Recording the group -/

section Recording

variable [Json.Nesting] {σ : Type} {host after : Host σ}

/-- Remembering entries asks nothing of the outside world. -/
theorem keepsOutside_append (instances groups : List CodeText) (path : CodeText) :
    (Ledger.append instances groups path : Job σ Unit).Keeps (·.outside) := by
  refine Job.keeps_bind Job.keeps_files fun tree => ?_
  refine Job.keeps_bind (Job.keeps_ofExcept _) fun old => ?_
  refine Job.keeps_bind (Job.keeps_ofExcept _) fun new => ?_
  exact Job.keeps_bind (Job.keepsOutside_onFiles _) fun _ => Job.keepsOutside_log _ _

/-- Recording a group asks nothing of the outside world. -/
theorem keepsOutside_recordGroup (run : Provisioning σ) (group : GroupId) :
    (run.recordGroup group).Keeps (·.outside) :=
  Job.keeps_handling (keepsOutside_append [] group.toList run.ledgerPath) fun _ =>
    Job.keeps_ite (Job.keepsOutside_log _ _) (Job.keepsOutside_log _ _)

/-- Recording a group asks nothing of the outside world. -/
theorem outside_of_runOn_recordGroup {run : Provisioning σ} {group : GroupId}
    {outcome : Except Fault Unit} (h : (run.recordGroup group).runOn host = (outcome, after)) :
    after.outside = host.outside :=
  (keepsOutside_recordGroup run group).eq h

/-- Whether a group is recorded or not, nothing is asked of the outside world. -/
theorem outside_of_runOn_recordNew {run : Provisioning σ} {found group : GroupId}
    {outcome : Except Fault GroupId}
    (h : (run.recordNew found group).runOn host = (outcome, after)) :
    after.outside = host.outside := by
  have hkeeps : (run.recordNew found group).Keeps (·.outside) := by
    rw [recordNew]
    split
    · exact Job.keeps_bind (keepsOutside_recordGroup run group) fun _ => Job.keeps_pure _
    · exact Job.keeps_pure _
  exact hkeeps.eq h

end Recording

end NodeLedger.Provisioning
