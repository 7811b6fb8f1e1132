import NodeLedger.Cloud.Ec2.Groups
import NodeLedger.Cloud.Nsg.Groups
import NodeLedger.Proofs.Parts

/-!
# One request for each item

Both clouds take instances down one by one: EC2 is asked to terminate each of them and then waited for
each, Azure is asked to delete each. An item whose request fails as expected is left out, and the next
one is tried; any other failure ends the job.

- `collect`: one request for each item, with the items for which it succeeded.
- `Ec2.requestTermination_eq`, `Ec2.awaitTermination_eq`, `Nsg.terminate_eq`: **the loops of both clouds
  are of this kind**, so what holds of `collect` holds of them.
-/

namespace NodeLedger.Cloud

variable {σ : Type}

/-- One request for each item; the items for which it succeeded. Expected failures are logged. -/
def collect (request : CodeText → Ask σ Unit) (isExpected : OutsideFault → Bool)
    (wording : CodeText → OutsideFault → CodeText) : List CodeText → Job σ (List CodeText)
  | [] => return []
  | item :: items => do
    match ← Job.ask (request item) with
    | .ok () => return item :: (← collect request isExpected wording items)
    | .error fault =>
      if isExpected fault then
        Job.log .error (wording item fault)
        collect request isExpected wording items
      else throw (.outside fault)

/-- A loop that makes one request for each item, and goes on with the others, is `collect`. -/
theorem eq_collect {request : CodeText → Ask σ Unit} {isExpected : OutsideFault → Bool}
    {wording : CodeText → OutsideFault → CodeText} (loop : List CodeText → Job σ (List CodeText))
    (hnil : loop [] = pure [])
    (hcons : ∀ item items, loop (item :: items) = do
      match ← Job.ask (request item) with
      | .ok () => return item :: (← loop items)
      | .error fault =>
        if isExpected fault then
          Job.log .error (wording item fault)
          loop items
        else throw (.outside fault))
    (items : List CodeText) : loop items = collect request isExpected wording items := by
  induction items with
  | nil => exact hnil
  | cons item items ih => rw [hcons, ih, collect]

theorem Ec2.requestTermination_eq (client : Ec2.Client σ) (machines : List CodeText) :
    requestTermination client machines = collect client.terminate isClientFault
      (fun machine fault => "Failed to terminate instance " ++ machine ++ s!": {fault.message}")
      machines :=
  eq_collect (requestTermination client) rfl (fun _ _ => rfl) machines

theorem Ec2.awaitTermination_eq (client : Ec2.Client σ) (machines : List CodeText) :
    awaitTermination client machines = collect client.wait isWaiterFault
      (fun machine fault => "Timeout waiting for instance " ++ machine
        ++ s!" to terminate: {fault.message}") machines :=
  eq_collect (awaitTermination client) rfl (fun _ _ => rfl) machines

theorem Nsg.terminate_eq (client : Nsg.Client σ) (resources : String) (machines : List CodeText) :
    terminate client resources machines =
      collect (fun machine => Ask.finished (client.deleteMachine resources machine))
        isResponseFault (fun machine fault =>
          "Failed to delete virtual machine " ++ machine ++ s!": {fault.message}") machines :=
  eq_collect (terminate client resources) rfl (fun _ _ => rfl) machines

theorem keepsFiles_collect (request : CodeText → Ask σ Unit) (isExpected : OutsideFault → Bool)
    (wording : CodeText → OutsideFault → CodeText) (items : List CodeText) :
    (collect request isExpected wording items).Keeps (·.files) := by
  induction items with
  | nil => exact Job.keeps_pure _
  | cons item items ih =>
    exact Job.keepsFiles_ask_bind (fun _ => Job.keeps_bind ih fun _ => Job.keeps_pure _) fun fault =>
      Job.keeps_ite (Job.keeps_bind (Job.keepsFiles_log _ _) fun _ => ih) (Job.keeps_throw _)

end NodeLedger.Cloud
