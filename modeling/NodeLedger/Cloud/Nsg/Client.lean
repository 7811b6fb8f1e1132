import NodeLedger.Cloud.GroupId
import NodeLedger.Cloud.Nsg.Rule
import NodeLedger.Cloud.Outside

/-!
# Requests to Azure

Changes take time: a request starts one, and a second one waits for its end.

- `Nsg.Client`: the requests.
- `Ask.finished`: a change that is started and waited for.
-/

namespace NodeLedger.Cloud

/-- Start a change and wait for its end. -/
def Ask.finished {σ α : Type} (request : Ask σ (Ask σ α)) : Ask σ α := fun state =>
  match request state with
  | (.ok pending, state) => pending state
  | (.error fault, state) => (.error fault, state)

namespace Nsg

/-- A network security group as Azure describes it. -/
structure GroupAnswer where
  group : GroupId
  rules : Option (List NsgRule)
  deriving Repr, DecidableEq

/-- The requests to Azure about what is in a resource group. -/
structure Client (σ : Type) where
  getGroup : (resources : String) → (group : GroupId) → Ask σ GroupAnswer
  createGroup : (resources name location : String) → Ask σ (Ask σ GroupAnswer)
  updateRule : (resources : String) → (group : GroupId) → (name : Option String) → NsgRule →
    Ask σ (Ask σ Unit)
  deleteRule : (resources : String) → (group : GroupId) → (name : String) → Ask σ (Ask σ Unit)
  deleteMachine : (resources : String) → (machine : CodeText) → Ask σ (Ask σ Unit)

end Nsg

end NodeLedger.Cloud
