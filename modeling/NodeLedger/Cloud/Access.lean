import NodeLedger.Cloud.Ec2.Groups
import NodeLedger.Cloud.Nsg.Groups
import NodeLedger.Lookup

/-!
# Access to the clouds

- `Clouds`: everything outside the program, with the steps that lead to each client.
- `Clouds.ec2Provider`, `Clouds.nsgProvider`: a provider after the steps that open its client.
-/

namespace NodeLedger

open Cloud

/-- Everything outside the program. -/
structure Clouds (σ : Type) where
  web : Web σ
  /-- Read the credentials of a profile, for a region. -/
  ec2Session : (profile : Option String) → (region : String) → Ask σ Unit
  ec2Open : Ask σ Unit
  ec2 : Ec2.Client σ
  azureCredential : Ask σ Unit
  networkOpen : (subscription : String) → Ask σ Unit
  machinesOpen : (subscription : String) → Ask σ Unit
  nsg : Nsg.Client σ

namespace Clouds

variable {σ : Type}

/-- The operations on EC2 in a region. -/
def ec2Provider (clouds : Clouds σ) (region : String) (profile network : Option String) :
    Job σ (Provider σ) := do
  Job.demand (clouds.ec2Session profile region)
  Job.demand clouds.ec2Open
  return Ec2.provider clouds.ec2 network

/-- The operations on Azure in a resource group of a subscription. -/
def nsgProvider (clouds : Clouds σ) (subscription resources : String) (location : Option String) :
    Job σ (Provider σ) := do
  Job.demand clouds.azureCredential
  Job.demand (clouds.networkOpen subscription)
  Job.demand (clouds.machinesOpen subscription)
  return Nsg.provider clouds.nsg resources location

end Clouds

end NodeLedger
