import NodeLedger.Address.Search
import NodeLedger.Job
import NodeLedger.Settings

/-!
# The operator's address

A web service tells the address that a request comes from. Its answer counts only with status 200,
and the first IPv4 address in it is the operator's.

- `Web`: what is asked of the web.
- `Lookup.ownAddress`: the operator's address.
-/

namespace NodeLedger

open Cloud

/-- The answer to a web request. -/
structure WebAnswer where
  status : Int
  text : String
  deriving Repr, DecidableEq

/-- Web requests: an address, and the seconds to wait for the answer. -/
structure Web (σ : Type) where
  get : (url : String) → (timeout : Int) → Ask σ WebAnswer

namespace Lookup

variable {σ : Type}

/-- The seconds to wait for an answer when nothing else is asked for. -/
def defaultTimeout : Int := 10

/-- The failure of a web request, as opposed to other failures. -/
def isRequestFault : OutsideFault → Bool
  | .request .. => true
  | _ => false

/-- The operator's address, from a service or from the one in the settings. -/
def ownAddress (web : Web σ) (settings : Settings) (service : Option String) (timeout : Int) :
    Job σ String := do
  let url := (service.filter (· != "")).getD settings.lookupUrl
  match ← Job.ask (web.get url timeout) with
  | .error fault =>
    throw (if isRequestFault fault then .lookup (.unreachable url fault) else .outside fault)
  | .ok answer =>
    if answer.status ≠ 200 then throw (.lookup (.badStatus url answer.status))
    else
      match Address.findV4 answer.text with
      | none => throw (.lookup (.noAddress url))
      | some address =>
        Job.log .debug s!"External IP address is {address}"
        return address

end Lookup

end NodeLedger
