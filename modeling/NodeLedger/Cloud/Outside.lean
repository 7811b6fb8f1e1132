/-!
# The outside world

Clouds and the address service answer requests or fail. This module says how they fail; what they
answer is said where each of them is used.

- `OutsideFault`: the failures, with the groups that callers tell apart.
- `Ask`: a request to an outside world of some state.
-/

namespace NodeLedger.Cloud

/-- The failures of a cloud's management service, of which callers single out an absent resource. -/
inductive ResponseKind where
  | general
  | notFound
  | alreadyThere
  | notAuthenticated
  deriving Repr, DecidableEq

/-- The failures of a web request. -/
inductive RequestKind where
  | general
  | noConnection
  | timeout
  | tooManyRedirects
  | badAddress
  deriving Repr, DecidableEq

/-- A failure of the outside world. -/
inductive OutsideFault where
  /-- EC2 refuses an operation. -/
  | client (code operation detail : String)
  /-- EC2 did not reach an awaited state. -/
  | waiter (name detail : String)
  /-- There are no EC2 credentials. -/
  | noCredentials
  /-- The Azure service answers with an error. -/
  | response (kind : ResponseKind) (detail : String)
  /-- The Azure service gives no answer. -/
  | service (detail : String)
  /-- A web request fails. -/
  | request (kind : RequestKind) (detail : String)
  /-- The system below fails. -/
  | system (detail : String)
  /-- A value is refused below. -/
  | value (detail : String)
  deriving Repr, DecidableEq

/-- The wording of a failure. -/
def OutsideFault.message : OutsideFault → String
  | client code operation detail =>
    s!"An error occurred ({code}) when calling the {operation} operation: {detail}"
  | waiter name detail => s!"Waiter {name} failed: {detail}"
  | noCredentials => "Unable to locate credentials"
  | response _ detail => detail
  | service detail => detail
  | request _ detail => detail
  | system detail => detail
  | value detail => detail

/-- A request to an outside world of state `σ`: its answer or failure, and the state after it. -/
abbrev Ask (σ α : Type) : Type := σ → Except OutsideFault α × σ

end NodeLedger.Cloud
