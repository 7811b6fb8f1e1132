import NodeLedger.Cloud.Nsg.Client
import NodeLedger.Cloud.Provider
import NodeLedger.Proofs.Sequence

/-!
# Requests to a cloud

- `Job.cases_of_runOn_expecting`, `Job.runOn_expecting_of_ok`, `Job.runOn_expecting_of_error`: a request
  some of whose failures an operation explains.
- `Cloud.Ask.finished_of_ok`, `Cloud.Ask.finished_of_error`: a change that is started and waited for.
-/

namespace NodeLedger

open Cloud

namespace Job

variable {σ α : Type} {host after : Host σ}

/-- A request whose failures are explained leaves the files and the messages alone. -/
theorem cases_of_runOn_expecting {isExpected : OutsideFault → Bool}
    {explain : OutsideFault → ProviderFault} {request : Ask σ α} {outcome : Except Fault α}
    (h : (expecting isExpected explain request).runOn host = (outcome, after)) :
    ∃ outside, after = { host with outside := outside } ∧
      ((∃ fault reported, request host.outside = (.error fault, outside) ∧
          outcome = .error reported) ∨
        ∃ a, request host.outside = (.ok a, outside) ∧ outcome = .ok a) := by
  rw [expecting, runOn_bind_of_ok (runOn_ask request host)] at h
  cases hanswer : request host.outside with
  | mk answer outside =>
    rw [hanswer] at h
    cases answer with
    | ok a =>
      cases h
      exact ⟨outside, rfl, .inr ⟨a, rfl, rfl⟩⟩
    | error fault =>
      cases h
      exact ⟨outside, rfl, .inl ⟨fault, _, rfl, rfl⟩⟩

theorem runOn_expecting_of_ok {isExpected : OutsideFault → Bool}
    {explain : OutsideFault → ProviderFault} {request : Ask σ α} {a : α} {outside : σ}
    (h : request host.outside = (.ok a, outside)) :
    (expecting isExpected explain request).runOn host
      = (.ok a, { host with outside := outside }) := by
  rw [expecting, runOn_bind_of_ok (runOn_ask request host), h]
  rfl

theorem runOn_expecting_of_error {isExpected : OutsideFault → Bool}
    {explain : OutsideFault → ProviderFault} {request : Ask σ α} {fault : OutsideFault} {outside : σ}
    (h : request host.outside = (.error fault, outside)) :
    (expecting isExpected explain request).runOn host
      = (.error (if isExpected fault then .provider (explain fault) else .outside fault),
        { host with outside := outside }) := by
  rw [expecting, runOn_bind_of_ok (runOn_ask request host), h]
  rfl

end Job

namespace Cloud.Ask

variable {σ α : Type} {request : Ask σ (Ask σ α)} {state middle : σ}

/-- A change that was started ends as it ends when it is waited for. -/
theorem finished_of_ok {pending : Ask σ α} (h : request state = (.ok pending, middle)) :
    finished request state = pending middle := by
  rw [finished, h]

/-- A change that could not be started is not waited for. -/
theorem finished_of_error {fault : OutsideFault} (h : request state = (.error fault, middle)) :
    finished request state = (.error fault, middle) := by
  rw [finished, h]

end Cloud.Ask

end NodeLedger
