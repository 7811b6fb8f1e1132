import NodeLedger.Ledger.Update
import NodeLedger.Proofs.Sequence

/-!
# The outcomes of updating the ledger

An update ends in one of a few ways: loading fails, the entries do not fit, or the file is replaced
or taken away. Each lemma says what the update does in one of them.

- `runOn_append_of_error`, `exists_runOn_append`: remembering entries.
- `runOn_remove_of_not_loaded`, `runOn_remove_of_error`, `exists_runOn_remove_of_isEmpty`,
  `runOn_remove_of_not_isEmpty`: forgetting them.
-/

namespace NodeLedger

namespace Ledger

variable {σ : Type} {instances groups : List CodeText} {path : CodeText} {host : Host σ}
  {old new : Ledger} {later : FileTree}

theorem entryResult_of_error {result : Except EntryFault Ledger} {fault : EntryFault}
    (h : result = .error fault) : entryResult result = .error (.ledger (.entry fault)) := by
  rw [h]
  rfl

theorem entryResult_of_ok {result : Except EntryFault Ledger} (h : result = .ok new) :
    entryResult result = .ok new := by
  rw [h]
  rfl

/-! ## Remembering entries -/

theorem runOn_append_of_error [Json.Nesting] {fault : EntryFault}
    (hload : loadOrEmpty host.files path = .ok old)
    (hadd : old.add instances groups = .error fault) :
    (append instances groups path).runOn host = (.error (.ledger (.entry fault)), host) := by
  rw [append, Job.runOn_bind_of_ok (Job.runOn_files host),
    Job.runOn_bind_of_ok (Job.runOn_ofExcept_of_eq hload host),
    Job.runOn_bind_of_error (Job.runOn_ofExcept_of_eq (entryResult_of_error hadd) host)]

theorem exists_runOn_append [Json.Nesting] (hload : loadOrEmpty host.files path = .ok old)
    (hadd : old.add instances groups = .ok new)
    (hsave : new.save path host.files = (.ok (), later)) :
    ∃ log, (append instances groups path).runOn host = (.ok (), ⟨later, log, host.outside⟩) := by
  rw [append, Job.runOn_bind_of_ok (Job.runOn_files host),
    Job.runOn_bind_of_ok (Job.runOn_ofExcept_of_eq hload host),
    Job.runOn_bind_of_ok (Job.runOn_ofExcept_of_eq (entryResult_of_ok hadd) host),
    Job.runOn_bind_of_ok (Job.runOn_onFiles_of_eq hsave), Job.runOn_log]
  exact ⟨_, rfl⟩

/-! ## Forgetting entries -/

theorem runOn_remove_of_not_loaded [Json.Nesting] {fault : Fault}
    (hload : load host.files path = .error fault) :
    (remove instances groups path).runOn host = (.error fault, host) := by
  rw [remove, Job.runOn_bind_of_ok (Job.runOn_files host),
    Job.runOn_bind_of_error (Job.runOn_ofExcept_of_eq hload host)]

theorem runOn_remove_of_error [Json.Nesting] {fault : EntryFault}
    (hload : load host.files path = .ok old)
    (hsubtract : old.subtract instances groups = .error fault) :
    (remove instances groups path).runOn host = (.error (.ledger (.entry fault)), host) := by
  rw [remove, Job.runOn_bind_of_ok (Job.runOn_files host),
    Job.runOn_bind_of_ok (Job.runOn_ofExcept_of_eq hload host),
    Job.runOn_bind_of_error (Job.runOn_ofExcept_of_eq (entryResult_of_error hsubtract) host)]

theorem exists_runOn_remove_of_isEmpty [Json.Nesting] (hload : load host.files path = .ok old)
    (hsubtract : old.subtract instances groups = .ok new) (hempty : new.isEmpty = true)
    (hdelete : deleteFile path host.files = (.ok (), later)) :
    ∃ log, (remove instances groups path).runOn host = (.ok (), ⟨later, log, host.outside⟩) := by
  rw [remove, Job.runOn_bind_of_ok (Job.runOn_files host),
    Job.runOn_bind_of_ok (Job.runOn_ofExcept_of_eq hload host),
    Job.runOn_bind_of_ok (Job.runOn_ofExcept_of_eq (entryResult_of_ok hsubtract) host),
    if_pos hempty, Job.runOn_bind_of_ok (Job.runOn_onFiles_of_eq hdelete), Job.runOn_log]
  exact ⟨_, rfl⟩

theorem runOn_remove_of_not_isEmpty [Json.Nesting] (hload : load host.files path = .ok old)
    (hsubtract : old.subtract instances groups = .ok new) (hempty : ¬ new.isEmpty = true)
    (hsave : new.save path host.files = (.ok (), later)) :
    (remove instances groups path).runOn host = (.ok (), { host with files := later }) := by
  rw [remove, Job.runOn_bind_of_ok (Job.runOn_files host),
    Job.runOn_bind_of_ok (Job.runOn_ofExcept_of_eq hload host),
    Job.runOn_bind_of_ok (Job.runOn_ofExcept_of_eq (entryResult_of_ok hsubtract) host),
    if_neg hempty, Job.runOn_onFiles_of_eq hsave]

end Ledger

end NodeLedger
