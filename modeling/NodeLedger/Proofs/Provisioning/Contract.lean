import NodeLedger.Proofs.Ledger.Contract
import NodeLedger.Proofs.Provisioning.Stages

/-!
# Recording in a file that may hold anything

To record an instance or a group is to update the ledger and to handle its faults: the instance was
not recorded, or the group will not be deleted. A file whose content is beyond the reader leads to a
fault that is not handled, so it ends what was to be recorded.

- `Unstorable`: credentials that cannot be stored for a reason that nobody handles.
- `exists_ok_trackInstance_iff`: **when an instance that is recorded has an answer.** Besides the
  content, its credentials matter, if there are any.
- `Provisioning.prepare`: making sure of a group, up to recording it. `ok_ensureGroup_iff`: **when a
  group that was made sure of is returned.**
-/

namespace NodeLedger.Provisioning

open Cloud FileTree Text

section Handling

variable {σ α : Type} {job : Job σ α} {handler : Fault → Job σ α} {host after : Host σ}
  {family : FaultClass} {fault : Fault}

/-- What was foreseen is handled. -/
theorem exists_runOn_handling (h : Foreseen (job.runOn host).1)
    (hhandler : ∀ fault host, ∃ a after, (handler fault).runOn host = (.ok a, after)) :
    ∃ a after, (handling .ledger job handler).runOn host = (.ok a, after) := by
  rw [runOn_handling]
  cases hrun : job.runOn host with
  | mk outcome middle =>
    rw [hrun] at h
    cases outcome with
    | ok a => exact ⟨a, middle, rfl⟩
    | error fault =>
      obtain ⟨f, rfl⟩ := h fault rfl
      dsimp only
      rw [if_pos (Fault.isOf_ledger f).1]
      exact hhandler _ _

/-- A fault of no family is not handled. -/
theorem runOn_handling_of_class?_eq_none (hrun : job.runOn host = (.error fault, after))
    (hclass : fault.class? = none) :
    (handling family job handler).runOn host = (.error fault, after) := by
  rw [runOn_handling, hrun]
  dsimp only
  rw [Fault.isOf_of_class?_eq_none hclass, if_neg Bool.false_ne_true]

end Handling

variable {σ : Type} {run : Provisioning σ} {host start : Host σ} {bytes : List UInt8}

/-! ## Instances -/

section Instances

variable {machine : CodeText}

/-- Recording an instance has an answer unless the content of the file is beyond the reader. -/
theorem cases_of_runOn_recordInstance [Json.Nesting]
    (hread : host.files.read run.ledgerPath = .ok bytes)
    (hworkDir : Path.fault? host.files.workDir.path = none) (machine : CodeText) :
    (¬ Json.Beyond bytes ∧
        ∃ recorded after, (run.recordInstance machine).runOn host = (.ok recorded, after)) ∨
      Json.Beyond bytes ∧ ∃ fault, (run.recordInstance machine).runOn host = (.error fault, host) := by
  let call : LedgerCall := .append [machine] []
  by_cases hbeyond : Json.Beyond bytes
  · obtain ⟨fault, hrun, hclass⟩ := call.exists_runOn_job_of_beyond hread hbeyond
    refine .inr ⟨hbeyond, fault, ?_⟩
    exact runOn_handling_of_class?_eq_none (Job.runOn_bind_of_error hrun _) hclass
  · refine .inl ⟨hbeyond, exists_runOn_handling ?_ fun fault host => ⟨false, _, rfl⟩⟩
    have hforeseen : Foreseen ((Ledger.append [machine] [] run.ledgerPath :
        Job σ Unit).runOn host).1 := call.foreseen_job hread hworkDir hbeyond
    cases hrun : (Ledger.append [machine] [] run.ledgerPath :
        Job σ Unit).runOn host with
    | mk outcome after =>
      rw [hrun] at hforeseen
      cases outcome with
      | ok _ =>
        rw [Job.runOn_bind_of_ok hrun]
        exact foreseen_ok true
      | error fault =>
        obtain ⟨f, rfl⟩ := hforeseen fault rfl
        rw [Job.runOn_bind_of_error hrun]
        exact foreseen_ledger f

/-- Credentials that cannot be stored for a reason that nobody handles: no file can have the name of the
instance, or the file is open and the text of the credentials is no string. -/
def Unstorable (run : Provisioning σ) (machine : CodeText) (credentials : Credentials)
    (tree : FileTree) : Prop :=
  Path.fault? machine ≠ none ∨
    credentials.text.string? = none ∧ ∃ opened, tree.write (run.credentialsPath machine) [] = .ok opened

/-- What the file system refuses is handled when credentials are stored. -/
theorem foreseen_writeFile {tree : FileTree} {path content : CodeText} {fault : FileFault}
    (hpath : Path.fault? path = none)
    (hwrite : tree.write path (content.string?.elim [] fun text => encode text.toList) = .error fault) :
    Foreseen (Ledger.writeFile path content tree).1 := by
  rw [Ledger.writeFile, hwrite]
  refine foreseen_ofFile ?_ _ _
  rintro pathFault rfl
  exact onPath_ne_noPath hpath pathFault hwrite

section Storing

variable {credentials : Credentials}

/-- That no file can have the path of the credentials is not handled. -/
theorem runOn_storeCredentials_of_fault? {pathFault : PathFault}
    (hpath : Path.fault? (run.credentialsPath machine) = some pathFault) :
    (run.storeCredentials machine credentials).runOn host = (.error (.ofPath pathFault), host) := by
  refine runOn_handling_of_class?_eq_none ?_ (by cases pathFault <;> rfl)
  rw [Job.runOn_onFiles, Ledger.writeFile, write, onPath_of_fault? hpath]
  rfl

/-- That the file of the credentials is refused is handled. -/
theorem exists_runOn_storeCredentials_of_refused {fault : FileFault}
    (hpath : Path.fault? (run.credentialsPath machine) = none)
    (hwrite : host.files.write (run.credentialsPath machine)
      (credentials.text.string?.elim [] fun text => encode text.toList) = .error fault) :
    ∃ after, (run.storeCredentials machine credentials).runOn host = (.ok (), after) := by
  have hhandler : ∀ (fault : Fault) (host : Host σ), ∃ a after, (Job.log .warning
      ("Unable to write credentials of " ++ machine ++ ": " ++ fault.message) : Job σ Unit).runOn host
        = (.ok a, after) :=
    fun fault host => ⟨(), _, rfl⟩
  have hforeseen : Foreseen ((Job.onFiles (Ledger.writeFile (run.credentialsPath machine)
      credentials.text) : Job σ Unit).runOn host).1 := foreseen_writeFile hpath hwrite
  obtain ⟨_, after, hrun⟩ := exists_runOn_handling hforeseen hhandler
  exact ⟨after, hrun⟩

/-- Where the file can be opened, the credentials are stored if their text is a string. That it is none
is not handled. -/
theorem runOn_storeCredentials_of_written {written : FileTree}
    (hwrite : host.files.write (run.credentialsPath machine)
      (credentials.text.string?.elim [] fun text => encode text.toList) = .ok written) :
    (run.storeCredentials machine credentials).runOn host =
      ((credentials.text.proper.mapError Fault.halves).map fun _ => (),
        { host with files := written }) := by
  have hrun : (Job.onFiles (Ledger.writeFile (run.credentialsPath machine) credentials.text) :
      Job σ Unit).runOn host
        = ((credentials.text.proper.mapError Fault.halves).map fun _ => (),
          { host with files := written }) := by
    rw [Job.runOn_onFiles, Ledger.writeFile, hwrite]
    cases credentials.text.proper <;> rfl
  cases hproper : credentials.text.proper with
  | ok text =>
    rw [storeCredentials, runOn_handling, hrun, hproper]
    rfl
  | error half =>
    rw [hproper] at hrun
    exact runOn_handling_of_class?_eq_none hrun rfl

/-- Storing credentials fails if they cannot be stored for a reason that nobody handles, and only
then. -/
theorem cases_of_runOn_storeCredentials (hledger : Path.fault? run.ledgerPath = none)
    (machine : CodeText) (credentials : Credentials) (host : Host σ) :
    (¬ run.Unstorable machine credentials host.files ∧
        ∃ after, (run.storeCredentials machine credentials).runOn host = (.ok (), after)) ∨
      run.Unstorable machine credentials host.files ∧
        ∃ fault after, (run.storeCredentials machine credentials).runOn host = (.error fault, after) := by
  have hjoin : Path.fault? (run.credentialsPath machine) = none ↔ Path.fault? machine = none :=
    Path.fault?_beside_iff hledger machine
  cases hpath : Path.fault? (run.credentialsPath machine) with
  | some pathFault =>
    have hmachine : Path.fault? machine ≠ none := fun hnone => by
      rw [hjoin.2 hnone] at hpath
      cases hpath
    exact .inr ⟨.inl hmachine, _, _, runOn_storeCredentials_of_fault? hpath⟩
  | none =>
    have hmachine := hjoin.1 hpath
    cases hwrite : host.files.write (run.credentialsPath machine)
        (credentials.text.string?.elim [] fun text => encode text.toList) with
    | error fault =>
      -- Opening the file is refused, whatever the text is.
      refine .inl ⟨?_, exists_runOn_storeCredentials_of_refused hpath hwrite⟩
      rintro (hnot | ⟨hstring, opened, hopened⟩)
      · exact hnot hmachine
      · rw [hstring] at hwrite
        cases hopened.symm.trans hwrite
    | ok written =>
      have hrun := runOn_storeCredentials_of_written hwrite
      cases hproper : credentials.text.proper with
      | ok text =>
        rw [hproper] at hrun
        refine .inl ⟨?_, _, hrun⟩
        rintro (hnot | ⟨hstring, -⟩)
        · exact hnot hmachine
        · rw [CodeText.string?, hproper] at hstring
          cases hstring
      | error half =>
        rw [hproper] at hrun
        have hstring : credentials.text.string? = none := by
          rw [CodeText.string?, hproper]
          rfl
        rw [hstring] at hwrite
        exact .inr ⟨.inr ⟨hstring, written, hwrite⟩, _, _, hrun⟩

end Storing

/-- **When recording an instance has an answer**: the content of the file is not beyond the reader, and
an instance that was recorded has no credentials that cannot be stored. -/
theorem exists_ok_trackInstance_iff [Json.Nesting]
    (hread : host.files.read run.ledgerPath = .ok bytes)
    (hworkDir : Path.fault? host.files.workDir.path = none) (machine : CodeText)
    (credentials : Option Credentials) :
    (∃ recorded, ((run.trackInstance machine credentials).runOn host).1 = .ok recorded) ↔
      ¬ Json.Beyond bytes ∧ ¬ (((run.recordInstance machine).runOn host).1 = .ok true ∧
        ∃ c ∈ credentials, run.Unstorable machine c ((run.recordInstance machine).runOn host).2.files) := by
  rcases cases_of_runOn_recordInstance hread hworkDir machine with
    ⟨hbeyond, recorded, after, hrun⟩ | ⟨hbeyond, fault, hrun⟩
  · rw [and_iff_right hbeyond, trackInstance, Job.runOn_bind_of_ok hrun, hrun]
    -- Credentials are stored only for an instance that was recorded.
    cases recorded with
    | false => exact iff_of_true ⟨false, rfl⟩ fun h => by cases h.1
    | true =>
      rw [and_iff_right rfl, if_pos rfl]
      cases credentials with
      | none =>
        refine iff_of_true ⟨true, rfl⟩ ?_
        rintro ⟨c, hc, -⟩
        cases hc
      | some credentials =>
        rcases cases_of_runOn_storeCredentials (exists_place_of_read hread).1 machine credentials after
          with ⟨hnot, later, hstore⟩ | ⟨hunstorable, fault, later, hstore⟩
        · refine iff_of_true ⟨true, congrArg Prod.fst (Job.runOn_bind_of_ok hstore _)⟩ ?_
          rintro ⟨c, hc, hunstorable⟩
          cases hc
          exact hnot hunstorable
        · refine iff_of_false (fun ⟨answer, hanswer⟩ => ?_)
            (not_not.2 ⟨credentials, rfl, hunstorable⟩)
          have hfault := congrArg Prod.fst (Job.runOn_bind_of_error hstore
            fun _ => (pure true : Job σ Bool))
          have heq := hfault.symm.trans hanswer
          cases heq
  · refine iff_of_false (fun ⟨recorded, hok⟩ => ?_) fun h => h.1 hbeyond
    rw [trackInstance, Job.runOn_bind_of_error hrun] at hok
    cases hok

end Instances

/-! ## Groups -/

section Groups

variable {cluster network : String} {found group : GroupId}

/-- Make sure of the group of a cluster, up to recording it: the group that was found, if one was, and
the group that conforms to the policy. -/
def prepare (run : Provisioning σ) (cluster network : String) : Job σ (GroupId × GroupId) := do
  let requester ← run.ownAddress
  let found ← run.provider.find (run.provider.groupName cluster)
  let group ← run.findOrCreate found (run.provider.groupName cluster)
  run.conform group ⟨requester, network⟩
  return (found, group)

theorem ensureGroup_eq_prepare [Json.Nesting] (run : Provisioning σ) (cluster network : String) :
    run.ensureGroup cluster network =
      run.prepare cluster network >>= fun groups => run.recordNew groups.1 groups.2 := by
  rw [ensureGroup_eq]
  simp only [prepare, bind_assoc, pure_bind]

/-- Recording a group ends well unless the content of the file is beyond the reader. -/
theorem ok_recordGroup_iff [Json.Nesting] (hread : host.files.read run.ledgerPath = .ok bytes)
    (hworkDir : Path.fault? host.files.workDir.path = none) (group : GroupId) :
    (∃ after, (run.recordGroup group).runOn host = (.ok (), after)) ↔ ¬ Json.Beyond bytes := by
  let call : LedgerCall := .append [] group.toList
  refine ⟨fun ⟨after, hrun⟩ hbeyond => ?_, fun hbeyond => ?_⟩
  · obtain ⟨fault, hfault, hclass⟩ := call.exists_runOn_job_of_beyond hread hbeyond
    have hrecord : (run.recordGroup group).runOn host = (.error fault, host) :=
      runOn_handling_of_class?_eq_none hfault hclass
    rw [hrecord] at hrun
    cases hrun
  · have hhandler : ∀ (fault : Fault) (host : Host σ), ∃ a after, (if fault.isOf .duplicate then
          Job.log .debug ("Security group " ++ group.label ++ " is already tracked")
        else
          Job.log .warning ("Failed to record security group ID to file at '" ++ run.ledgerPath ++ "', "
            ++ "security group " ++ group.label ++ " will not be deleted: " ++ fault.message)
          : Job σ Unit).runOn host = (.ok a, after) := by
      intro fault host
      split
      · exact ⟨(), _, rfl⟩
      · exact ⟨(), _, rfl⟩
    obtain ⟨_, after, hrun⟩ :=
      exists_runOn_handling (call.foreseen_job hread hworkDir hbeyond) hhandler
    exact ⟨after, hrun⟩

/-- **When a group that was made sure of is returned**: it is not recorded at all, or the content of
the file is not beyond the reader. -/
theorem ok_ensureGroup_iff [Json.Nesting]
    (hprepare : (run.prepare cluster network).runOn start = (.ok (found, group), host))
    (hread : host.files.read run.ledgerPath = .ok bytes)
    (hworkDir : Path.fault? host.files.workDir.path = none) :
    ((run.ensureGroup cluster network).runOn start).1 = .ok group ↔
      ¬ ((found.isNone || run.provider.recordsFoundGroups) = true ∧ Json.Beyond bytes) := by
  rw [ensureGroup_eq_prepare, Job.runOn_bind_of_ok hprepare]
  dsimp only
  rw [recordNew]
  have hrecord := ok_recordGroup_iff hread hworkDir group
  by_cases hnew : (found.isNone || run.provider.recordsFoundGroups) = true
  · rw [if_pos hnew, and_iff_right hnew, ← hrecord]
    constructor
    · intro hok
      cases hrun : (run.recordGroup group).runOn host with
      | mk outcome after =>
        cases outcome with
        | ok _ => exact ⟨after, rfl⟩
        | error fault =>
          rw [Job.runOn_bind_of_error hrun] at hok
          cases hok
    · rintro ⟨after, hrun⟩
      rw [Job.runOn_bind_of_ok hrun]
      rfl
  · rw [if_neg hnew]
    exact iff_of_true rfl fun h => hnew h.1

end Groups

end NodeLedger.Provisioning
