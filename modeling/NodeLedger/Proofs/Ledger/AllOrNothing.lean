import NodeLedger.Proofs.FileTree.Links
import NodeLedger.Proofs.Ledger.Refinement

/-!
# Updates are all or nothing

An update reads the file, changes the entries, creates a new file beside the old one and moves it
over, or takes the file away. Any of these can fail, on any tree: the directory part of the path is
read by its text where the new file is created, and walked through links where it is moved, so the two
need not even be the same directory. Yet an update that fails leaves no trace if a file can have its
path, and one that succeeds changes one entry: the one that the path names. If that is a link, the link
is replaced, and what it leads to stays as it is. A path that no file can have is noticed by the move
only; then nobody takes the new file away.

- `LedgerCall.result`: the ledger that a call makes. `LedgerCall.replace`: what it then does to the
  files.
- `cases_of_runOn_job`: **a call makes no ledger and leaves the host as it was, or it makes one and
  replaces the file**.
- `Replaces`: what a call that succeeds has done. `LeavesBehind`: a call leaves its new file, since no
  file can have the path.
- `update_all_or_nothing_iff`: **every call leaves the files as they were or has done that, unless it
  leaves its new file behind**, on every tree and every path. `file_left_beside_unnamable` is a path for
  which it does.
- `files_of_fault`: a call with a fault that callers handle leaves nothing behind.

What is claimed is the tree before a call and the tree after it, not those that another process sees
in between.
-/

namespace NodeLedger

open Text FileTree

namespace Ledger

section Replacing

variable {ledger : Ledger} {tree later : FileTree} {path : CodeText} {fault : Fault}

/-- **What a save has done** that was not refused, whatever stood at the path before. -/
theorem exists_of_save (h : ledger.save path tree = (.ok (), later)) :
    ∃ directory name, tree.locate .replace path = .ok (.entry directory name false) ∧
      DiffersAt (directory ++ [name]) tree later ∧
      later.node? (directory ++ [name]) = some (.file (encode ledger.text.toList) plainMode) := by
  unfold save at h
  split at h
  · cases h
  rename_i location temporary written hcreate
  obtain ⟨hwritten, hnode⟩ := filledAt_of_createBeside hcreate
  split at h
  · rename_i moved hmove
    cases h
    exact exists_of_move hwritten hnode hmove
  · cases h
  · cases h

theorem fault?_of_save (h : ledger.save path tree = (.ok (), later)) : Path.fault? path = none := by
  unfold save at h
  split at h
  · cases h
  split at h
  · rename_i hmove
    exact fault?_of_move hmove
  · cases h
  · cases h

/-- **Where no file can have the path**, the new file stays, if it could be created. -/
theorem save_of_fault? {pathFault : PathFault} {location : Location} {temporary : CodeText}
    (hpath : Path.fault? path = some pathFault)
    (hcreate : tree.createBeside path (encode ledger.text.toList) = .ok (location, temporary, later)) :
    ledger.save path tree = (.error (.ofPath pathFault), later) := by
  unfold save
  rw [hcreate]
  dsimp only
  rw [move_eq_noPath_iff.2 hpath]

theorem save_of_not_created {fileFault : FileFault}
    (hcreate : tree.createBeside path (encode ledger.text.toList) = .error fileFault) :
    ledger.save path tree = (.error (.ofFile .write path fileFault), tree) := by
  unfold save
  rw [hcreate]

theorem save_eq_of_isOf (h : ledger.save path tree = (.error fault, later))
    (hfault : fault.isOf .ledger = true) : later = tree := by
  unfold save at h
  split at h
  · cases h
    rfl
  rename_i hcreate
  split at h
  · cases h
  · -- The one fault that leaves the new file behind is of no family.
    rename_i pathFault _
    cases h
    cases pathFault <;> cases hfault
  · cases h
    exact erase_of_createBeside hcreate

theorem exists_of_deleteFile (h : deleteFile path tree = (.ok (), later)) :
    ∃ directory name, tree.locate .replace path = .ok (.entry directory name false) ∧
      DiffersAt (directory ++ [name]) tree later ∧ later.node? (directory ++ [name]) = none := by
  unfold deleteFile at h
  split at h
  · rename_i rest hremove
    cases h
    exact exists_of_remove hremove
  · cases h

/-- A file that could not be deleted is still there. -/
theorem deleteFile_eq_of_error (h : deleteFile path tree = (.error fault, later)) :
    later = tree := by
  unfold deleteFile at h
  split at h
  · cases h
  · cases h
    rfl

end Replacing

end Ledger

namespace LedgerCall

/-- The ledger that a call makes of the file, or the fault that keeps it from making one. -/
def result [Json.Nesting] (tree : FileTree) (path : CodeText) : LedgerCall → Except Fault Ledger
  | append instances groups => do
    let ledger ← Ledger.loadOrEmpty tree path
    Ledger.entryResult (ledger.add instances groups)
  | remove instances groups => do
    let ledger ← Ledger.load tree path
    Ledger.entryResult (ledger.subtract instances groups)

/-- The call takes the file away when it leaves the ledger: nothing is left to forget. -/
def clears : LedgerCall → Ledger → Bool
  | append _ _, _ => false
  | remove _ _, ledger => ledger.isEmpty

/-- What stands in the place of the file when the call has made a ledger. -/
def stored? (call : LedgerCall) (ledger : Ledger) : Option Node :=
  if call.clears ledger then none else some (.file (encode ledger.text.toList) plainMode)

/-- What the call does to the files when it has made a ledger. -/
def replace (call : LedgerCall) (ledger : Ledger) (path : CodeText) (tree : FileTree) :
    Except Fault Unit × FileTree :=
  if call.clears ledger then Ledger.deleteFile path tree else ledger.save path tree

/-- What a call that succeeds has done: the entry that the path names holds the new ledger, or is gone
with the last of its entries. Nothing else in the tree has changed; and if a link stood there, this
goes for what the link leads to. -/
structure Replaces [Json.Nesting] (call : LedgerCall) (path : CodeText) (ledger : Ledger)
    (directory : Location) (name : CodeText) (tree later : FileTree) : Prop where
  place : tree.locate .replace path = .ok (.entry directory name false)
  result : call.result tree path = .ok ledger
  entry : later.node? (directory ++ [name]) = call.stored? ledger
  differs : DiffersAt (directory ++ [name]) tree later
  beyond : ∀ target above last slash, tree.node? (directory ++ [name]) = some (.link target) →
    tree.locate .look path = .ok (.entry above last slash) →
      above ++ [last] ≠ directory ++ [name] ∧
        later.node? (above ++ [last]) = tree.node? (above ++ [last])

section Call

variable {σ : Type} {call : LedgerCall} {path name : CodeText} {directory : Location} {ledger : Ledger}
  {tree later : FileTree} {host after : Host σ} {outcome : Except Fault Unit} {fault : Fault}

theorem eq_of_runOn_onFiles {change : FileTree → Except Fault Unit × FileTree}
    (h : (Job.onFiles change : Job σ Unit).runOn host = (outcome, after)) :
    change host.files = (outcome, after.files) := by
  rw [Job.runOn_onFiles] at h
  cases h
  rfl

/-- What is logged afterwards changes neither the outcome of a change nor the files. -/
theorem eq_of_runOn_onFiles_log {change : FileTree → Except Fault Unit × FileTree} {level : LogLevel}
    {message : CodeText}
    (h : (Job.onFiles change >>= fun _ => Job.log level message : Job σ Unit).runOn host
      = (outcome, after)) :
    change host.files = (outcome, after.files) := by
  rcases Job.cases_of_runOn_bind h with ⟨fault, hchange, rfl⟩ | ⟨_, middle, hchange, hlog⟩
  · exact eq_of_runOn_onFiles hchange
  · have hfiles := eq_of_runOn_onFiles hchange
    rw [Job.runOn_log] at hlog
    cases hlog
    exact hfiles

/-- A result is a fault, which ends the job where it is, or something to go on with. -/
theorem cases_of_runOn_ofExcept_bind {result : Except Fault Ledger} {next : Ledger → Job σ Unit}
    (h : (Job.ofExcept result >>= next).runOn host = (outcome, after)) :
    (∃ fault, result = .error fault ∧ outcome = .error fault ∧ after = host) ∨
      ∃ ledger, result = .ok ledger ∧ (next ledger).runOn host = (outcome, after) := by
  cases result with
  | error fault =>
    cases h
    exact .inl ⟨fault, rfl, rfl, rfl⟩
  | ok ledger => exact .inr ⟨ledger, rfl, h⟩

/-- A call makes no ledger and leaves the host as it was, or it makes one and replaces the file. -/
theorem cases_of_runOn_job [Json.Nesting] (h : (call.job path).runOn host = (outcome, after)) :
    (∃ fault, call.result host.files path = .error fault ∧ outcome = .error fault ∧ after = host) ∨
      ∃ ledger, call.result host.files path = .ok ledger ∧
        call.replace ledger path host.files = (outcome, after.files) := by
  cases call with
  | append instances groups =>
    rw [job, Ledger.append, Job.runOn_bind_of_ok (Job.runOn_files host)] at h
    rcases cases_of_runOn_ofExcept_bind h with ⟨fault, hload, rest⟩ | ⟨old, hload, h⟩
    · refine .inl ⟨fault, ?_, rest⟩
      rw [result, hload]
      rfl
    rw [result, hload]
    rcases cases_of_runOn_ofExcept_bind h with ⟨fault, hadd, rest⟩ | ⟨ledger, hadd, h⟩
    · exact .inl ⟨fault, hadd, rest⟩
    · have hclears : (append instances groups).clears ledger ≠ true := Bool.false_ne_true
      refine .inr ⟨ledger, hadd, ?_⟩
      rw [replace, if_neg hclears]
      exact eq_of_runOn_onFiles_log h
  | remove instances groups =>
    rw [job, Ledger.remove, Job.runOn_bind_of_ok (Job.runOn_files host)] at h
    rcases cases_of_runOn_ofExcept_bind h with ⟨fault, hload, rest⟩ | ⟨old, hload, h⟩
    · refine .inl ⟨fault, ?_, rest⟩
      rw [result, hload]
      rfl
    rw [result, hload]
    rcases cases_of_runOn_ofExcept_bind h with ⟨fault, hsubtract, rest⟩ | ⟨ledger, hsubtract, h⟩
    · exact .inl ⟨fault, hsubtract, rest⟩
    refine .inr ⟨ledger, hsubtract, ?_⟩
    by_cases hclears : (remove instances groups).clears ledger = true
    · rw [if_pos (show ledger.isEmpty = true from hclears)] at h
      rw [replace, if_pos hclears]
      exact eq_of_runOn_onFiles_log h
    · rw [if_neg (show ¬ ledger.isEmpty = true from hclears)] at h
      rw [replace, if_neg hclears]
      exact eq_of_runOn_onFiles h

/-- What a call could not do to the files has left them as they were. -/
theorem replace_eq_of_error (hpath : Path.fault? path = none)
    (h : call.replace ledger path tree = (.error fault, later)) : later = tree := by
  unfold replace at h
  split at h
  · exact Ledger.deleteFile_eq_of_error h
  · exact Ledger.save_eq_of_error h hpath

/-- **An update with a fault that is handled** has left the files alone, on every path. -/
theorem files_of_fault [Json.Nesting] (h : (call.job path).runOn host = (.error fault, after))
    (hfault : fault.isOf .ledger = true) : after.files = host.files := by
  rcases cases_of_runOn_job h with ⟨_, -, -, rfl⟩ | ⟨ledger, -, hreplace⟩
  · rfl
  unfold replace at hreplace
  split at hreplace
  · exact Ledger.deleteFile_eq_of_error hreplace
  · exact Ledger.save_eq_of_isOf hreplace hfault

/-- What a call has done to the files, it has done to the entry that the path names. -/
theorem exists_of_replace (h : call.replace ledger path tree = (.ok (), later)) :
    ∃ directory name, tree.locate .replace path = .ok (.entry directory name false) ∧
      DiffersAt (directory ++ [name]) tree later ∧
      later.node? (directory ++ [name]) = call.stored? ledger := by
  unfold replace at h
  unfold stored?
  split at h
  · rename_i hclears
    rw [if_pos hclears]
    exact Ledger.exists_of_deleteFile h
  · rename_i hclears
    rw [if_neg hclears]
    exact Ledger.exists_of_save h

/-- What a call that succeeds has done, on any path. -/
theorem exists_replaces [Json.Nesting] (hok : ((call.job path).runOn host).1 = .ok ()) :
    ∃ ledger directory name,
      call.Replaces path ledger directory name host.files ((call.job path).runOn host).2.files := by
  rcases cases_of_runOn_job (Prod.mk.eta (p := (call.job path).runOn host)).symm with
    ⟨fault, -, houtcome, -⟩ | ⟨ledger, hresult, hreplace⟩
  · rw [hok] at houtcome
    cases houtcome
  rw [hok] at hreplace
  obtain ⟨directory, name, hplace, hdiffers, hentry⟩ := exists_of_replace hreplace
  refine ⟨ledger, directory, name, hplace, hresult, hentry, hdiffers, ?_⟩
  intro target above last slash hlink hlook
  -- A path is never looked at where a link stands, so what it leads to is another entry.
  have hother : above ++ [last] ≠ directory ++ [name] := by
    intro heq
    rw [← heq] at hlink
    exact noLinkAt_of_locate_look hlook target hlink
  exact ⟨hother, hdiffers.other _ hother⟩

/-- A call leaves its new file behind: no file can have the path, which is noticed only when the new
file is to be moved there. -/
structure LeavesBehind [Json.Nesting] (call : LedgerCall) (path : CodeText)
    (tree later : FileTree) : Prop where
  impossible : ∃ pathFault, Path.fault? path = some pathFault
  created : ∃ ledger location temporary, call.result tree path = .ok ledger ∧
    call.clears ledger = false ∧
      tree.createBeside path (encode ledger.text.toList) = .ok (location, temporary, later)

/-- **What a call leaves behind** that leaves anything: one new file, and the fault is that of the
path. -/
theorem LeavesBehind.runOn_job [Json.Nesting] (h : call.LeavesBehind path host.files later) :
    (∃ pathFault, Path.fault? path = some pathFault ∧
        ((call.job path).runOn host).1 = .error (.ofPath pathFault)) ∧
      ((call.job path).runOn host).2.files = later ∧
      ∃ location, FilledAt location host.files later ∧ (later.node? location).isSome = true := by
  obtain ⟨⟨pathFault, hpath⟩, ledger, location, temporary, hresult, hclears, hcreate⟩ := h
  obtain ⟨hfilled, hnode⟩ := filledAt_of_createBeside hcreate
  rcases cases_of_runOn_job (Prod.mk.eta (p := (call.job path).runOn host)).symm with
    ⟨fault, herror, -, -⟩ | ⟨other, hok, hreplace⟩
  · cases herror.symm.trans hresult
  cases hresult.symm.trans hok
  rw [replace, if_neg (Bool.eq_false_iff.1 hclears), Ledger.save_of_fault? hpath hcreate] at hreplace
  obtain ⟨houtcome, hfiles⟩ := Prod.mk.inj hreplace
  exact ⟨⟨pathFault, hpath, houtcome.symm⟩, hfiles.symm, location, hfilled, by rw [hnode]; rfl⟩

/-- What a call could not do to the files has left them as they were, or its new file behind. -/
theorem eq_or_leavesBehind [Json.Nesting] (hresult : call.result tree path = .ok ledger)
    (h : call.replace ledger path tree = (.error fault, later)) :
    later = tree ∨ call.LeavesBehind path tree later := by
  cases hpath : Path.fault? path with
  | none => exact .inl (replace_eq_of_error hpath h)
  | some pathFault =>
    unfold replace at h
    split at h
    · exact .inl (Ledger.deleteFile_eq_of_error h)
    rename_i hclears
    cases hcreate : tree.createBeside path (encode ledger.text.toList) with
    | error fileFault =>
      rw [Ledger.save_of_not_created hcreate] at h
      exact .inl (Prod.mk.inj h).2.symm
    | ok made =>
      obtain ⟨location, temporary, written⟩ := made
      rw [Ledger.save_of_fault? hpath hcreate] at h
      obtain rfl := (Prod.mk.inj h).2
      exact .inr ⟨⟨pathFault, hpath⟩, ledger, location, temporary, hresult,
        Bool.eq_false_iff.2 hclears, hcreate⟩

/-- **Every call is all or nothing**, on every tree and every path, unless it leaves its new file
behind: no file can have the path, and the new file was created before that was noticed. -/
theorem update_all_or_nothing_iff [Json.Nesting] (host : Host σ) (call : LedgerCall)
    (path : CodeText) :
    (((call.job path).runOn host).1 = .ok () → ∃ ledger directory name,
        call.Replaces path ledger directory name host.files ((call.job path).runOn host).2.files) ∧
      (∀ fault, ((call.job path).runOn host).1 = .error fault →
        (((call.job path).runOn host).2.files = host.files ↔
          ¬ ∃ later, call.LeavesBehind path host.files later)) ∧
      ∀ later, call.LeavesBehind path host.files later →
        (∃ pathFault, Path.fault? path = some pathFault ∧
            ((call.job path).runOn host).1 = .error (.ofPath pathFault)) ∧
          ((call.job path).runOn host).2.files = later ∧
          ∃ location, FilledAt location host.files later ∧ (later.node? location).isSome = true := by
  refine ⟨exists_replaces, fun fault houtcome => ⟨?_, fun hnothing => ?_⟩,
    fun later => LeavesBehind.runOn_job⟩
  · -- The file that stays stands where nothing stood.
    rintro hsame ⟨later, hleaves⟩
    obtain ⟨-, hfiles, location, hfilled, hthere⟩ := hleaves.runOn_job
    rw [← hfiles, hsame, hfilled.vacant] at hthere
    cases hthere
  · rcases cases_of_runOn_job (Prod.mk.eta (p := (call.job path).runOn host)).symm with
      ⟨other, -, -, hafter⟩ | ⟨ledger, hresult, hreplace⟩
    · rw [hafter]
    · rw [houtcome] at hreplace
      exact (eq_or_leavesBehind hresult hreplace).resolve_right fun hleaves => hnothing ⟨_, hleaves⟩

attribute [local instance] Json.Nesting.usual

/-- The link is replaced by a file with both entries; the file that it led to keeps its only one. -/
theorem append_through_link :
    let tree : FileTree := ⟨[(["srv"], .directory), (["srv", "ledger"], .link "list"),
      (["srv", "list"], .file (encode "\x7b\"InstanceIDs\":[\"i-1\"]\x7d".toList) 0o600)], ["srv"]⟩
    let host : Host Unit := ⟨tree, [], ()⟩
    let call : LedgerCall := .append [] ["sg-1"]
    ((call.job "ledger").runOn host).1 = .ok () ∧
      ∃ ledger directory name,
        call.Replaces "ledger" ledger directory name tree ((call.job "ledger").runOn host).2.files := by
  intro tree host call
  have houtcome : ((call.job "ledger").runOn host).1 = .ok () := by decide +kernel
  exact ⟨houtcome, (update_all_or_nothing_iff host call "ledger").1 houtcome⟩

/-- A half without a byte is noticed too late: the new file of the first entry stays. -/
theorem file_left_beside_unnamable :
    let path : CodeText := ⟨.half 0 :: CodeText.points ".json"⟩
    let host : Host Unit := ⟨⟨[(["srv"], .directory)], ["srv"]⟩, [], ()⟩
    let result := ((LedgerCall.append ["i-1"] []).job path).runOn host
    .char '\x00' ∉ path.points ∧ result.1 = .error (.halves ⟨0, 0, 1⟩) ∧
      result.2.files.node? ["srv", temporaryName 0]
        = some (.file (encode "\x7b\"InstanceIDs\":[\"i-1\"],\"SecurityGroupIDs\":[]\x7d".toList) 0o644) ∧
      ¬ ∀ fault, result.1 = .error fault → result.2.files = host.files := by
  intro path host result
  have houtcome : result.1 = .error (.halves ⟨0, 0, 1⟩) := by decide +kernel
  have hleft : result.2.files.node? ["srv", temporaryName 0]
      = some (.file (encode "\x7b\"InstanceIDs\":[\"i-1\"],\"SecurityGroupIDs\":[]\x7d".toList) 0o644) := by
    decide +kernel
  refine ⟨by decide, houtcome, hleft, fun h => ?_⟩
  rw [h _ houtcome] at hleft
  revert hleft
  decide +kernel

end Call

end LedgerCall

end NodeLedger
