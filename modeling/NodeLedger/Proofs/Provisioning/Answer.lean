import NodeLedger.Proofs.Ledger.Repeats
import NodeLedger.Proofs.Provisioning.Accounts

/-!
# What the answer tells

To record an instance is to write two files: the ledger, and after it the credentials, whose path is
made of the name of the instance. The answer is about the ledger. A name may be any text, so the path of
the credentials may leave the directory, come back to it, and go through links; and the ledger may lie
behind links itself.

- `EndsOnce`: a path does not go through the entry that it names. `endsOnce_of_loadOrEmpty`: **a path of
  a ledger ends once, unless it has too many links to be looked at**.
- `LeadsAway`: no file is written through one path where another path has put its own.
- `LedgerCall.exists_of_append`: **what was added can be read through the path again**, whatever stood
  there before.
- `answer_tells_what_is_listed`: **an instance was recorded exactly as the answer says.** A no leaves
  every file as it was; after a yes the ledger lists the instance beside all that it listed before.

An instance without a name is never listed, and the answer is yes. Nothing is claimed of a name that
splits a character, of credentials whose path leads to the ledger file, or of a ledger that stands in the
way of its own path.
-/

namespace NodeLedger

open Text

namespace FileTree

section Paths

variable {tree middle later : FileTree} {path other name : CodeText} {directory : Location}
  {content bytes : List UInt8} {mode : Nat}

/-- The path does not go through the entry that it names: without that entry it names the same one. -/
def EndsOnce (tree : FileTree) (path : CodeText) : Prop :=
  ∀ directory name, tree.locate .replace path = .ok (.entry directory name false) →
    (tree.erase (directory ++ [name])).locate .replace path = .ok (.entry directory name false)

/-- When a file has been put in place of the entry that a path names, no file is written to that place
through the other path. -/
def LeadsAway (tree : FileTree) (path other : CodeText) : Prop :=
  ∀ directory name, tree.locate .replace path = .ok (.entry directory name false) →
    ∀ slash, (tree.erase (directory ++ [name])).locate .write other ≠ .ok (.entry directory name slash)

/-- A file in the place of an entry is in the way of no path that is free without the entry. -/
theorem alike_erase_of_differsAt (hdiffers : DiffersAt (directory ++ [name]) tree later)
    (hnode : later.node? (directory ++ [name]) = some (.file content mode)) :
    Alike (tree.erase (directory ++ [name])) later := by
  have hgone : (tree.erase (directory ++ [name])).node? (directory ++ [name]) = none :=
    node?_erase_self (append_singleton_ne_nil directory name)
  exact alike_of_other hdiffers.workDir (fixture?_of_none hgone) (fixture?_of_file hnode)
    fun l hl => (hdiffers.other l hl).trans (node?_erase_of_ne hl).symm

/-- What was put at the end of a path is looked at through it. -/
theorem EndsOnce.look (h : EndsOnce tree path)
    (hplace : tree.locate .replace path = .ok (.entry directory name false))
    (hdiffers : DiffersAt (directory ++ [name]) tree later)
    (hnode : later.node? (directory ++ [name]) = some (.file content mode)) :
    later.locate .look path = .ok (.entry directory name false) := by
  have hlater := locate_of_alike (alike_erase_of_differsAt hdiffers hnode) (h directory name hplace)
  refine locate_look_of_replace hlater fun target hlink => ?_
  cases hnode.symm.trans hlink

/-- **What was put somewhere is still read** after a file was written through a path that leads away. -/
theorem LeadsAway.read (haway : LeadsAway tree path other) (hpath : Path.fault? path = none)
    (hplace : tree.locate .replace path = .ok (.entry directory name false))
    (hdiffers : DiffersAt (directory ++ [name]) tree middle)
    (hnode : middle.node? (directory ++ [name]) = some (.file content mode))
    (hlook : middle.locate .look path = .ok (.entry directory name false))
    (hwrite : middle.write other bytes = .ok later) : later.read path = .ok content := by
  obtain ⟨above, last, slash, _, hwritten, hchange, hvacant, hthere⟩ := exists_of_write hwrite
  -- Without what was put there, the other path leads to the same place.
  have halike := (alike_erase_of_differsAt hdiffers hnode).symm
  have hother : directory ++ [name] ≠ above ++ [last] := by
    intro heq
    obtain ⟨rfl, hlast⟩ := List.append_inj' heq rfl
    cases List.singleton_inj.1 hlast
    exact haway directory name hplace slash (locate_of_alike halike hwritten)
  have hlater : Alike middle later :=
    alike_of_other hchange.workDir hvacant (fixture?_of_file hthere) hchange.other
  exact read_of_locate hpath (locate_of_alike hlater hlook) ((hchange.other _ hother).trans hnode)

end Paths

end FileTree

open FileTree

/-! ## Adding on any path -/

namespace Ledger

section Path

variable [Json.Nesting] {tree : FileTree} {path : CodeText} {old : Ledger}

/-- A directory is present, but it is no ledger. -/
theorem directoryAt?_of_loadOrEmpty (h : loadOrEmpty tree path = .ok old)
    (hpath : Path.fault? path = none) {place : Place} (hplace : tree.locate .look path = .ok place) :
    tree.directoryAt? place ≠ some true := by
  intro hdirectory
  have hpresent : tree.present path = true := by
    rw [present, kindOf?_of_none hpath, hplace]
    dsimp only
    rw [hdirectory]
    rfl
  rw [loadOrEmpty, if_pos hpresent] at h
  obtain ⟨bytes, hread⟩ := exists_read_of_load h
  obtain ⟨-, seen, hseen, hfile⟩ := exists_place_of_read hread
  cases hplace.symm.trans hseen
  cases hdirectory.symm.trans hfile

/-- **A path of a ledger ends once**, unless it has too many links to be looked at. -/
theorem endsOnce_of_loadOrEmpty (h : loadOrEmpty tree path = .ok old)
    (hpath : Path.fault? path = none) (hlook : tree.locate .look path ≠ .error .tooManyLinks) : EndsOnce tree path := by
  intro directory name hplace
  have hgone : (tree.erase (directory ++ [name])).node? (directory ++ [name]) = none :=
    node?_erase_self (append_singleton_ne_nil directory name)
  exact locate_replace_of_differsAt hplace hlook
    (fun _ hseen => directoryAt?_of_loadOrEmpty h hpath hseen)
    ⟨rfl, fun l hl => node?_erase_of_ne hl⟩ (fixture?_of_none hgone)

end Path

end Ledger

namespace LedgerCall

variable {σ : Type} {path : CodeText} {host after : Host σ} {instances groups : List CodeText}

/-- What a call that added entries has done: the path leads to a file that holds the ledger with the
new entries, at the entry that it named before. -/
structure Added [Json.Nesting] (instances groups : List CodeText) (path : CodeText)
    (old new : Ledger) (directory : Location) (name : CodeText) (tree later : FileTree) : Prop where
  noFault : Path.fault? path = none
  place : tree.locate .replace path = .ok (.entry directory name false)
  differs : DiffersAt (directory ++ [name]) tree later
  file : later.node? (directory ++ [name]) = some (.file (encode new.text.toList) plainMode)
  look : later.locate .look path = .ok (.entry directory name false)
  loaded : Ledger.loadOrEmpty tree path = .ok old
  ledger : new = ⟨Ledger.sortEntries (Ledger.filled instances ++ old.instances),
    Ledger.sortEntries (Ledger.filled groups ++ old.groups)⟩

/-- **What was added can be read through the path again**, whatever stood there before. -/
theorem exists_of_append [Json.Nesting]
    (h : ((append instances groups).job path).runOn host = (.ok (), after))
    (hends : EndsOnce host.files path) :
    ∃ old new directory name,
      Added instances groups path old new directory name host.files after.files := by
  rcases cases_of_runOn_job h with ⟨_, -, heq, -⟩ | ⟨new, hresult, hreplace⟩
  · cases heq
  have hclears : (append instances groups).clears new ≠ true := Bool.false_ne_true
  rw [replace, if_neg hclears] at hreplace
  have hpath := Ledger.fault?_of_save hreplace
  obtain ⟨directory, name, hplace, hdiffers, hfile⟩ := Ledger.exists_of_save hreplace
  obtain ⟨old, hload, -⟩ := exists_of_bind_eq_ok hresult
  exact ⟨old, new, directory, name, hpath, hplace, hdiffers, hfile, hends.look hplace hdiffers hfile,
    hload, eq_of_append hload hresult⟩

/-- The ledger is loaded from every file that holds it: its lists are in order. -/
theorem Added.load [Json.Nesting] {old new : Ledger} {directory : Location} {name : CodeText}
    {tree later read : FileTree} (h : Added instances groups path old new directory name tree later)
    (hunsplit : Ledger.Unsplit ⟨instances, groups⟩)
    (hread : read.read path = .ok (encode new.text.toList)) : Ledger.load read path = .ok new := by
  have hnew : new.Unsplit := by
    rw [h.ledger]
    exact Ledger.unsplit_of_added (Ledger.unsplit_of_loadOrEmpty h.loaded) hunsplit
  rw [Ledger.load_of_read hnew hread, h.ledger, Ledger.sortEntries_sortEntries,
    Ledger.sortEntries_sortEntries]

end LedgerCall

/-! ## The answer -/

namespace Provisioning

open Cloud Ledger

section Answer

variable {σ : Type} {run : Provisioning σ} {host after : Host σ} {machine : CodeText} {recorded : Bool}
  {credentials : Credentials}

/-- An instance is recorded by the ledger, or nothing has changed. -/
theorem cases_of_recorded [Json.Nesting]
    (h : (run.recordInstance machine).runOn host = (.ok recorded, after)) :
    (recorded = false ∧ after.files = host.files) ∨ recorded = true ∧
      ((LedgerCall.append [machine] []).job run.ledgerPath).runOn host = (.ok (), after) := by
  rw [recordInstance, runOn_handling] at h
  cases hrun : (Ledger.append [machine] [] run.ledgerPath : Job σ Unit).runOn host with
  | mk outcome middle =>
    cases outcome with
    | ok _ =>
      rw [Job.runOn_bind_of_ok hrun] at h
      cases h
      exact .inr ⟨rfl, hrun⟩
    | error fault =>
      rw [Job.runOn_bind_of_error hrun] at h
      dsimp only at h
      split at h
      · rename_i hfault
        have hupdate : ((LedgerCall.append [machine] []).job run.ledgerPath).runOn host
            = (.error fault, middle) := hrun
        have hfiles : middle.files = host.files := LedgerCall.files_of_fault hupdate hfault
        cases h
        exact .inl ⟨rfl, hfiles⟩
      · cases h

/-- Credentials are written to their path, or nothing has changed. -/
theorem cases_of_stored (h : (run.storeCredentials machine credentials).runOn host = (.ok (), after)) :
    after.files = host.files ∨
      ∃ content, host.files.write (Path.join run.directory machine) content = .ok after.files := by
  rw [storeCredentials, runOn_handling, Job.runOn_onFiles] at h
  generalize hcontent : credentials.text.string?.elim [] (fun text => encode text.toList) = content
  rw [writeFile, hcontent] at h
  cases hwrite : host.files.write (run.credentialsPath machine) content with
  | ok written =>
    rw [hwrite] at h
    cases hproper : credentials.text.proper with
    | ok text =>
      rw [hproper] at h
      cases h
      exact .inr ⟨content, hwrite⟩
    | error half =>
      -- A half in the credentials ends the run.
      rw [hproper] at h
      cases h
  | error fault =>
    rw [hwrite] at h
    dsimp only at h
    split at h
    · cases h
      exact .inl rfl
    · cases h

/-- What was recorded is read after everything else that was written. -/
theorem read_of_stored [Json.Nesting] {old new : Ledger} {directory : Location} {name : CodeText}
    {tree : FileTree}
    (h : LedgerCall.Added [machine] [] run.ledgerPath old new directory name tree host.files)
    (haway : LeadsAway tree run.ledgerPath (Path.join run.directory machine))
    (hstore : (run.storeCredentials machine credentials).runOn host = (.ok (), after)) :
    after.files.read run.ledgerPath = .ok (encode new.text.toList) := by
  rcases cases_of_stored hstore with hfiles | ⟨content, hwrite⟩
  · rw [hfiles]
    exact read_of_locate h.noFault h.look h.file
  · exact haway.read h.noFault h.place h.differs h.file h.look hwrite

theorem mem_filled_singleton {i : CodeText} :
    i ∈ filled [machine] ↔ i = machine ∧ machine ≠ "" := by
  rw [filled, List.mem_filter, List.mem_singleton]
  refine and_congr_right fun heq => ?_
  rw [heq, decide_eq_true_eq]

/-- The answer is a no and nothing has changed, or it is a yes, whatever came of the credentials. -/
theorem cases_of_answer [Json.Nesting] {credentials : Option Credentials}
    (h : (run.trackInstance machine credentials).runOn host = (.ok recorded, after)) :
    (recorded = false ∧ after.files = host.files) ∨ recorded = true ∧ ∃ middle,
      ((LedgerCall.append [machine] []).job run.ledgerPath).runOn host = (.ok (), middle) ∧
      (after = middle ∨ ∃ c, credentials = some c ∧
        (run.storeCredentials machine c).runOn middle = (.ok (), after)) := by
  rw [trackInstance] at h
  obtain ⟨_, -, heq⟩ | ⟨answer, middle, hrecord, h⟩ := Job.cases_of_runOn_bind h
  · cases heq
  rcases cases_of_recorded hrecord with ⟨rfl, hfiles⟩ | ⟨rfl, happend⟩
  · cases h
    exact .inl ⟨rfl, hfiles⟩
  cases credentials with
  | none =>
    cases h
    exact .inr ⟨rfl, after, happend, .inl rfl⟩
  | some c =>
    obtain ⟨_, -, heq⟩ | ⟨⟨⟩, last, hstore, h⟩ := Job.cases_of_runOn_bind h
    · cases heq
    · cases h
      exact .inr ⟨rfl, middle, happend, .inr ⟨c, rfl, hstore⟩⟩

/-- **An instance was recorded exactly as the answer says.** After a no every file is as it was. After a
yes the ledger lists the instance, if it has a name, beside all that it listed before: unless the name
splits a character, the ledger stands in the way of its own path, or the credentials are written over
it. -/
theorem answer_tells_what_is_listed [Json.Nesting] {credentials : Option Credentials}
    (h : (run.trackInstance machine credentials).runOn host = (.ok recorded, after)) :
    (recorded = false → after.files = host.files) ∧
      (recorded = true → machine.Unsplit → EndsOnce host.files run.ledgerPath →
        (credentials.isSome = true →
          LeadsAway host.files run.ledgerPath (Path.join run.directory machine)) →
        ∃ ledger, load after.files run.ledgerPath = .ok ledger ∧
          (∀ i, i ∈ ledger.instances ↔
            (i = machine ∧ machine ≠ "") ∨ i ∈ instancesIn host.files run.ledgerPath) ∧
          ∀ g, g ∈ ledger.groups ↔ g ∈ groupsIn host.files run.ledgerPath) := by
  rcases cases_of_answer h with ⟨rfl, hfiles⟩ | ⟨rfl, middle, happend, hstored⟩
  · exact ⟨fun _ => hfiles, fun hyes => by cases hyes⟩
  refine ⟨(fun hno => by cases hno), fun _ hunsplit hends haway => ?_⟩
  obtain ⟨old, new, directory, name, hadded⟩ := LedgerCall.exists_of_append happend hends
  have hread : after.files.read run.ledgerPath = .ok (encode new.text.toList) := by
    rcases hstored with rfl | ⟨c, rfl, hstore⟩
    · exact read_of_locate hadded.noFault hadded.look hadded.file
    · exact read_of_stored hadded (haway rfl) hstore
  have hentries : Ledger.Unsplit ⟨[machine], []⟩ :=
    ⟨List.forall_mem_singleton.2 hunsplit, List.forall_mem_nil _⟩
  obtain ⟨hinstances, hgroups⟩ := lists_of_loadOrEmpty hadded.loaded
  refine ⟨new, hadded.load hentries hread, fun i => ?_, fun g => ?_⟩
  · rw [hadded.ledger, mem_sortEntries, List.mem_append, mem_filled_singleton, hinstances]
  · rw [hadded.ledger, mem_sortEntries, hgroups]
    rfl

end Answer

/-! ## Answers on an empty directory -/

/-- A run on AWS with a ledger file. -/
def onLedger (path : CodeText) : Provisioning Rehearsal :=
  onPlatform (.ec2 Rehearsal.ec2 (some "vpc-1")) path (pure "")

/-- What is stored beside the ledger. -/
def someCredentials : Credentials :=
  ⟨"i-1", "192.0.2.10", "secret", Credentials.defaultUser⟩

/-- The answer for an instance, and the host after it. -/
def answered [Json.Nesting] (files : FileTree) (path machine : CodeText)
    (credentials : Option Credentials) : Except Fault Bool × Host Rehearsal :=
  ((onLedger path).trackInstance machine credentials).runOn (rehearsed files {})

attribute [local instance] Json.Nesting.usual

/-- The credentials of this instance are stored outside of the directory of the ledger. -/
theorem listed_with_credentials_outside :
    (answered emptyDirectory "ids.json" "../i-1" (some someCredentials)).1 = .ok true ∧
      EndsOnce emptyDirectory "ids.json" ∧
      LeadsAway emptyDirectory "ids.json" (Path.join (onLedger "ids.json").directory "../i-1") ∧
      ∃ ledger,
        load (answered emptyDirectory "ids.json" "../i-1" (some someCredentials)).2.files "ids.json"
          = .ok ledger ∧ CodeText.ofString "../i-1" ∈ ledger.instances := by
  have hanswer : (answered emptyDirectory "ids.json" "../i-1" (some someCredentials)).1 = .ok true := by
    decide +kernel
  have hends : EndsOnce emptyDirectory "ids.json" :=
    endsOnce_of_loadOrEmpty keeps_emptyDirectory.loads (by decide) (by decide +kernel)
  have haway : LeadsAway emptyDirectory "ids.json"
      (Path.join (onLedger "ids.json").directory "../i-1") := by
    intro directory name hplace slash hwritten
    have hledger : emptyDirectory.locate .replace "ids.json" = .ok (.entry ["srv"] "ids.json" false) := by
      decide +kernel
    cases hledger.symm.trans hplace
    have hother : (emptyDirectory.erase ["srv", "ids.json"]).locate .write
        (Path.join (onLedger "ids.json").directory "../i-1") = .ok (.entry [] "i-1" false) := by
      decide +kernel
    cases hother.symm.trans hwritten
  refine ⟨hanswer, hends, haway, ?_⟩
  obtain ⟨ledger, hload, hinstances, -⟩ :=
    (answer_tells_what_is_listed (Prod.fst_eq_iff.1 hanswer)).2 rfl (CodeText.unsplit_ofString _) hends
      fun _ => haway
  exact ⟨ledger, hload, (hinstances _).2 (.inl ⟨rfl, by decide⟩)⟩

/-- A path that goes through one link as often as a path may, and ends at it. -/
def aroundPath : String := String.intercalate "/" (List.replicate (maxLinks + 1) "a")

/-- An instance without a name is never listed. The two halves of a name are read back as the character.
The credentials of an instance with the name of the ledger file are written over the ledger. And where a
path has followed one link as often as it may and ends at that link, the ledger takes the place of the
link and can be reached no more. -/
theorem answered_yes_but_not_listed :
    ((answered emptyDirectory "ids.json" "" none).1 = .ok true ∧
        CodeText.ofString "" ∉ instancesIn (answered emptyDirectory "ids.json" "" none).2.files
          "ids.json") ∧
      ((answered emptyDirectory "ids.json" ⟨[.half 0x3d, .half 0x600]⟩ none).1 = .ok true ∧
        ⟨[.half 0x3d, .half 0x600]⟩ ∉ instancesIn
          (answered emptyDirectory "ids.json" ⟨[.half 0x3d, .half 0x600]⟩ none).2.files "ids.json") ∧
      ((answered emptyDirectory "ids.json" "ids.json" (some someCredentials)).1 = .ok true ∧
        CodeText.ofString "ids.json" ∉ instancesIn
          (answered emptyDirectory "ids.json" "ids.json" (some someCredentials)).2.files "ids.json") ∧
      (answered (emptyDirectory.insert ["srv", "a"] (.link ".")) aroundPath "i-1" none).1 = .ok true ∧
        CodeText.ofString "i-1" ∉ instancesIn
          (answered (emptyDirectory.insert ["srv", "a"] (.link ".")) aroundPath "i-1" none).2.files
          aroundPath := by
  refine ⟨?_, ?_, ?_, ?_⟩
  · decide +kernel
  · decide +kernel
  · decide +kernel
  · decide +kernel

end Provisioning

end NodeLedger
