import NodeLedger.Cloud.Rehearsal
import NodeLedger.Proofs.Provisioning.Recorded
import NodeLedger.Proofs.Provisioning.Teardown

/-!
# What a teardown accounts for

Everything that a ledger lists costs money until it is gone. A teardown must neither forget what still
exists nor keep on the list what is gone.

As long as the cloud gives only answers that the operations are prepared for, a teardown comes to its
end, whatever fails. Each entry of the ledger is then reported once, as gone or as failed, and the file
lists what failed. Any other answer ends the teardown where it is, and the ledger file stays as it was:
nothing is lost, but what was taken down before is still listed.

- `teardown_accounts_for_all`: **every entry is accounted for**, and of the other files only the
  credentials of the instances that are gone are taken away.
- `listed_after_teardown_iff`: **nothing that is gone is listed exactly if the teardown came to its
  end**, or nothing has gone. What is not gone is listed in any case.
-/

namespace NodeLedger.Provisioning

open Cloud FileTree Ledger

/-! ## A directory to work in -/

/-- A host beside a rehearsal of clouds. -/
def rehearsed (files : FileTree) (script : Script) : Host Rehearsal :=
  ⟨files, [], ⟨script, [], [], 0⟩⟩

/-- A directory with a file of the name of an instance. -/
def oneCredential : FileTree := emptyDirectory.insert ["srv", "i-1"] (.file [] plainMode)

theorem vacancy_oneCredential : oneCredential.Vacancy "ids.json" ["srv"] "ids.json" := by
  decide

/-- An instance and a group, both listed in a ledger file. -/
def oneInstance : List CodeText := ["i-1"]

@[inherit_doc oneInstance]
def oneGroup : List CodeText := ["sg-1"]

theorem inPlace_oneCredential :
    InPlace "ids.json" ["srv"] "ids.json" (listing oneCredential ["srv", "ids.json"] oneInstance oneGroup)
      (.present oneInstance.toFinset oneGroup.toFinset) :=
  inPlace_listing vacancy_oneCredential (List.pairwise_singleton _ _) (List.pairwise_singleton _ _)
    (by decide) (by decide)

theorem ownFile_oneCredential : ∀ i ∈ oneInstance.toFinset,
    OwnFile (listing oneCredential ["srv", "ids.json"] oneInstance oneGroup) ["srv"] "ids.json" i := by
  intro i hi
  obtain rfl : i = "i-1" := by simpa [oneInstance] using hi
  have hfile : (listing oneCredential ["srv", "ids.json"] oneInstance oneGroup).node? ["srv", "i-1"]
      = some (.file [] plainMode) := by decide
  refine ownFile_ofString (by decide) (by decide) fun target hlink => ?_
  cases hfile.symm.trans hlink

/-! ## Every entry is accounted for -/

/-- A file of the name of an instance, in the directory of the ledger. The name must be one that a file
can have. -/
def CredentialsAt (tree : FileTree) (path : CodeText) (directory : Location) (machine : CodeText)
    (location : Location) : Prop :=
  Path.fault? machine = none ∧ location = directory ++ [machine.known] ∧ ¬ TooLong path machine ∧
    ∃ content mode, tree.node? location = some (.file content mode)

section Accounts

variable {σ : Type} {path name : CodeText} {directory : Location} {I G : Finset CodeText}

theorem fileAt_iff_credentialsAt {host : Host σ}
    (hledger : InPlace path directory name host.files (.present I G))
    {machine : CodeText} (hown : OwnFile host.files directory name machine) {l : Location} :
    FileAt host.files (credentialsBeside path machine) l ↔
      CredentialsAt host.files path directory machine l :=
  hown.fileAt_iff hledger.vacancy.noFault hledger.locate_replace

/-- **Every entry is accounted for.** If the operations are prepared for every answer, the teardown
comes to its end. The instances for which every request succeeded are terminated, the groups of which
nothing was refused are deleted, both in the order of the ledger, and all others have failed. Each
entry was tried. The ledger lists what failed, and it is gone if nothing did. -/
theorem teardown_accounts_for_all [Json.Nesting] (platform : Platform σ) (ownAddress : Job σ String)
    (host : Host σ) (hledger : InPlace path directory name host.files (.present I G))
    (hown : ∀ i ∈ I, OwnFile host.files directory name i)
    (hhandled : ∀ e ∈ exchanges platform path host, e.isHandled = true) :
    let seen := exchanges platform path host
    let failedInstances := (ascending I).filter fun i => ¬ platform.InstanceGone seen i
    let failedGroups := (ascending G).filter fun g => ¬ platform.GroupGone seen g
    ∃ result after, (onPlatform platform path ownAddress).teardown.runOn host = (.ok result, after) ∧
      (result.terminated = (ascending I).filter fun i => platform.InstanceGone seen i) ∧
      (result.deletedGroups = (ascending G).filter fun g => platform.GroupGone seen g) ∧
      result.failed = failedInstances ++ failedGroups ∧
      (∀ i ∈ I, platform.InstanceTried seen i) ∧
      (∀ g ∈ G, platform.GroupTried seen g ∧
        (platform.GroupGone seen g ↔ ¬ platform.GroupRefused seen g)) ∧
      (if result.failed = [] then after.files.node? (directory ++ [name]) = none
        else load after.files path = .ok ⟨failedInstances, failedGroups⟩) ∧
      ∀ l, l ≠ directory ++ [name] →
        ((∃ i ∈ result.terminated, CredentialsAt host.files path directory i l) →
          after.files.node? l = none) ∧
        ((∀ i ∈ result.terminated, ¬ CredentialsAt host.files path directory i l) →
          after.files.node? l = host.files.node? l) := by
  intro seen failedInstances failedGroups
  have haside : ∀ i ∈ I, Aside host.files (directory ++ [name]) (credentialsBeside path i) :=
    fun i hi => (hown i hi).aside hledger.locate_replace
  cases hrun : (onPlatform platform path ownAddress).teardown.runOn host with
  | mk outcome after =>
    rcases cases_of_runOn_teardown hledger haside hrun with
      ⟨result, rfl, haccounted⟩ | ⟨-, -, e, he, hunhandled⟩
    · have hterminated : ∀ i, i ∈ result.terminated ↔ i ∈ I ∧ platform.InstanceGone seen i := fun i => by
        rw [haccounted.terminated, List.mem_filter, mem_ascending, decide_eq_true_eq]
      refine ⟨result, after, rfl, haccounted.terminated, haccounted.deletedGroups, haccounted.failed,
        haccounted.instancesTried, haccounted.groupsTried, ?_, fun l hl => ⟨?_, fun hnot => ?_⟩⟩
      · have hledgerAfter := haccounted.settled.ledger.load_of_remaining
        split
        · rename_i hnone
          rwa [if_pos (haccounted.failed_eq_nil_iff.1 hnone)] at hledgerAfter
        · rename_i hsome
          rw [if_neg (mt haccounted.failed_eq_nil_iff.2 hsome)] at hledgerAfter
          rw [hledgerAfter, ofSets, ascending_filter, ascending_filter]
      · rintro ⟨i, hi, hcredentials⟩
        obtain ⟨hi, hgone⟩ := (hterminated i).1 hi
        exact haccounted.settled.gone i hi hgone l
          ((fileAt_iff_credentialsAt hledger (hown i hi)).2 hcredentials)
      · refine haccounted.settled.kept l hl fun i hi hgone hfile => ?_
        exact hnot i ((hterminated i).2 ⟨hi, hgone⟩)
          ((fileAt_iff_credentialsAt hledger (hown i hi)).1 hfile)
    · rw [hhandled e he] at hunhandled
      cases hunhandled

end Accounts

attribute [local instance] Json.Nesting.usual

/-- The instance goes away with its credentials, and the group stays. -/
theorem teardown_accounts_for_both :
    let refusal := OutsideFault.client "DependencyViolation" "DeleteSecurityGroup" "in use"
    let host := rehearsed (listing oneCredential ["srv", "ids.json"] oneInstance oneGroup)
      { deleteGroup := [.error refusal] }
    let platform := Platform.ec2 Rehearsal.ec2 none
    InPlace "ids.json" ["srv"] "ids.json" host.files
        (.present oneInstance.toFinset oneGroup.toFinset) ∧
      (∀ i ∈ oneInstance.toFinset, OwnFile host.files ["srv"] "ids.json" i) ∧
      (∀ e ∈ exchanges platform "ids.json" host, e.isHandled = true) ∧
      ∃ result after, (onPlatform platform "ids.json" (pure "")).teardown.runOn host
          = (.ok result, after) ∧
        result = ⟨["i-1"], [], ["sg-1"]⟩ ∧ after.files.node? ["srv", "i-1"] = none := by
  intro refusal host platform
  have hhandled : ∀ e ∈ exchanges platform "ids.json" host, e.isHandled = true := by decide +kernel
  refine ⟨inPlace_oneCredential, ownFile_oneCredential, hhandled, ?_⟩
  obtain ⟨result, after, hrun, hterminated, hdeleted, hfailed, -, -, -, hfiles⟩ :=
    teardown_accounts_for_all platform (pure "") host inPlace_oneCredential ownFile_oneCredential
      hhandled
  have hresult : ((onPlatform platform "ids.json" (pure "")).teardown.runOn host).1
      = .ok ⟨["i-1"], [], ["sg-1"]⟩ := by decide +kernel
  rw [hrun] at hresult
  cases hresult
  refine ⟨_, after, hrun, rfl, (hfiles ["srv", "i-1"] (by decide)).1 ⟨"i-1", by decide, ?_⟩⟩
  exact ⟨rfl, rfl, by decide +kernel, [], plainMode, by decide +kernel⟩

/-- A link to a directory is taken away, which is the credentials of nobody. -/
theorem link_taken_away :
    let tree := (emptyDirectory.insert ["srv", "notes"] .directory).insert ["srv", "i-1"] (.link "notes")
    let host := rehearsed (listing tree ["srv", "ids.json"] oneInstance []) {}
    let platform := Platform.ec2 Rehearsal.ec2 none
    Path.IsName "i-1" ∧ InPlace "ids.json" ["srv"] "ids.json" host.files
        (.present oneInstance.toFinset [].toFinset) ∧
      (∀ e ∈ exchanges platform "ids.json" host, e.isHandled = true) ∧
      ∃ after, (onPlatform platform "ids.json" (pure "")).teardown.runOn host
          = (.ok ⟨["i-1"], [], []⟩, after) ∧
        host.files.node? ["srv", "i-1"] = some (.link "notes") ∧
        after.files.node? ["srv", "i-1"] = none := by
  intro tree host platform
  have hvacancy : tree.Vacancy "ids.json" ["srv"] "ids.json" := by decide +kernel
  have hresult : ((onPlatform platform "ids.json" (pure "")).teardown.runOn host).1
      = .ok ⟨["i-1"], [], []⟩ := by decide +kernel
  refine ⟨by decide, ?_, by decide +kernel, _, Prod.fst_eq_iff.1 hresult, by decide +kernel,
    by decide +kernel⟩
  exact inPlace_listing hvacancy (List.pairwise_singleton _ _) .nil (by decide +kernel)
    (List.forall_mem_nil _)

/-! ## What is listed afterwards -/

section Listed

variable {σ : Type} {path name : CodeText} {directory : Location} {I G : Finset CodeText}
  {after : Host σ}

/-- **Nothing that is gone is listed exactly if the teardown came to its end**, or nothing has gone.
What is not gone is listed in any case. -/
theorem listed_after_teardown_iff [Json.Nesting] (platform : Platform σ) (ownAddress : Job σ String)
    (host : Host σ) {outcome : Except Fault Teardown}
    (hledger : InPlace path directory name host.files (.present I G))
    (hown : ∀ i ∈ I, OwnFile host.files directory name i)
    (hrun : (onPlatform platform path ownAddress).teardown.runOn host = (outcome, after)) :
    let seen := exchanges platform path host
    ((∀ i ∈ I, ¬ platform.InstanceGone seen i → i ∈ instancesIn after.files path) ∧
        ∀ g ∈ G, ¬ platform.GroupGone seen g → g ∈ groupsIn after.files path) ∧
      (((∀ i ∈ I, platform.InstanceGone seen i → i ∉ instancesIn after.files path) ∧
          ∀ g ∈ G, platform.GroupGone seen g → g ∉ groupsIn after.files path) ↔
        (∃ result, outcome = .ok result) ∨
          (∀ i ∈ I, ¬ platform.InstanceGone seen i) ∧ ∀ g ∈ G, ¬ platform.GroupGone seen g) := by
  intro seen
  have haside : ∀ i ∈ I, Aside host.files (directory ++ [name]) (credentialsBeside path i) :=
    fun i hi => (hown i hi).aside hledger.locate_replace
  rcases cases_of_runOn_teardown hledger haside hrun with
    ⟨result, rfl, haccounted⟩ | ⟨⟨fault, rfl⟩, hfiles, -⟩
  · -- What is listed is what has not gone.
    have hinstances : ∀ i ∈ I, i ∈ instancesIn after.files path ↔ ¬ platform.InstanceGone seen i := by
      intro i hi
      rw [haccounted.settled.ledger.instancesIn_eq, Tracked.instances_remaining, mem_ascending,
        Finset.mem_filter, and_iff_right hi]
    have hgroups : ∀ g ∈ G, g ∈ groupsIn after.files path ↔ ¬ platform.GroupGone seen g := by
      intro g hg
      rw [haccounted.settled.ledger.groupsIn_eq, Tracked.groups_remaining, mem_ascending,
        Finset.mem_filter, and_iff_right hg]
    refine ⟨⟨fun i hi => (hinstances i hi).2, fun g hg => (hgroups g hg).2⟩,
      iff_of_true ⟨fun i hi hgone => ?_, fun g hg hgone => ?_⟩ (.inl ⟨result, rfl⟩)⟩
    · rw [hinstances i hi, not_not]
      exact hgone
    · rw [hgroups g hg, not_not]
      exact hgone
  · -- Everything is listed as before.
    have hinstances : ∀ i ∈ I, i ∈ instancesIn after.files path := fun i hi => by
      rwa [hfiles, hledger.instancesIn_eq, mem_ascending]
    have hgroups : ∀ g ∈ G, g ∈ groupsIn after.files path := fun g hg => by
      rwa [hfiles, hledger.groupsIn_eq, mem_ascending]
    refine ⟨⟨fun i hi _ => hinstances i hi, fun g hg _ => hgroups g hg⟩, ?_⟩
    constructor
    · rintro ⟨hnoInstance, hnoGroup⟩
      exact .inr ⟨fun i hi hgone => hnoInstance i hi hgone (hinstances i hi),
        fun g hg hgone => hnoGroup g hg hgone (hgroups g hg)⟩
    · rintro (⟨result, hok⟩ | ⟨hnoInstance, hnoGroup⟩)
      · cases hok
      · exact ⟨fun i hi hgone => absurd hgone (hnoInstance i hi),
          fun g hg hgone => absurd hgone (hnoGroup g hg)⟩

end Listed

/-- A teardown that ends early, after its instance has gone. -/
theorem listed_after_interruption :
    let host := rehearsed (listing oneCredential ["srv", "ids.json"] oneInstance oneGroup)
      { describeInstances := [.error .noCredentials] }
    let platform := Platform.ec2 Rehearsal.ec2 none
    let after := ((onPlatform platform "ids.json" (pure "")).teardown.runOn host).2
    InPlace "ids.json" ["srv"] "ids.json" host.files
        (.present oneInstance.toFinset oneGroup.toFinset) ∧
      (∀ i ∈ oneInstance.toFinset, OwnFile host.files ["srv"] "ids.json" i) ∧
      (∀ g ∈ oneGroup.toFinset, ¬ platform.GroupGone (exchanges platform "ids.json" host) g →
        g ∈ groupsIn after.files "ids.json") ∧
      ¬ ∃ result, ((onPlatform platform "ids.json" (pure "")).teardown.runOn host).1
        = .ok result := by
  intro host platform after
  have hresult : ((onPlatform platform "ids.json" (pure "")).teardown.runOn host).1
      = .error (.outside .noCredentials) := by decide +kernel
  refine ⟨inPlace_oneCredential, ownFile_oneCredential, ?_, ?_⟩
  · exact (listed_after_teardown_iff platform (pure "") host inPlace_oneCredential
      ownFile_oneCredential (Prod.fst_eq_iff.1 hresult)).1.2
  · rintro ⟨result, hok⟩
    cases hresult.symm.trans hok

/-- An instance that is gone and still listed. -/
theorem gone_instance_listed :
    let host := rehearsed (listing oneCredential ["srv", "ids.json"] oneInstance oneGroup)
      { describeInstances := [.error .noCredentials] }
    let platform := Platform.ec2 Rehearsal.ec2 none
    let after := ((onPlatform platform "ids.json" (pure "")).teardown.runOn host).2
    InPlace "ids.json" ["srv"] "ids.json" host.files
        (.present oneInstance.toFinset oneGroup.toFinset) ∧
      platform.InstanceGone (exchanges platform "ids.json" host) "i-1" ∧
      CodeText.ofString "i-1" ∈ instancesIn after.files "ids.json" := by
  intro host platform after
  exact ⟨inPlace_oneCredential, by decide +kernel, by decide +kernel⟩

end NodeLedger.Provisioning
