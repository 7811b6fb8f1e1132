import NodeLedger.Proofs.Cloud.Files
import NodeLedger.Proofs.Provisioning.Credentials
import NodeLedger.Proofs.Provisioning.Stages

/-!
# Recording instances and groups

An entry is recorded while its ledger is in its place, and the ledger is in its place afterwards. The
credentials of an instance are a file beside it, which changes nothing for the ledger.

- `Tracked.IsTight`: a ledger has a file exactly if it lists anything.
- `exists_runOn_trackInstance`: **an instance is recorded unless it was recorded before**, and its
  credentials do not matter for that.
- `cases_of_runOn_ensureGroup_of_keeps`: making sure of a group changes no file before the last stage.
- `exists_runOn_recordNew`: **which groups that were made sure of are recorded.**
-/

namespace NodeLedger

open Cloud FileTree Ledger

/-- There is no file for two sets that are empty. -/
def Tracked.IsTight (state : Tracked) : Prop :=
  state = .absent ↔ state.instances = ∅ ∧ state.groups = ∅

namespace Tracked

variable {I G : Finset CodeText}

theorem isTight_absent : IsTight .absent :=
  iff_of_true rfl ⟨rfl, rfl⟩

theorem isTight_present (h : ¬ (I = ∅ ∧ G = ∅)) : IsTight (.present I G) := by
  refine iff_of_false (fun heq => ?_) h
  cases heq

theorem isTight_remaining (I G : Finset CodeText) : IsTight (remaining I G) := by
  rw [remaining]
  split
  · exact isTight_absent
  · rename_i hsome
    exact isTight_present hsome

end Tracked

namespace Provisioning

/-! ## Instances -/

section Instances

variable {σ : Type} {run : Provisioning σ} {host : Host σ} {name machine : CodeText}
  {directory : Location} {state : Tracked}

/-- **An instance is recorded** unless it was recorded before. -/
theorem exists_runOn_recordInstance [Json.Nesting]
    (h : InPlace run.ledgerPath directory name host.files state) (hunsplit : machine.Unsplit)
    (hne : machine ≠ "") :
    ∃ recorded after later, (run.recordInstance machine).runOn host = (.ok recorded, after) ∧
      Alike host.files after.files ∧ InPlace run.ledgerPath directory name after.files later ∧
      (∀ i, i ∈ later.instances ↔ (recorded = true ∧ i = machine) ∨ i ∈ state.instances) ∧
      later.groups = state.groups ∧ (state.IsTight → later.IsTight) := by
  have hentries : Ledger.Unsplit ⟨[machine], []⟩ :=
    ⟨List.forall_mem_singleton.2 hunsplit, List.forall_mem_nil _⟩
  rw [recordInstance, runOn_handling]
  obtain ⟨outcome, after, hrun, hsame, ⟨-, -, rfl, hplace⟩ | ⟨-, ⟨fault, rfl, hfault, -⟩, hplace⟩⟩ :=
    h.cases_of_runOn_append hentries
  · rw [Job.runOn_bind_of_ok hrun]
    refine ⟨true, after, _, rfl, hsame.alike, hplace, fun i => ?_, Finset.union_empty _,
      fun _ => Tracked.isTight_present fun hempty => ?_⟩
    · rw [Tracked.instances, Finset.mem_union, entrySet_singleton hne, Finset.mem_singleton,
        or_comm, and_iff_right rfl]
    · rw [Finset.union_eq_empty, entrySet_singleton hne] at hempty
      exact Finset.singleton_ne_empty _ hempty.1.2
  · rw [Job.runOn_bind_of_error hrun]
    dsimp only
    rw [if_pos hfault]
    refine ⟨false, _, state, rfl, hsame.alike, hplace, fun i => ?_, rfl, id⟩
    exact (or_iff_right fun hfalse => Bool.false_ne_true hfalse.1).symm

/-- Credentials that can be stored for an instance: a file can have its name, and the text of the
credentials is a string. -/
def Storable (machine : CodeText) (credentials : Credentials) : Prop :=
  Path.fault? machine = none ∧ ∃ text, credentials.text.proper = .ok text

/-- **Recording an instance with its credentials** does the same to the ledger. -/
theorem exists_runOn_trackInstance [Json.Nesting] (run : Provisioning σ)
    (h : InPlace run.ledgerPath directory name host.files state) (hunsplit : machine.Unsplit)
    (hown : OwnFile host.files directory name machine) {credentials : Option Credentials}
    (hstorable : ∀ c ∈ credentials, Storable machine c) :
    ∃ recorded after later,
      (run.trackInstance machine credentials).runOn host = (.ok recorded, after) ∧
      Alike host.files after.files ∧ InPlace run.ledgerPath directory name after.files later ∧
      (∀ i, i ∈ later.instances ↔ (recorded = true ∧ i = machine) ∨ i ∈ state.instances) ∧
      later.groups = state.groups ∧ (state.IsTight → later.IsTight) := by
  have hne : machine ≠ "" := by
    rintro rfl
    exact (hown rfl).1.1 rfl
  obtain ⟨recorded, middle, later, hrecord, halike, hplace, hlater⟩ :=
    exists_runOn_recordInstance h hunsplit hne
  rw [trackInstance, Job.runOn_bind_of_ok hrecord]
  cases recorded with
  | false => exact ⟨false, middle, later, rfl, halike, hplace, hlater⟩
  | true =>
    cases credentials with
    | none => exact ⟨true, middle, later, rfl, halike, hplace, hlater⟩
    | some credentials =>
      obtain ⟨hmachine, text, htext⟩ := hstorable credentials rfl
      obtain ⟨after, hstore, -, halike', hplace'⟩ :=
        exists_runOn_storeCredentials run hplace (hown.of_alike halike) hmachine htext
      refine ⟨true, after, later, ?_, halike.trans halike', hplace', hlater⟩
      rw [if_pos rfl]
      exact Job.runOn_bind_of_ok hstore _

end Instances

/-! ## Groups -/

section Groups

variable {σ : Type} {run : Provisioning σ} {host after : Host σ} {name : CodeText}
  {directory : Location} {state : Tracked} {group : CodeText}

/-- **A group is recorded**, whether it was recorded before or not. -/
theorem exists_runOn_recordGroup_of_inPlace [Json.Nesting] (run : Provisioning σ)
    (h : InPlace run.ledgerPath directory name host.files state) (hunsplit : group.Unsplit)
    (hne : group ≠ "") :
    ∃ after later, (run.recordGroup (some group)).runOn host = (.ok (), after) ∧
      Alike host.files after.files ∧ InPlace run.ledgerPath directory name after.files later ∧
      later.instances = state.instances ∧ (∀ g, g ∈ later.groups ↔ g = group ∨ g ∈ state.groups) ∧
      (state.IsTight → later.IsTight) := by
  have hentries : Ledger.Unsplit ⟨[], [group]⟩ :=
    ⟨List.forall_mem_nil _, List.forall_mem_singleton.2 hunsplit⟩
  rw [recordGroup, runOn_handling, Option.toList_some]
  obtain ⟨outcome, after, hrun, hsame,
      ⟨-, -, rfl, hplace⟩ | ⟨hold, ⟨fault, rfl, hfault, hduplicate⟩, hplace⟩⟩ :=
    h.cases_of_runOn_append hentries
  · rw [hrun]
    refine ⟨after, _, rfl, hsame.alike, hplace, Finset.union_empty _, fun g => ?_,
      fun _ => Tracked.isTight_present fun hempty => ?_⟩
    · rw [Tracked.groups, Finset.mem_union, entrySet_singleton hne, Finset.mem_singleton, or_comm]
    · have hgroup := (Finset.union_eq_empty.1 hempty.2).2
      rw [entrySet_singleton hne] at hgroup
      exact Finset.singleton_ne_empty _ hgroup
  · -- The group is there already, and the handler only logs that.
    have hmem : group ∈ state.groups := by
      by_contra hnew
      exact hold ⟨joins_nil _, (joins_singleton_iff hne).2 hnew⟩
    rw [hrun]
    dsimp only
    rw [if_pos hfault, if_pos hduplicate]
    refine ⟨_, state, rfl, hsame.alike, hplace, rfl, fun g => (or_iff_right_of_imp ?_).symm, id⟩
    rintro rfl
    exact hmem

/-- Look for the group of a cluster, as making sure of it begins. -/
def search (run : Provisioning σ) (cluster : String) : Job σ GroupId := do
  let _ ← run.ownAddress
  run.provider.find (run.provider.groupName cluster)

theorem keepsFiles_findOrCreate (hprovider : run.provider.KeepsFiles) (found : GroupId)
    (called : String) : (run.findOrCreate found called).Keeps (·.files) :=
  Job.keeps_ite (Job.keeps_pure _) (hprovider.create called)

theorem keepsFiles_conform (hprovider : run.provider.KeepsFiles) (identifier : GroupId)
    (visit : Policy.Visit) : (run.conform identifier visit).Keeps (·.files) := by
  refine Job.keeps_bind (hprovider.rules identifier) fun current => ?_
  refine Job.keeps_ite (Job.keepsFiles_log _ _) ?_
  exact Job.keeps_bind (Job.keepsFiles_log _ _) fun _ => hprovider.apply _ _ _

/-- **Making sure of a group changes no file before it is recorded.** -/
theorem cases_of_runOn_ensureGroup_of_keeps [Json.Nesting] (hprovider : run.provider.KeepsFiles)
    (hown : run.ownAddress.Keeps (·.files)) {cluster network : String}
    {outcome : Except Fault GroupId}
    (h : (run.ensureGroup cluster network).runOn host = (outcome, after)) :
    ((∃ fault, outcome = .error fault) ∧ after.files = host.files) ∨
      ∃ found identifier middle, ((run.search cluster).runOn host).1 = .ok found ∧
        middle.files = host.files ∧
        (run.recordNew found identifier).runOn middle = (outcome, after) := by
  rw [ensureGroup_eq] at h
  rcases Job.cases_of_runOn_bind h with ⟨fault, hrun, rfl⟩ | ⟨requester, asked, hasked, h⟩
  · exact .inl ⟨⟨fault, rfl⟩, hown.eq hrun⟩
  have hfilesAsked := hown.eq hasked
  rcases Job.cases_of_runOn_bind h with ⟨fault, hrun, rfl⟩ | ⟨found, searched, hsearched, h⟩
  · exact .inl ⟨⟨fault, rfl⟩, ((hprovider.find _).eq hrun).trans hfilesAsked⟩
  have hfilesSearched := ((hprovider.find _).eq hsearched).trans hfilesAsked
  have hsearch : (run.search cluster).runOn host = (.ok found, searched) := by
    rw [search, Job.runOn_bind_of_ok hasked, hsearched]
  rcases Job.cases_of_runOn_bind h with ⟨fault, hrun, rfl⟩ | ⟨identifier, ready, hready, h⟩
  · exact .inl ⟨⟨fault, rfl⟩, ((keepsFiles_findOrCreate hprovider _ _).eq hrun).trans hfilesSearched⟩
  have hfilesReady := ((keepsFiles_findOrCreate hprovider _ _).eq hready).trans hfilesSearched
  rcases Job.cases_of_runOn_bind h with ⟨fault, hrun, rfl⟩ | ⟨_, conforming, hconforming, h⟩
  · exact .inl ⟨⟨fault, rfl⟩, ((keepsFiles_conform hprovider _ _).eq hrun).trans hfilesReady⟩
  have hfilesConforming := ((keepsFiles_conform hprovider _ _).eq hconforming).trans hfilesReady
  exact .inr ⟨found, identifier, conforming, congrArg Prod.fst hsearch, hfilesConforming, h⟩

/-- **Recording the group that was made sure of**: it is returned, and it is listed if it was new or
if groups that were found are listed too. -/
theorem exists_runOn_recordNew [Json.Nesting] (run : Provisioning σ)
    (h : InPlace run.ledgerPath directory name host.files state) (hunsplit : group.Unsplit)
    (hne : group ≠ "") (found : GroupId) :
    ∃ after later, (run.recordNew found (some group)).runOn host = (.ok (some group), after) ∧
      Alike host.files after.files ∧ InPlace run.ledgerPath directory name after.files later ∧
      later.instances = state.instances ∧
      (∀ g, g ∈ later.groups ↔
        ((found = none ∨ run.provider.recordsFoundGroups = true) ∧ g = group) ∨ g ∈ state.groups) ∧
      (state.IsTight → later.IsTight) := by
  have hcondition : (found.isNone || run.provider.recordsFoundGroups) = true ↔
      found = none ∨ run.provider.recordsFoundGroups = true := by
    rw [Bool.or_eq_true, Option.isNone_iff_eq_none]
  rw [recordNew]
  by_cases hrecords : found = none ∨ run.provider.recordsFoundGroups = true
  · obtain ⟨after, later, hrun, halike, hplace, hinstances, hgroups, htight⟩ :=
      exists_runOn_recordGroup_of_inPlace run h hunsplit hne
    refine ⟨after, later, ?_, halike, hplace, hinstances, fun g => ?_, htight⟩
    · rw [if_pos (hcondition.2 hrecords), Job.runOn_bind_of_ok hrun, Job.runOn_pure]
    · rw [hgroups, and_iff_right hrecords]
  · refine ⟨host, state, ?_, .refl _, h, rfl, fun g => ?_, id⟩
    · rw [if_neg (mt hcondition.1 hrecords)]
      rfl
    · exact (or_iff_right fun hboth => hrecords hboth.1).symm

/-- Recording a group never fails where the ledger is in its place, whatever the group is. -/
theorem outcome_of_runOn_recordGroup [Json.Nesting] (run : Provisioning σ)
    (h : InPlace run.ledgerPath directory name host.files state) (identifier : GroupId) :
    ((run.recordGroup identifier).runOn host).1 = .ok () := by
  have hends := h.endsAs_append [] identifier.toList
  rw [recordGroup, runOn_handling]
  cases hrun : (Ledger.append [] identifier.toList run.ledgerPath).runOn host with
  | mk outcome after =>
    rw [hrun, Tracked.step] at hends
    split at hends
    · cases Tracked.eq_ok_of_endsAs hends
      rfl
    · obtain ⟨fault, hfault, hclass⟩ := Tracked.exists_of_endsAs hends
      cases hfault
      have hfamily : fault.isOf .ledger = true := by
        rw [Fault.isOf, hclass]
        rfl
      have hduplicate : fault.isOf .duplicate = true := by
        rw [Fault.isOf, hclass]
        rfl
      dsimp only
      rw [if_pos hfamily, if_pos hduplicate]
      rfl

@[inherit_doc outcome_of_runOn_recordGroup]
theorem outcome_of_runOn_recordNew [Json.Nesting] (run : Provisioning σ)
    (h : InPlace run.ledgerPath directory name host.files state) (found identifier : GroupId) :
    ((run.recordNew found identifier).runOn host).1 = .ok identifier := by
  rw [recordNew]
  split
  · rw [Job.runOn_bind_of_ok (Prod.ext (outcome_of_runOn_recordGroup run h identifier) rfl)]
    rfl
  · rfl

end Groups

end Provisioning

end NodeLedger
