import NodeLedger.Proofs.Ledger.Kept
import NodeLedger.Proofs.Provisioning.Ensure

/-!
# Which created groups are recorded

A group is recorded by the call that creates it, once it has been made to comply. If that call fails
in between, the group is there but nobody records it: a later call finds it, and a group that was
found is taken for one that somebody else has created.

- `EnsureCall`, `EnsureCall.steps`: calls one after the other, and what each of them did.
- `exists_runOn_recordGroup`: a group that is recorded is kept beside the groups that were.
- `Traced`: the invariant. The group is listed exactly if it was listed at the beginning, or the call
  that created it has returned it.
- `Traced.step`: one call keeps the invariant, whatever fails.
- `listed_after_return_iff`: **which groups that a run returns are listed**.
- `found_group_not_listed`: a group that is returned and not listed.
-/

namespace NodeLedger.Provisioning

open Cloud Cloud.Ec2 FileTree Ledger

/-! ## Calls -/

/-- A call that makes sure of the group of a cluster: whether the operator's address is known, the
VPC if one is, and the network. -/
structure EnsureCall where
  requester : Except Fault String
  vpc : Option String
  network : String

/-- What one call did. -/
structure EnsureStep where
  before : Host Region
  outcome : Except Fault GroupId
  after : Host Region

namespace EnsureStep

/-- The call has created the group. -/
def Creates (step : EnsureStep) : Prop :=
  step.before.outside.group = none ∧ step.after.outside.group ≠ none

/-- The call has returned the group. -/
def Returns (step : EnsureStep) : Prop :=
  ∃ group, step.outcome = .ok group

end EnsureStep

namespace EnsureCall

/-- The job of a call. -/
def job [Json.Nesting] (others : Client Region) (path : CodeText) (cluster : String)
    (call : EnsureCall) : Job Region GroupId :=
  (onRegion others call.vpc path call.requester).ensureGroup cluster call.network

/-- The step of a call. -/
def step [Json.Nesting] (others : Client Region) (path : CodeText) (cluster : String)
    (host : Host Region) (call : EnsureCall) :
    EnsureStep :=
  let result := (call.job others path cluster).runOn host
  ⟨host, result.1, result.2⟩

/-- Calls one after the other, with what each of them did. -/
def steps [Json.Nesting] (others : Client Region) (path : CodeText) (cluster : String) :
    List EnsureCall → Host Region → List EnsureStep
  | [], _ => []
  | call :: calls, host =>
    call.step others path cluster host
      :: steps others path cluster calls (call.step others path cluster host).after

end EnsureCall

/-! ## Recording one group -/

section Recording

variable {σ : Type} {host : Host σ} {tree : FileTree} {name : CodeText}
  {directory : Location} {ledger : Ledger} {group : CodeText}

/-- **A group that is recorded is kept beside the groups that were**, whether it was among them or
not. -/
theorem exists_runOn_recordGroup [Json.Nesting] (run : Provisioning σ)
    (h : Keeps run.ledgerPath (directory ++ [name]) tree host.files ledger)
    (hvacancy : tree.Vacancy run.ledgerPath directory name) (hunsplit : group.Unsplit)
    (hne : group ≠ "") :
    ∃ after kept, (run.recordGroup (some group)).runOn host = (.ok (), after) ∧
      Keeps run.ledgerPath (directory ++ [name]) tree after.files kept ∧
      ∀ e, e ∈ kept.groups ↔ e = group ∨ e ∈ ledger.groups := by
  have hfilled : filled [group] = [group] := filled_cons_of_ne hne []
  have hnone : Fresh ledger.instances [] := ⟨List.nodup_nil, List.forall_mem_nil _⟩
  rw [recordGroup, runOn_handling, Option.toList_some]
  by_cases hfresh : Fresh ledger.groups [group]
  · have hgroups : Ledger.Unsplit ⟨[], [group]⟩ :=
      ⟨List.forall_mem_nil _, List.forall_mem_singleton.2 hunsplit⟩
    obtain ⟨saved, log, hrun, hkeeps⟩ :=
      exists_runOn_append_of_fresh h hvacancy hgroups hnone hfresh
    rw [hrun]
    refine ⟨_, _, rfl, hkeeps, fun e => ?_⟩
    rw [mem_sortEntries, hfilled, List.singleton_append, List.mem_cons]
  · obtain ⟨e, hrun⟩ := exists_runOn_append_of_not_fresh h fun hboth => hfresh hboth.2
    rw [hrun]
    -- The group is there already, and the handler only logs that.
    have hmem : group ∈ ledger.groups := by
      by_contra hnew
      refine hfresh ?_
      rw [Fresh, hfilled]
      exact ⟨List.nodup_singleton group, List.forall_mem_singleton.2 hnew⟩
    refine ⟨_, ledger, rfl, h, fun e => (or_iff_right_of_imp ?_).symm⟩
    rintro rfl
    exact hmem

end Recording

/-! ## Whole runs -/

/-- After the steps of a history the region has no group or the one that was to come, and the steps
have returned no other. The ledger file is kept. It lists the group if it did at the beginning, or if
the step that created the group has returned it. -/
structure Traced [Json.Nesting] (path : CodeText) (location : Location) (tree : FileTree)
    (start : Host Region) (history : List EnsureStep) (now : Host Region) : Prop where
  coming : now.outside.coming = start.outside.coming
  group : now.outside.group = none ∨ ∃ held, now.outside.group = some (start.outside.coming, held)
  returned : ∀ step ∈ history, ∀ group, step.outcome = .ok group →
    group = some (CodeText.ofString start.outside.coming)
  kept : ∃ ledger, Keeps path location tree now.files ledger
  listed : CodeText.ofString start.outside.coming ∈ groupsIn now.files path ↔
    CodeText.ofString start.outside.coming ∈ groupsIn start.files path ∨
      ∃ step ∈ history, step.Creates ∧ step.Returns

section Run

variable {others : Client Region} {path name : CodeText} {cluster : String} {tree : FileTree}
  {directory location : Location} {start now after : Host Region} {history : List EnsureStep}
  {call : EnsureCall} {outcome : Except Fault GroupId} {last : EnsureStep}

theorem Traced.identifier [Json.Nesting] (h : Traced path location tree start history now) :
    now.outside.identifier = start.outside.coming := by
  rw [Region.identifier]
  rcases h.group with hnone | ⟨held, hsome⟩
  · rw [hnone]
    exact h.coming
  · rw [hsome]
    rfl

/-- Before the first call nothing has been created. -/
theorem traced_nil [Json.Nesting] (hnew : start.outside.group = none) {ledger : Ledger}
    (hkeeps : Keeps path location tree start.files ledger) :
    Traced path location tree start [] start where
  coming := rfl
  group := .inl hnew
  returned step hstep := absurd hstep List.not_mem_nil
  kept := ⟨ledger, hkeeps⟩
  listed := by
    refine (or_iff_left ?_).symm
    rintro ⟨step, hstep, -⟩
    exact absurd hstep List.not_mem_nil

theorem exists_mem_append_singleton_iff {P : EnsureStep → Prop} :
    (∃ step ∈ history ++ [last], P step) ↔ (∃ step ∈ history, P step) ∨ P last := by
  constructor
  · rintro ⟨step, hmem, hstep⟩
    rcases List.mem_append.1 hmem with hold | hlast
    · exact .inl ⟨step, hold, hstep⟩
    · rw [List.mem_singleton.1 hlast] at hstep
      exact .inr hstep
  · rintro (⟨step, hmem, hstep⟩ | hstep)
    · exact ⟨step, List.mem_append_left _ hmem, hstep⟩
    · exact ⟨last, List.mem_append_right _ (List.mem_singleton_self last), hstep⟩

theorem forall_returned_append {identifier : GroupId}
    (h : ∀ step ∈ history, ∀ group, step.outcome = .ok group → group = identifier)
    (hlast : ∀ group, last.outcome = .ok group → group = identifier) :
    ∀ step ∈ history ++ [last], ∀ group, step.outcome = .ok group → group = identifier := by
  intro step hmem
  rcases List.mem_append.1 hmem with hold | hnew
  · exact h step hold
  · rw [List.mem_singleton.1 hnew]
    exact hlast

/-- A call that leaves the files alone, and that does not return a group that it has created. -/
theorem Traced.of_same_files [Json.Nesting] (h : Traced path location tree start history now)
    (hfiles : last.after.files = now.files)
    (hcoming : last.after.outside.coming = now.outside.coming)
    (hgroup : last.after.outside.group = none ∨
      ∃ held, last.after.outside.group = some (start.outside.coming, held))
    (hreturned : ∀ group, last.outcome = .ok group →
      group = some (CodeText.ofString start.outside.coming))
    (hnot : ¬ (last.Creates ∧ last.Returns)) :
    Traced path location tree start (history ++ [last]) last.after where
  coming := hcoming.trans h.coming
  group := hgroup
  returned := forall_returned_append h.returned hreturned
  kept := by
    rw [hfiles]
    exact h.kept
  listed := by
    rw [hfiles, h.listed, exists_mem_append_singleton_iff, or_iff_left hnot]

/-- A call that creates the group, records it and returns it. -/
theorem Traced.of_recorded [Json.Nesting]
    (h : Traced path (directory ++ [name]) tree start history now)
    (hnew : last.before.outside.group = none)
    (hcoming : last.after.outside.coming = now.outside.coming) {held : List Permission}
    (hgroup : last.after.outside.group = some (start.outside.coming, held))
    (hreturned : last.outcome = .ok (some (CodeText.ofString start.outside.coming))) {kept : Ledger}
    (hkept : Keeps path (directory ++ [name]) tree last.after.files kept)
    (hlists : CodeText.ofString start.outside.coming ∈ kept.groups) :
    Traced path (directory ++ [name]) tree start (history ++ [last]) last.after where
  coming := hcoming.trans h.coming
  group := .inr ⟨held, hgroup⟩
  returned := by
    refine forall_returned_append h.returned ?_
    intro group hok
    rw [hreturned] at hok
    exact (Except.ok.inj hok).symm
  kept := ⟨kept, hkept⟩
  listed := by
    have hcreates : last.Creates := by
      constructor
      · exact hnew
      · rw [hgroup]
        exact Option.some_ne_none _
    rw [(lists_of_loadOrEmpty hkept.loads).2, exists_mem_append_singleton_iff]
    exact iff_of_true hlists (.inr (.inr ⟨hcreates, _, hreturned⟩))

/-- **One call keeps the invariant**, whatever fails. -/
theorem Traced.step [Json.Nesting] (hvacancy : tree.Vacancy path directory name)
    (hne : start.outside.coming ≠ "") (h : Traced path (directory ++ [name]) tree start history now)
    (hrun : (call.job others path cluster).runOn now = (outcome, after)) :
    Traced path (directory ++ [name]) tree start (history ++ [⟨now, outcome, after⟩]) after := by
  have hidentifier := h.identifier
  rcases cases_of_runOn_ensureGroup hrun with
    ⟨hsame, fault, rfl⟩ | ⟨address, ready, -, hready, hend⟩
  · -- The call stops before it has done anything.
    refine h.of_same_files hsame.files hsame.coming ?_ nofun ?_
    · show after.outside.group = none ∨ _
      rw [hsame.group]
      exact h.group
    · rintro ⟨-, group, hok⟩
      cases hok
  · obtain ⟨held, hgroup, -⟩ := hready.group
    rw [hidentifier] at hgroup hend
    rcases hend with ⟨rfl, fault, rfl⟩ | ⟨hfound, rfl, rfl⟩ | ⟨hnone, result, hrecord, rfl⟩
    · -- The group is there, but the call fails. If it was new, it is lost.
      refine h.of_same_files hready.files hready.coming (.inr ⟨held, hgroup⟩) nofun ?_
      rintro ⟨-, group, hok⟩
      cases hok
    · -- The group was there already, so the call has not created it.
      refine h.of_same_files hready.files hready.coming (.inr ⟨held, hgroup⟩) ?_ ?_
      · intro group hok
        exact (Except.ok.inj hok).symm
      · rintro ⟨⟨hnone, -⟩, -⟩
        rw [show now.outside.group = none from hnone] at hfound
        cases hfound
    · -- The group is new, and recording it never fails where a ledger is kept.
      obtain ⟨ledger, hkeeps⟩ := h.kept
      rw [← hready.files] at hkeeps
      have hname : CodeText.ofString start.outside.coming ≠ "" := by
        intro hempty
        exact hne (CodeText.ofString_inj.1 hempty)
      obtain ⟨recorded, kept, hrecorded, hkept, hlists⟩ :=
        exists_runOn_recordGroup (onRegion others call.vpc path call.requester) hkeeps hvacancy
          (CodeText.unsplit_ofString start.outside.coming) hname
      have houtside := outside_of_runOn_recordGroup hrecord
      cases hrecord.symm.trans hrecorded
      have hcoming : after.outside.coming = now.outside.coming := by
        rw [houtside]
        exact hready.coming
      rw [← houtside] at hgroup
      exact h.of_recorded hnone hcoming hgroup rfl hkept ((hlists _).2 (.inl rfl))

/-- **A whole run keeps the invariant** up to any of its steps. -/
theorem Traced.of_steps [Json.Nesting] (hvacancy : tree.Vacancy path directory name)
    (hne : start.outside.coming ≠ "") {calls : List EnsureCall} {earlier later : List EnsureStep}
    (h : Traced path (directory ++ [name]) tree start history now)
    (hsteps : EnsureCall.steps others path cluster calls now = earlier ++ last :: later) :
    Traced path (directory ++ [name]) tree start (history ++ (earlier ++ [last])) last.after := by
  induction calls generalizing history now earlier with
  | nil => exact absurd hsteps.symm (List.append_ne_nil_of_right_ne_nil _ (List.cons_ne_nil _ _))
  | cons call calls ih =>
    cases hrun : (call.job others path cluster).runOn now with
    | mk outcome after =>
      have hstep : call.step others path cluster now = ⟨now, outcome, after⟩ := by
        rw [EnsureCall.step, hrun]
      rw [EnsureCall.steps, hstep] at hsteps
      cases earlier with
      | nil =>
        obtain ⟨rfl, -⟩ := List.cons.inj hsteps
        exact h.step hvacancy hne hrun
      | cons first earlier =>
        obtain ⟨rfl, hrest⟩ := List.cons.inj hsteps
        have htraced := ih (h.step hvacancy hne hrun) hrest
        rwa [List.append_assoc] at htraced

/-- **Which groups that a run returns are listed.** A run starts where the cluster has no group and
where any ledger, or none, is kept; any request of any of its calls may fail. A group that a call
returns is listed afterwards exactly if it was listed at the beginning, or the call that created it
has returned it.

So a group is lost for the ledger when the call that created it failed later on: other calls return
it, and none of them records it. -/
theorem listed_after_return_iff [Json.Nesting] (others : Client Region) (cluster : String)
    (hvacancy : tree.Vacancy path directory name) {ledger : Ledger}
    (hkeeps : Keeps path (directory ++ [name]) tree start.files ledger)
    (hnew : start.outside.group = none) (hne : start.outside.coming ≠ "") {calls : List EnsureCall}
    {earlier later : List EnsureStep}
    (hsteps : EnsureCall.steps others path cluster calls start = earlier ++ last :: later)
    {group : CodeText} (hreturned : last.outcome = .ok (some group)) :
    group ∈ groupsIn last.after.files path ↔
      group ∈ groupsIn start.files path ∨
        ∃ creator ∈ earlier ++ [last], creator.Creates ∧ creator.Returns := by
  have htraced := (traced_nil hnew hkeeps).of_steps hvacancy hne hsteps
  rw [List.nil_append] at htraced
  have hgroup := htraced.returned last (List.mem_append_right _ (List.mem_singleton_self _)) _
    hreturned
  cases hgroup
  exact htraced.listed

end Run

/-- An empty directory to work in. -/
def emptyDirectory : FileTree := ⟨[(["srv"], .directory)], ["srv"]⟩

theorem vacancy_emptyDirectory : emptyDirectory.Vacancy "ids.json" ["srv"] "ids.json" := by
  decide +kernel

theorem keeps_emptyDirectory [Json.Nesting] :
    Keeps "ids.json" ["srv", "ids.json"] emptyDirectory emptyDirectory Ledger.empty where
  filled := FilledAt.refl vacancy_emptyDirectory.vacant
  loads := by
    have habsent : emptyDirectory.present "ids.json" = false := by decide +kernel
    rw [loadOrEmpty, habsent]
    rfl

/-- A host beside a region that has no group yet, where some requests fail. -/
def unprovisioned (faults : List (Option OutsideFault)) : Host Region :=
  ⟨emptyDirectory, [], ⟨none, "sg-2", faults, []⟩⟩

/-- The call of an operator whose address is known. -/
def operatorCall : EnsureCall := ⟨.ok "203.0.113.7", some "vpc-1", "10.0.0.0/16"⟩

attribute [local instance] Json.Nesting.usual

/-- A group that one call creates and another one finds is listed. -/
theorem listed_after_second_call :
    let start := unprovisioned []
    let first := operatorCall.step Region.locked "ids.json" "cluster" start
    let second := operatorCall.step Region.locked "ids.json" "cluster" first.after
    EnsureCall.steps Region.locked "ids.json" "cluster" [operatorCall, operatorCall] start
        = [first] ++ second :: [] ∧
      start.outside.group = none ∧ start.outside.coming ≠ "" ∧
      second.outcome = .ok (some "sg-2") ∧
      (CodeText.ofString "sg-2" ∈ groupsIn second.after.files "ids.json" ↔
        CodeText.ofString "sg-2" ∈ groupsIn start.files "ids.json" ∨
          ∃ creator ∈ [first] ++ [second], creator.Creates ∧ creator.Returns) ∧
      first.Creates ∧ first.Returns := by
  intro start first second
  have hsteps : EnsureCall.steps Region.locked "ids.json" "cluster" [operatorCall, operatorCall] start
      = [first] ++ second :: [] := rfl
  have hreturned : second.outcome = .ok (some "sg-2") := by decide +kernel
  have hkeeps : Keeps "ids.json" (["srv"] ++ ["ids.json"]) emptyDirectory start.files Ledger.empty :=
    keeps_emptyDirectory
  have hcreates : first.Creates := ⟨rfl, by decide +kernel⟩
  refine ⟨hsteps, rfl, by decide, hreturned, ?_, hcreates, some "sg-2", by decide +kernel⟩
  exact listed_after_return_iff Region.locked "cluster" vacancy_emptyDirectory hkeeps rfl (by decide)
    hsteps hreturned

/-- A group that is returned and not listed: the call that creates it fails when it lists the rules,
and the next call finds the group. -/
theorem found_group_not_listed :
    let refusal := OutsideFault.client "RequestLimitExceeded" "DescribeSecurityGroups" "slow down"
    let start := unprovisioned [none, none, some refusal]
    let first := operatorCall.step Region.locked "ids.json" "cluster" start
    let second := operatorCall.step Region.locked "ids.json" "cluster" first.after
    start.files.Vacancy "ids.json" ["srv"] "ids.json" ∧ start.outside.group = none ∧
      first.Creates ∧ second.outcome = .ok (some "sg-2") ∧
      CodeText.ofString "sg-2" ∉ groupsIn second.after.files "ids.json" := by
  intro refusal start first second
  refine ⟨vacancy_emptyDirectory, rfl, ⟨rfl, ?_⟩, ?_, ?_⟩
  · decide +kernel
  · decide +kernel
  · decide +kernel

end NodeLedger.Provisioning
