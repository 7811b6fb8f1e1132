import NodeLedger.Lookup
import NodeLedger.Proofs.Provisioning.Accounts
import NodeLedger.Proofs.Provisioning.Tracking

/-!
# The life of a ledger

A ledger is used by one call after another: groups are made sure of, instances are recorded, and in
between everything is taken down. Each call may fail at any request, an instance may be recorded
twice, and the credentials come and go in the same directory. Still the file never says more or less
than what the calls have reported.

What one call does to the two sets of the ledger is what it reports, for each of the three in its own
way. So an entry is listed exactly if some call has reported it and no later one has reported that it
is gone, which is an induction over the calls: the last one either begins what is in force, or ends it,
or leaves it alone.

- `Turn`, `Turn.moments`: calls one after the other, with what each of them did.
- `InForce`: something has begun, and it has not ended since. `inForce_append_singleton` is its step.
- `exists_moves`: **what a call does to the sets of a ledger is what it reports.**
- `Matches`: the invariant. The ledger is in its place and lists what is in force. `Matches.append` is
  its step, and `Matches.of_moments` the run.
- `ledger_lists_what_is_in_force`: **after every call the ledger lists what is in force**, in order, and
  the file is missing exactly if nothing is.
-/

namespace NodeLedger.Provisioning

open Cloud FileTree Ledger

/-! ## Calls one after the other -/

/-- What a call is for. -/
inductive Act where
  | ensure (cluster network : String)
  | track (machine : CodeText) (credentials : Option Credentials)
  | teardown

/-- The call is not for an instance, or for one that has a file of its own beside the ledger. Its name
splits no character, and its credentials can be stored. -/
def Act.Fits (tree : FileTree) (directory : Location) (name : CodeText) : Act → Prop
  | .track machine credentials =>
    machine.Unsplit ∧ OwnFile tree directory name machine ∧ ∀ c ∈ credentials, Storable machine c
  | _ => True

theorem Act.Fits.of_alike {tree later : FileTree} {directory : Location} {name : CodeText} {act : Act}
    (h : act.Fits tree directory name) (halike : Alike tree later) : act.Fits later directory name := by
  cases act with
  | track machine credentials =>
    obtain ⟨hunsplit, hown, hstorable⟩ := h
    exact ⟨hunsplit, hown.of_alike halike, hstorable⟩
  | ensure cluster network => trivial
  | teardown => trivial

/-- What a call reports. -/
inductive Report where
  | ensured (group : GroupId)
  | tracked (recorded : Bool)
  | tornDown (result : Teardown)
  deriving Repr, DecidableEq

/-- A call on a cloud. Whoever tells the operator's address has nothing to do with the files. -/
structure Turn (σ : Type) where
  platform : Platform σ
  ownAddress : Job σ String
  keepsFiles : ownAddress.Keeps (·.files)
  act : Act

/-- The service that is asked for the operator's address has nothing to do with the files. -/
theorem keepsFiles_ownAddress {σ : Type} (web : Web σ) (settings : Settings) (service : Option String)
    (timeout : Int) : (Lookup.ownAddress web settings service timeout).Keeps (·.files) := by
  refine Job.keepsFiles_ask_bind (fun answer => ?_) fun fault => Job.keeps_throw _
  refine Job.keeps_ite (Job.keeps_throw _) ?_
  cases Address.findV4 answer.text with
  | none => exact Job.keeps_throw _
  | some address => exact Job.keeps_bind (Job.keepsFiles_log _ _) fun _ => Job.keeps_pure _

/-- What one call did. -/
structure Moment (σ : Type) where
  turn : Turn σ
  before : Host σ
  outcome : Except Fault Report
  after : Host σ

namespace Turn

variable {σ : Type}

/-- The run that a call is a part of. -/
def run (path : CodeText) (turn : Turn σ) : Provisioning σ :=
  onPlatform turn.platform path turn.ownAddress

/-- The job of a call. -/
def job [Json.Nesting] (path : CodeText) (turn : Turn σ) : Job σ Report :=
  match turn.act with
  | .ensure cluster network => return .ensured (← (turn.run path).ensureGroup cluster network)
  | .track machine credentials => return .tracked (← (turn.run path).trackInstance machine credentials)
  | .teardown => return .tornDown (← (turn.run path).teardown)

/-- The moment of a call. -/
def moment [Json.Nesting] (path : CodeText) (turn : Turn σ) (host : Host σ) : Moment σ :=
  ⟨turn, host, ((turn.job path).runOn host).1, ((turn.job path).runOn host).2⟩

/-- Calls one after the other, with what each of them did. -/
def moments [Json.Nesting] (path : CodeText) : List (Turn σ) → Host σ → List (Moment σ)
  | [], _ => []
  | turn :: turns, host => turn.moment path host :: moments path turns (turn.moment path host).after

/-- A call reports what its job returns. -/
theorem moment_of_runOn [Json.Nesting] {α : Type} {path : CodeText} {turn : Turn σ} {job : Job σ α}
    {report : α → Report} {host after : Host σ} {outcome : Except Fault α}
    (hjob : turn.job path = (do return report (← job))) (hrun : job.runOn host = (outcome, after)) :
    (turn.moment path host).outcome = outcome.map report ∧ (turn.moment path host).after = after := by
  rw [moment, hjob, Job.runOn_bind, hrun]
  cases outcome with
  | ok a => exact ⟨rfl, rfl⟩
  | error fault => exact ⟨rfl, rfl⟩

end Turn

namespace Moment

variable {σ : Type}

/-- The call has recorded the instance. -/
def Tracks (moment : Moment σ) (machine : CodeText) : Prop :=
  moment.outcome = .ok (.tracked true) ∧
    ∃ credentials, moment.turn.act = .track machine credentials

/-- The call has reported the instance as terminated. -/
def Terminates (moment : Moment σ) (machine : CodeText) : Prop :=
  ∃ result, moment.outcome = .ok (.tornDown result) ∧ machine ∈ result.terminated

/-- The call has found no group of its cluster, so that it has to create one. -/
def Creates (path : CodeText) (moment : Moment σ) : Prop :=
  ∃ cluster network, moment.turn.act = .ensure cluster network ∧
    (((moment.turn.run path).search cluster).runOn moment.before).1 = .ok none

/-- The call has returned the group, and it has created it, or groups that were found are recorded on
its cloud too. -/
def Records (path : CodeText) (moment : Moment σ) (group : CodeText) : Prop :=
  moment.outcome = .ok (.ensured (some group)) ∧
    (moment.Creates path ∨ moment.turn.platform.provider.recordsFoundGroups = true)

/-- The call has reported the group as deleted. -/
def Deletes (moment : Moment σ) (group : CodeText) : Prop :=
  ∃ result, moment.outcome = .ok (.tornDown result) ∧ group ∈ result.deletedGroups

section Reports

variable {path : CodeText} {moment : Moment σ} {e : CodeText}

/-! A call reports only what it is for. -/

theorem not_tracks {report : Report} (h : moment.outcome = .ok report) (hother : report ≠ .tracked true) :
    ¬ moment.Tracks e :=
  fun htracks => hother (Except.ok.inj (h.symm.trans htracks.1))

theorem not_records {report : Report} (h : moment.outcome = .ok report)
    (hother : ∀ group, report ≠ .ensured group) : ¬ moment.Records path e :=
  fun hrecords => hother _ (Except.ok.inj (h.symm.trans hrecords.1))

theorem terminates_iff {result : Teardown} (h : moment.outcome = .ok (.tornDown result)) :
    moment.Terminates e ↔ e ∈ result.terminated := by
  refine ⟨?_, fun he => ⟨result, h, he⟩⟩
  rintro ⟨other, hother, he⟩
  cases h.symm.trans hother
  exact he

theorem deletes_iff {result : Teardown} (h : moment.outcome = .ok (.tornDown result)) :
    moment.Deletes e ↔ e ∈ result.deletedGroups := by
  refine ⟨?_, fun he => ⟨result, h, he⟩⟩
  rintro ⟨other, hother, he⟩
  cases h.symm.trans hother
  exact he

theorem not_terminates {report : Report} (h : moment.outcome = .ok report)
    (hother : ∀ result, report ≠ .tornDown result) : ¬ moment.Terminates e :=
  fun ⟨result, hresult, _⟩ => hother result (Except.ok.inj (h.symm.trans hresult))

theorem not_deletes {report : Report} (h : moment.outcome = .ok report)
    (hother : ∀ result, report ≠ .tornDown result) : ¬ moment.Deletes e :=
  fun ⟨result, hresult, _⟩ => hother result (Except.ok.inj (h.symm.trans hresult))

/-- A call that fails reports nothing. -/
theorem reports_nothing {fault : Fault} (h : moment.outcome = .error fault) :
    ¬ moment.Tracks e ∧ ¬ moment.Terminates e ∧ ¬ moment.Records path e ∧ ¬ moment.Deletes e := by
  have hnone : ∀ report, moment.outcome ≠ .ok report := fun report hok => by cases h.symm.trans hok
  refine ⟨fun htracks => hnone _ htracks.1, ?_, fun hrecords => hnone _ hrecords.1, ?_⟩
  · rintro ⟨result, hresult, -⟩
    exact hnone _ hresult
  · rintro ⟨result, hresult, -⟩
    exact hnone _ hresult

end Reports

end Moment

/-! ## What is in force -/

section InForce

variable {α β : Type} {starts ends : α → β → Prop} {history : List α} {now : α} {b : β}

/-- Something has begun, and it has not ended since. -/
def InForce (starts ends : α → β → Prop) (history : List α) (b : β) : Prop :=
  ∃ before now after, history = before ++ now :: after ∧ starts now b ∧
    ∀ later ∈ after, ¬ ends later b

theorem not_inForce_nil : ¬ InForce starts ends [] b := by
  rintro ⟨before, now, after, heq, -⟩
  exact List.append_ne_nil_of_right_ne_nil _ (List.cons_ne_nil _ _) heq.symm

/-- What is in force has begun just now, or was in force and has not ended just now. -/
theorem inForce_append_singleton :
    InForce starts ends (history ++ [now]) b ↔
      starts now b ∨ InForce starts ends history b ∧ ¬ ends now b := by
  constructor
  · rintro ⟨before, begun, after, heq, hstarts, hlasts⟩
    rcases List.eq_nil_or_concat after with rfl | ⟨after, last, rfl⟩
    · obtain ⟨-, hlast⟩ := List.append_inj' heq rfl
      cases hlast
      exact .inl hstarts
    · rw [List.concat_eq_append, ← List.cons_append, ← List.append_assoc] at heq
      obtain ⟨rfl, hlast⟩ := List.append_inj' heq rfl
      cases hlast
      rw [List.concat_eq_append] at hlasts
      exact .inr ⟨⟨before, begun, after, rfl, hstarts, fun later hlater =>
        hlasts later (List.mem_append_left _ hlater)⟩,
        hlasts now (List.mem_append_right _ (List.mem_singleton_self _))⟩
  · rintro (hstarts | ⟨⟨before, begun, after, rfl, hstarts, hlasts⟩, hlast⟩)
    · exact ⟨history, now, [], rfl, hstarts, List.forall_mem_nil _⟩
    · refine ⟨before, begun, after ++ [now], by simp, hstarts, fun later hlater => ?_⟩
      rcases List.mem_append.1 hlater with hlater | hlater
      · exact hlasts later hlater
      · rwa [List.mem_singleton.1 hlater]

/-- After a single call, what is in force has begun with it. -/
theorem inForce_singleton : InForce starts ends [now] b ↔ starts now b :=
  inForce_append_singleton.trans (or_iff_left fun h => not_inForce_nil h.1)

end InForce

/-! ## What one call does to the sets -/

/-- What a call has done to the sets of a ledger is what it reports. -/
structure Moves {σ : Type} (path : CodeText) (directory : Location) (name : CodeText) (moment : Moment σ)
    (state later : Tracked) : Prop where
  alike : Alike moment.before.files moment.after.files
  place : InPlace path directory name moment.after.files later
  tight : state.IsTight → later.IsTight
  instances : ∀ i, i ∈ later.instances ↔
    moment.Tracks i ∨ i ∈ state.instances ∧ ¬ moment.Terminates i
  groups : ∀ g, g ∈ later.groups ↔ moment.Records path g ∨ g ∈ state.groups ∧ ¬ moment.Deletes g

section Moves

variable {σ : Type} {path name : CodeText} {directory : Location} {state : Tracked} {host : Host σ}

/-- A call that fails and changes no file has moved nothing. -/
theorem moves_of_error {moment : Moment σ} {fault : Fault} (houtcome : moment.outcome = .error fault)
    (hfiles : moment.after.files = moment.before.files)
    (h : InPlace path directory name moment.before.files state) :
    Moves path directory name moment state state := by
  have hnothing : ∀ e, ¬ moment.Tracks e ∧ ¬ moment.Terminates e ∧ ¬ moment.Records path e ∧
      ¬ moment.Deletes e := fun e => Moment.reports_nothing houtcome
  constructor
  case alike =>
    rw [hfiles]
    exact .refl _
  case place => rwa [hfiles]
  case tight => exact id
  case instances =>
    intro i
    obtain ⟨htracks, hterminates, -⟩ := hnothing i
    rw [or_iff_right htracks, and_iff_left hterminates]
  case groups =>
    intro g
    obtain ⟨-, -, hrecords, hdeletes⟩ := hnothing g
    rw [or_iff_right hrecords, and_iff_left hdeletes]

theorem exists_moves_track [Json.Nesting] (turn : Turn σ) {machine : CodeText}
    {credentials : Option Credentials} (hact : turn.act = .track machine credentials)
    (h : InPlace path directory name host.files state)
    (hfits : (Act.track machine credentials).Fits host.files directory name) :
    ∃ later, Moves path directory name (turn.moment path host) state later := by
  obtain ⟨hunsplit, hown, hstorable⟩ := hfits
  obtain ⟨recorded, after, later, hrun, halike, hplace, hinstances, hgroups, htight⟩ :=
    exists_runOn_trackInstance (turn.run path) h hunsplit hown hstorable
  obtain ⟨houtcome, rfl⟩ := Turn.moment_of_runOn (by rw [Turn.job, hact]) hrun
  have htracks : ∀ i, (turn.moment path host).Tracks i ↔ recorded = true ∧ i = machine := by
    intro i
    constructor
    · rintro ⟨hrecorded, others, hother⟩
      cases houtcome.symm.trans hrecorded
      cases hact.symm.trans hother
      exact ⟨rfl, rfl⟩
    · rintro ⟨rfl, rfl⟩
      exact ⟨houtcome, credentials, hact⟩
  refine ⟨later, halike, hplace, htight, fun i => ?_, fun g => ?_⟩
  · rw [hinstances, htracks, and_iff_left (Moment.not_terminates houtcome nofun)]
  · rw [hgroups, or_iff_right (Moment.not_records houtcome nofun),
      and_iff_left (Moment.not_deletes houtcome nofun)]

theorem exists_moves_ensure [Json.Nesting] (turn : Turn σ) {cluster network : String}
    (hact : turn.act = .ensure cluster network) (h : InPlace path directory name host.files state)
    (hreturned : ∀ group, (turn.moment path host).outcome = .ok (.ensured group) →
      ∃ e, group = some e ∧ e ≠ "" ∧ e.Unsplit) :
    ∃ later, Moves path directory name (turn.moment path host) state later := by
  cases hrun : ((turn.run path).ensureGroup cluster network).runOn host with
  | mk outcome after =>
    obtain ⟨houtcome, rfl⟩ := Turn.moment_of_runOn (by rw [Turn.job, hact]) hrun
    rcases cases_of_runOn_ensureGroup_of_keeps (keepsFiles_provider turn.platform) turn.keepsFiles hrun
      with ⟨⟨fault, rfl⟩, hfiles⟩ | ⟨found, identifier, middle, hsearch, hfiles, hrecord⟩
    · exact ⟨state, moves_of_error houtcome hfiles h⟩
    rw [← hfiles] at h
    have hok := outcome_of_runOn_recordNew (turn.run path) h found identifier
    rw [hrecord] at hok
    obtain rfl : outcome = .ok identifier := hok
    obtain ⟨group, rfl, hne, hunsplit⟩ := hreturned identifier houtcome
    obtain ⟨last, later, hlast, halike, hplace, hinstances, hgroups, htight⟩ :=
      exists_runOn_recordNew (turn.run path) h hunsplit hne found
    obtain rfl : (turn.moment path host).after = last :=
      congrArg Prod.snd (hrecord.symm.trans hlast)
    rw [hfiles] at halike
    have hcreates : (turn.moment path host).Creates path ↔ found = none := by
      constructor
      · rintro ⟨other, others, hother, hnone⟩
        cases hact.symm.trans hother
        exact Except.ok.inj (hsearch.symm.trans hnone)
      · rintro rfl
        exact ⟨cluster, network, hact, hsearch⟩
    have hrecords : ∀ g, (turn.moment path host).Records path g ↔
        (found = none ∨ turn.platform.provider.recordsFoundGroups = true) ∧ g = group := by
      intro g
      rw [Moment.Records, hcreates, and_comm]
      refine and_congr_right fun _ => ⟨fun heq => ?_, ?_⟩
      · cases houtcome.symm.trans heq
        rfl
      · rintro rfl
        exact houtcome
    refine ⟨later, halike, hplace, htight, fun i => ?_, fun g => ?_⟩
    · rw [hinstances, or_iff_right (Moment.not_tracks houtcome nofun),
        and_iff_left (Moment.not_terminates houtcome nofun)]
    · rw [hrecords, and_iff_left (Moment.not_deletes houtcome nofun)]
      exact hgroups g

theorem exists_moves_teardown [Json.Nesting] (turn : Turn σ) (hact : turn.act = .teardown)
    (h : InPlace path directory name host.files state)
    (haside : ∀ i ∈ state.instances, Aside host.files (directory ++ [name]) (credentialsBeside path i)) :
    ∃ later, Moves path directory name (turn.moment path host) state later := by
  cases hrun : (turn.run path).teardown.runOn host with
  | mk outcome after =>
    obtain ⟨houtcome, rfl⟩ := Turn.moment_of_runOn (by rw [Turn.job, hact]) hrun
    cases state with
    | absent =>
      obtain ⟨last, hlast, hfiles, -⟩ := runOn_teardown_of_absent turn.platform turn.ownAddress h
      obtain ⟨rfl, rfl⟩ := Prod.mk.inj (hlast.symm.trans hrun)
      exact ⟨.absent, moves_of_error houtcome hfiles h⟩
    | present I G =>
      rcases cases_of_runOn_teardown h haside hrun with
        ⟨result, rfl, haccounted⟩ | ⟨⟨fault, rfl⟩, hfiles, -⟩
      · refine ⟨_, haccounted.settled.alike, haccounted.settled.ledger,
          fun _ => Tracked.isTight_remaining _ _, fun i => ?_, fun g => ?_⟩
        · rw [Tracked.instances_remaining, Finset.mem_filter,
            or_iff_right (Moment.not_tracks houtcome nofun), Moment.terminates_iff houtcome,
            haccounted.terminated, List.mem_filter, Ledger.mem_ascending, decide_eq_true_eq]
          exact and_congr_right fun hi => not_congr (and_iff_right hi).symm
        · rw [Tracked.groups_remaining, Finset.mem_filter,
            or_iff_right (Moment.not_records houtcome nofun), Moment.deletes_iff houtcome,
            haccounted.deletedGroups, List.mem_filter, Ledger.mem_ascending, decide_eq_true_eq]
          exact and_congr_right fun hg => not_congr (and_iff_right hg).symm
      · exact ⟨.present I G, moves_of_error houtcome hfiles h⟩

/-- **What a call does to the sets of a ledger is what it reports**, whichever call it is. -/
theorem exists_moves [Json.Nesting] (turn : Turn σ)
    (h : InPlace path directory name host.files state)
    (hlisted : ∀ i ∈ state.instances, OwnFile host.files directory name i)
    (hfits : turn.act.Fits host.files directory name)
    (hreturned : ∀ group, (turn.moment path host).outcome = .ok (.ensured group) →
      ∃ e, group = some e ∧ e ≠ "" ∧ e.Unsplit) :
    ∃ later, Moves path directory name (turn.moment path host) state later := by
  cases hact : turn.act with
  | ensure cluster network => exact exists_moves_ensure turn hact h hreturned
  | track machine credentials =>
    rw [hact] at hfits
    exact exists_moves_track turn hact h hfits
  | teardown =>
    exact exists_moves_teardown turn hact h fun i hi => (hlisted i hi).aside h.locate_replace

end Moves

/-! ## Whole runs -/

/-- After the calls of a history, the ledger is in its place, and it lists what is in force. The names of
the listed instances are those of files beside it. -/
structure Matches {σ : Type} (path : CodeText) (directory : Location) (name : CodeText) (start : FileTree)
    (history : List (Moment σ)) (now : Host σ) (state : Tracked) : Prop where
  alike : Alike start now.files
  place : InPlace path directory name now.files state
  tight : state.IsTight
  own : ∀ i ∈ state.instances, OwnFile start directory name i
  instances : ∀ i, i ∈ state.instances ↔ InForce Moment.Tracks Moment.Terminates history i
  groups : ∀ g, g ∈ state.groups ↔ InForce (Moment.Records path) Moment.Deletes history g

section Run

variable {σ : Type} {path name : CodeText} {directory : Location} {state later : Tracked}
  {start : FileTree} {history : List (Moment σ)} {now : Host σ}

/-- Before the first call nothing is in force. -/
theorem matches_nil (hvacancy : now.files.Vacancy path directory name) :
    Matches path directory name now.files [] now .absent where
  alike := .refl _
  place := .absent hvacancy
  tight := Tracked.isTight_absent
  own i hi := absurd hi (Finset.notMem_empty i)
  instances i := iff_of_false (Finset.notMem_empty i) not_inForce_nil
  groups g := iff_of_false (Finset.notMem_empty g) not_inForce_nil

/-- **One call keeps the invariant**, whatever it is for and however it ends. -/
theorem Matches.append [Json.Nesting] {turn : Turn σ}
    (h : Matches path directory name start history now state)
    (hfits : turn.act.Fits start directory name)
    (hmoves : Moves path directory name (turn.moment path now) state later) :
    Matches path directory name start (history ++ [turn.moment path now])
      (turn.moment path now).after later where
  alike := h.alike.trans hmoves.alike
  place := hmoves.place
  tight := hmoves.tight h.tight
  own i hi := by
    rcases (hmoves.instances i).1 hi with ⟨-, credentials, hact⟩ | ⟨hi, -⟩
    · change turn.act = _ at hact
      rw [hact] at hfits
      exact hfits.2.1
    · exact h.own i hi
  instances i := by rw [hmoves.instances, h.instances, inForce_append_singleton]
  groups g := by rw [hmoves.groups, h.groups, inForce_append_singleton]

/-- **A whole run keeps the invariant** up to any of its calls. -/
theorem Matches.of_moments [Json.Nesting] {turns : List (Turn σ)} {earlier rest : List (Moment σ)}
    {last : Moment σ} (h : Matches path directory name start history now state)
    (hfits : ∀ turn ∈ turns, turn.act.Fits start directory name)
    (hmoments : Turn.moments path turns now = earlier ++ last :: rest)
    (hreturned : ∀ moment ∈ earlier ++ [last], ∀ group, moment.outcome = .ok (.ensured group) →
      ∃ e, group = some e ∧ e ≠ "" ∧ e.Unsplit) :
    ∃ later, Matches path directory name start (history ++ (earlier ++ [last])) last.after later := by
  induction turns generalizing history now state earlier with
  | nil => exact absurd hmoments.symm (List.append_ne_nil_of_right_ne_nil _ (List.cons_ne_nil _ _))
  | cons turn turns ih =>
    obtain ⟨hturn, hturns⟩ := List.forall_mem_cons.1 hfits
    -- The first call leads to a later state, from which the other ones go on.
    have hstep : (∀ group, (turn.moment path now).outcome = .ok (.ensured group) →
        ∃ e, group = some e ∧ e ≠ "" ∧ e.Unsplit) →
        ∃ later, Matches path directory name start (history ++ [turn.moment path now])
          (turn.moment path now).after later := by
      intro hfirst
      obtain ⟨later, hmoves⟩ := exists_moves turn h.place
        (fun i hi => (h.own i hi).of_alike h.alike) (hturn.of_alike h.alike) hfirst
      exact ⟨later, h.append hturn hmoves⟩
    rw [Turn.moments] at hmoments
    cases earlier with
    | nil =>
      obtain ⟨rfl, -⟩ := List.cons.inj hmoments
      exact hstep (hreturned _ (List.mem_singleton_self _))
    | cons first earlier =>
      obtain ⟨rfl, hrest⟩ := List.cons.inj hmoments
      rw [List.cons_append] at hreturned
      obtain ⟨hfirst, hothers⟩ := List.forall_mem_cons.1 hreturned
      obtain ⟨later, hlater⟩ := hstep hfirst
      obtain ⟨last, hlast⟩ := ih hlater hturns hrest hothers
      rw [List.append_assoc] at hlast
      exact ⟨last, hlast⟩

/-- **After every call the ledger lists what is in force.** A run starts where there is no ledger file.
Any request of any call may fail, also with a fault that ends the call, an instance may be recorded
again, and the credentials of each instance can be stored in a file beside the ledger. After every call, the
instances that are listed are those that a call has recorded and that no later one has terminated, and
the groups are those that a call has created and returned, or has found and returned where groups that
were found are recorded too, and that no later one has deleted. Each is listed once, in order. The file
is missing exactly if there are none. -/
theorem ledger_lists_what_is_in_force [Json.Nesting] (start : Host σ)
    (hvacancy : start.files.Vacancy path directory name) {turns : List (Turn σ)}
    (hfits : ∀ turn ∈ turns, turn.act.Fits start.files directory name)
    {earlier rest : List (Moment σ)} {last : Moment σ}
    (hmoments : Turn.moments path turns start = earlier ++ last :: rest)
    (hreturned : ∀ moment ∈ earlier ++ [last], ∀ group, moment.outcome = .ok (.ensured group) →
      ∃ e, group = some e ∧ e ≠ "" ∧ e.Unsplit) :
    let instances := fun i => InForce Moment.Tracks Moment.Terminates (earlier ++ [last]) i
    let groups := fun g => InForce (Moment.Records path) Moment.Deletes (earlier ++ [last]) g
    (last.after.files.present path = false ↔ (∀ i, ¬ instances i) ∧ ∀ g, ¬ groups g) ∧
      (last.after.files.present path = true → ∃ ledger, load last.after.files path = .ok ledger ∧
        ledger.instances.Pairwise (· < ·) ∧ ledger.groups.Pairwise (· < ·) ∧
        (∀ i, i ∈ ledger.instances ↔ instances i) ∧ ∀ g, g ∈ ledger.groups ↔ groups g) := by
  intro instances groups
  obtain ⟨state, hmatches⟩ := (matches_nil hvacancy).of_moments hfits hmoments hreturned
  rw [List.nil_append] at hmatches
  have hpresent := hmatches.place.present_eq
  have htight : state = .absent ↔ state.instances = ∅ ∧ state.groups = ∅ := hmatches.tight
  constructor
  · rw [hpresent, Tracked.isSome_ledger?_eq_false_iff, htight,
      Finset.eq_empty_iff_forall_notMem, Finset.eq_empty_iff_forall_notMem]
    exact and_congr (forall_congr' fun i => not_congr (hmatches.instances i))
      (forall_congr' fun g => not_congr (hmatches.groups g))
  · rw [hpresent]
    intro hsome
    cases state with
    | absent => cases hsome
    | present I G =>
      refine ⟨_, hmatches.place.load_present, pairwise_ascending I, pairwise_ascending G,
        fun i => ?_, fun g => ?_⟩
      · exact mem_ascending.trans (hmatches.instances i)
      · exact mem_ascending.trans (hmatches.groups g)

end Run

/-- A call on AWS, without any variable set. -/
def ec2Turn (act : Act) : Turn Rehearsal :=
  ⟨.ec2 Rehearsal.ec2 (some "vpc-1"), _, keepsFiles_ownAddress Rehearsal.clouds.web (.ofEnvironment [])
    none Lookup.defaultTimeout, act⟩

/-- The group of a cluster is made sure of. -/
def ensureTurn : Turn Rehearsal := ec2Turn (.ensure "cluster" "10.0.0.0/16")

/-- An instance is recorded with its credentials. -/
def trackTurn : Turn Rehearsal :=
  ec2Turn (.track "i-1" (some ⟨"i-1", "192.0.2.10", "secret", Credentials.defaultUser⟩))

attribute [local instance] Json.Nesting.usual

/-- A group is created and an instance recorded; then the group is deleted, but the instance cannot be
terminated. It is still listed, and the group is not. -/
theorem ledger_lists_what_is_left :
    let refusal := OutsideFault.client "UnauthorizedOperation" "TerminateInstances" "denied"
    let start := rehearsed emptyDirectory { terminate := [.error refusal] }
    let first := ensureTurn.moment "ids.json" start
    let second := trackTurn.moment "ids.json" first.after
    let third := (ec2Turn .teardown).moment "ids.json" second.after
    start.files.Vacancy "ids.json" ["srv"] "ids.json" ∧
      (∀ turn ∈ [ensureTurn, trackTurn, ec2Turn .teardown],
        turn.act.Fits start.files ["srv"] "ids.json") ∧
      Turn.moments "ids.json" [ensureTurn, trackTurn, ec2Turn .teardown] start
        = [first, second] ++ third :: [] ∧
      first.outcome = .ok (.ensured (some "sg-default")) ∧
      third.outcome = .ok (.tornDown ⟨[], ["sg-default"], ["i-1"]⟩) ∧
      ∃ ledger, load third.after.files "ids.json" = .ok ledger ∧
        CodeText.ofString "i-1" ∈ ledger.instances ∧ CodeText.ofString "sg-default" ∉ ledger.groups := by
  intro refusal start first second third
  have hown : OwnFile start.files ["srv"] "ids.json" "i-1" := by
    refine ownFile_ofString (by decide) (by decide) fun target hlink => ?_
    have hnone : start.files.node? ["srv", "i-1"] = none := by decide +kernel
    cases hnone.symm.trans hlink
  have htrack : trackTurn.act.Fits start.files ["srv"] "ids.json" := by
    refine ⟨CodeText.unsplit_ofString "i-1", hown, fun c hc => ?_⟩
    cases hc
    exact ⟨rfl, exists_of_isOk (by decide +kernel)⟩
  have hfits : ∀ turn ∈ [ensureTurn, trackTurn, ec2Turn .teardown],
      turn.act.Fits start.files ["srv"] "ids.json" := by
    refine List.forall_mem_cons.2 ⟨trivial, List.forall_mem_cons.2 ⟨htrack, ?_⟩⟩
    exact List.forall_mem_singleton.2 trivial
  have hfirst : first.outcome = .ok (.ensured (some "sg-default")) := by decide +kernel
  have hsecond : second.outcome = .ok (.tracked true) := by decide +kernel
  have hthird : third.outcome = .ok (.tornDown ⟨[], ["sg-default"], ["i-1"]⟩) := by decide +kernel
  have hmoments : Turn.moments "ids.json" [ensureTurn, trackTurn, ec2Turn .teardown] start
      = [first, second] ++ third :: [] := rfl
  refine ⟨vacancy_emptyDirectory, hfits, hmoments, hfirst, hthird, ?_⟩
  have hlists := (ledger_lists_what_is_in_force start vacancy_emptyDirectory hfits hmoments ?_).2
  · obtain ⟨ledger, hload, -, -, hinstances, hgroups⟩ := hlists (by decide +kernel)
    refine ⟨ledger, hload, (hinstances _).2 ⟨[first], second, [third], rfl,
      ⟨hsecond, _, rfl⟩, ?_⟩, fun hlisted => ?_⟩
    · intro later hlater
      rw [List.mem_singleton.1 hlater, Moment.terminates_iff hthird]
      exact List.not_mem_nil
    · -- Whichever call the group was in force since, the last one has reported it as deleted.
      rcases inForce_append_singleton.1 ((hgroups _).1 hlisted) with hrecords | ⟨-, hleft⟩
      · exact Moment.not_records hthird (fun _ heq => by cases heq) hrecords
      · exact hleft ((Moment.deletes_iff hthird).2 (List.mem_singleton_self _))
  · intro moment hmoment group hensured
    rcases List.mem_cons.1 hmoment with rfl | hmoment
    · cases hfirst.symm.trans hensured
      exact ⟨"sg-default", rfl, by decide, by decide +kernel⟩
    · rcases List.mem_pair.1 hmoment with rfl | rfl
      · cases hsecond.symm.trans hensured
      · cases hthird.symm.trans hensured

/-- The first call of all records an instance that has a name, and that is not named like the ledger, like
a directory or like anything elsewhere. What the ledger then says of the instance is wrong. -/
def Misreported [Json.Nesting] (files : FileTree) (path machine : CodeText)
    (credentials : Option Credentials) : Prop :=
  let first := (ec2Turn (.track machine credentials)).moment path (rehearsed files {})
  (machine ≠ "" ∧ machine ≠ "." ∧ machine ≠ ".." ∧ machine ≠ path ∧ .char '/' ∉ machine.points ∧
      .char '\x00' ∉ machine.points) ∧ files.Vacancy path ["srv"] path ∧
    ¬ (machine ∈ instancesIn first.after.files path ↔
      InForce Moment.Tracks Moment.Terminates [first] machine)

/-- After one call, the ledger is to list the instance exactly if the answer was yes. -/
theorem misreported_of_answer [Json.Nesting] {files : FileTree} {path machine : CodeText}
    {credentials : Option Credentials}
    (hname : machine ≠ "" ∧ machine ≠ "." ∧ machine ≠ ".." ∧ machine ≠ path ∧
      .char '/' ∉ machine.points ∧ .char '\x00' ∉ machine.points)
    (hvacancy : files.Vacancy path ["srv"] path)
    (h : let first := (ec2Turn (.track machine credentials)).moment path (rehearsed files {})
      ¬ (machine ∈ instancesIn first.after.files path ↔ first.outcome = .ok (.tracked true))) :
    Misreported files path machine credentials := by
  refine ⟨hname, hvacancy, fun hiff => h (hiff.trans (inForce_singleton.trans ?_))⟩
  exact and_iff_left ⟨credentials, rfl⟩

/-- The access to an instance with this password. -/
def access (password : CodeText) : Credentials :=
  ⟨"i-1", "192.0.2.10", password, Credentials.defaultUser⟩

/-- A character that is split into its two halves. -/
def splitName : CodeText := ⟨[.half 0x3d, .half 0x600]⟩

/-- What becomes of names and of credentials that have no place in the account above. Through a link, or
by a name of the same bytes, credentials are written over the ledger. The two halves of a name, that of an
instance or of a group, are read back as the character. And where a half without its partner keeps the
credentials from being stored, the call ends with a fault after the instance was listed. -/
theorem misreported_beside_links_or_halves :
    Misreported (emptyDirectory.insert ["srv", "i-1"] (.link "ids.json")) "ids.json" "i-1"
        (some (access "secret")) ∧
      Misreported emptyDirectory "é" ⟨[.half 0x4c3, .half 0x4a9]⟩ (some (access "secret")) ∧
      Misreported emptyDirectory "ids.json" splitName none ∧
      Misreported emptyDirectory "ids.json" ⟨[.half 0]⟩ (some (access "secret")) ∧
      Misreported emptyDirectory "ids.json" "i-1" (some (access ⟨[.half 0]⟩)) ∧
      let first := ensureTurn.moment "ids.json"
        (rehearsed emptyDirectory { createGroup := [.ok (some ⟨.value splitName⟩)] })
      InForce (Moment.Records "ids.json") Moment.Deletes [first] splitName ∧
        splitName ∉ groupsIn first.after.files "ids.json" := by
  have hvacancy := vacancy_emptyDirectory
  refine ⟨?_, ?_, ?_, ?_, ?_, ?_⟩
  · exact misreported_of_answer (by decide) (by decide +kernel) (by decide +kernel)
  · exact misreported_of_answer (by decide) (by decide +kernel) (by decide +kernel)
  · exact misreported_of_answer (by decide) hvacancy (by decide +kernel)
  · exact misreported_of_answer (by decide) hvacancy (by decide +kernel)
  · exact misreported_of_answer (by decide) hvacancy (by decide +kernel)
  · intro first
    have hcreates : first.Creates "ids.json" := ⟨"cluster", "10.0.0.0/16", rfl, by decide +kernel⟩
    exact ⟨inForce_singleton.2 ⟨by decide +kernel, .inl hcreates⟩, by decide +kernel⟩

end NodeLedger.Provisioning
