import NodeLedger.Proofs.Cloud.Nsg.Removal
import NodeLedger.Proofs.Provisioning.Accounts

/-!
# Teardowns on Azure, one after the other

The group of a cluster on Azure belongs to others too. A teardown takes away the rules of the policy
only, and if the service refuses one of them, the group stays on the list and the next teardown tries
again. It meets rules that are gone already, which is no failure, so in the end none of them is left.

What holds from one teardown to the next has two halves. The ledger is in its place, and the groups
that it lists are those of which something was refused; this is what a teardown accounts for. The rules
of a group are those that the exchanges have not told to be gone; this every request maintains, so it
holds wherever a teardown stops.

- `teardowns`: the host after some teardowns.
- `exists_after_teardown`: **what one teardown does** to the ledger and to the rules;
  `listed_teardowns_succ` is the same for one more teardown after some others.
- `retried_until_done`: **a group stays on the list exactly as long as something is refused**; once
  nothing is, no rule of the policy is left on it. All other rules stay as they are throughout.
-/

namespace NodeLedger.Provisioning

open Cloud FileTree Ledger

/-- The host after some teardowns, one after the other. -/
def teardowns [Json.Nesting] {σ : Type} (run : Provisioning σ) (host : Host σ) : ℕ → Host σ
  | 0 => host
  | count + 1 => (run.teardown.runOn (teardowns run host count)).2

section Retried

variable [Json.Nesting] {σ : Type} {client : Nsg.Client σ} {resources : String}
  {location : Option String} {rules : σ → CodeText → List NsgRule} {path name : CodeText}
  {ownAddress : Job σ String} {directory : Location} {I G : Finset CodeText} {state : Tracked}
  {group : CodeText} {host after : Host σ} {outcome : Except Fault Teardown}

/-- What the exchanges of a teardown tell of the rules of a group. -/
theorem sound_exchanges (hremoves : Nsg.Removes client resources rules) (group : CodeText)
    (hrun : (onPlatform (.azure client resources location) path ownAddress).teardown.runOn host
      = (outcome, after)) :
    Nsg.Sound rules group ((rules host.outside group).filter fun rule => !Nsg.isOfPolicy rule)
      ⟨after.outside, exchanges (.azure client resources location) path host⟩ := by
  have hstart : Nsg.Sound rules group
      ((rules host.outside group).filter fun rule => !Nsg.isOfPolicy rule) host.watched.outside :=
    { handled := List.forall_mem_nil _
      others := rfl
      taken := fun _ ⟨_, he, _⟩ => absurd he List.not_mem_nil }
  obtain ⟨watched, hwatched, -, houtside⟩ := exists_runOn_watched_teardown hrun
  have hmaintains := maintains_teardown
    (onPlatform (Platform.azure client resources location).watched path (pure ""))
    (fun _ => Nsg.maintains_delete hremoves location)
    (fun machines => Nsg.maintains_terminate hremoves location machines) host.watched hstart
  rw [← houtside]
  rwa [hwatched] at hmaintains

/-- **What one teardown does.** The ledger stays in its place, and of its groups it lists those of which
a rule was refused; the others are gone. -/
theorem exists_after_teardown (hremoves : Nsg.Removes client resources rules)
    (hledger : InPlace path directory name host.files state)
    (haside : ∀ i ∈ state.instances, Aside host.files (directory ++ [name]) (credentialsBeside path i))
    (hrun : (onPlatform (.azure client resources location) path ownAddress).teardown.runOn host
      = (outcome, after)) :
    let platform := Platform.azure client resources location
    ∃ later : Tracked, InPlace path directory name after.files later ∧
      later.instances ⊆ state.instances ∧ Alike host.files after.files ∧
      ∀ group, (group ∈ later.groups ↔
          group ∈ state.groups ∧ RuleFails (exchanges platform path host) group) ∧
        (group ∈ state.groups → group ∉ later.groups →
          platform.GroupGone (exchanges platform path host) group) := by
  intro platform
  cases state with
  | absent =>
    obtain ⟨last, hlast, hfiles, -⟩ :=
      runOn_teardown_of_absent platform ownAddress hledger
    cases hlast.symm.trans hrun
    rw [hfiles]
    refine ⟨.absent, hledger, subset_rfl, .refl _, fun group => ⟨?_, fun hgroup => ?_⟩⟩
    · exact iff_of_false (Finset.notMem_empty _) fun h => Finset.notMem_empty _ h.1
    · exact absurd hgroup (Finset.notMem_empty _)
  | present I G =>
    rcases cases_of_runOn_teardown hledger haside hrun with
      ⟨result, -, haccounted⟩ | ⟨-, -, e, he, hunhandled⟩
    · refine ⟨_, haccounted.settled.ledger, ?_, haccounted.settled.alike, fun group => ?_⟩
      · rw [Tracked.instances_remaining]
        exact Finset.filter_subset _ _
      rw [Tracked.groups_remaining, Finset.mem_filter]
      refine ⟨and_congr_right fun hgroup => ?_, fun hgroup hnot => ?_⟩
      · rw [(haccounted.groupsTried group hgroup).2, not_not]
        rfl
      · by_contra hleft
        exact hnot ⟨hgroup, hleft⟩
    · rw [(sound_exchanges hremoves "" hrun).handled e he] at hunhandled
      cases hunhandled

/-- What holds after some teardowns: the ledger is in its place, with some of its instances, and the
rules that are not of the policy are the same. -/
theorem exists_teardowns (location : Option String) (ownAddress : Job σ String) (host : Host σ)
    (hremoves : Nsg.Removes client resources rules)
    (hledger : InPlace path directory name host.files (.present I G))
    (haside : ∀ i ∈ I, Aside host.files (directory ++ [name]) (credentialsBeside path i))
    (group : CodeText) (count : ℕ) :
    let now := teardowns (onPlatform (.azure client resources location) path ownAddress) host count
    (∃ state : Tracked, InPlace path directory name now.files state ∧
        ∀ i ∈ state.instances, Aside now.files (directory ++ [name]) (credentialsBeside path i)) ∧
      (rules now.outside group).filter (fun rule => !Nsg.isOfPolicy rule)
        = (rules host.outside group).filter fun rule => !Nsg.isOfPolicy rule := by
  induction count with
  | zero => exact ⟨⟨.present I G, hledger, haside⟩, rfl⟩
  | succ count ih =>
    obtain ⟨⟨state, hplace, hasideNow⟩, hothers⟩ := ih
    cases hrun : (onPlatform (.azure client resources location) path ownAddress).teardown.runOn
        (teardowns (onPlatform (.azure client resources location) path ownAddress) host count) with
    | mk outcome after =>
      obtain ⟨later, hlater, hinstances, halike, -⟩ :=
        exists_after_teardown hremoves hplace hasideNow hrun
      rw [teardowns, hrun]
      refine ⟨⟨later, hlater, fun i hi => (hasideNow i (hinstances hi)).of_alike halike⟩, ?_⟩
      exact (sound_exchanges hremoves group hrun).others.trans hothers

/-- **One teardown after some others.** A group stays on the list if it was there and a rule of it was
refused. Once it has left the list, no rule of the policy is left on it. -/
theorem listed_teardowns_succ (location : Option String) (ownAddress : Job σ String) (host : Host σ)
    (hremoves : Nsg.Removes client resources rules)
    (hledger : InPlace path directory name host.files (.present I G))
    (haside : ∀ i ∈ I, Aside host.files (directory ++ [name]) (credentialsBeside path i))
    (group : CodeText) (count : ℕ) :
    let platform := Platform.azure client resources location
    let now := teardowns (onPlatform platform path ownAddress) host count
    let next := teardowns (onPlatform platform path ownAddress) host (count + 1)
    (∀ e ∈ exchanges platform path now, e.isHandled = true) ∧
      (group ∈ groupsIn next.files path ↔
        group ∈ groupsIn now.files path ∧ RuleFails (exchanges platform path now) group) ∧
      (group ∈ groupsIn now.files path → group ∉ groupsIn next.files path →
        ∀ rule ∈ rules next.outside group, Nsg.isOfPolicy rule = false) := by
  intro platform now next
  obtain ⟨⟨state, hplace, hasideNow⟩, -⟩ :=
    exists_teardowns location ownAddress host hremoves hledger haside group count
  have hrun : (onPlatform platform path ownAddress).teardown.runOn now
      = (((onPlatform platform path ownAddress).teardown.runOn now).1, next) := rfl
  obtain ⟨later, hlater, -, -, hgroups⟩ := exists_after_teardown hremoves hplace hasideNow hrun
  have hsound := sound_exchanges hremoves group hrun
  rw [hplace.groupsIn_eq, hlater.groupsIn_eq, mem_ascending, mem_ascending]
  refine ⟨hsound.handled, (hgroups group).1, fun hlisted hleft => ?_⟩
  exact hsound.isOfPolicy_eq_false ((hgroups group).2 hlisted hleft)

/-- **A group stays on the list exactly as long as something is refused.** In the first teardown in
which no rule of it is refused, it leaves the list, and no rule of the policy is left on it. All other
rules stay as they are throughout. -/
theorem retried_until_done (location : Option String) (ownAddress : Job σ String) (host : Host σ)
    (hremoves : Nsg.Removes client resources rules)
    (hledger : InPlace path directory name host.files (.present I G))
    (haside : ∀ i ∈ I, Aside host.files (directory ++ [name]) (credentialsBeside path i))
    (hgroup : group ∈ G) (count : ℕ) :
    let platform := Platform.azure client resources location
    let after := teardowns (onPlatform platform path ownAddress) host
    let lists := fun k => group ∈ groupsIn (after k).files path
    let refused := fun k => ∃ rule fault,
      .deleteRule (some group) rule (.error fault) ∈ exchanges platform path (after k) ∧
        Nsg.isResponseFault fault = true ∧ Nsg.isNotFound fault = false
    (rules (after count).outside group).filter (fun rule => !Nsg.isOfPolicy rule)
        = (rules host.outside group).filter (fun rule => !Nsg.isOfPolicy rule) ∧
      (lists (count + 1) ↔ lists count ∧ refused count) ∧
      ((∀ k < count, refused k) → ¬ refused count →
        ¬ lists (count + 1) ∧
          ∀ rule ∈ rules (after (count + 1)).outside group, Nsg.isOfPolicy rule = false) := by
  intro platform after lists refused
  have hstep : ∀ k, (lists (k + 1) ↔ lists k ∧ refused k) ∧
      (lists k → ¬ lists (k + 1) →
        ∀ rule ∈ rules (after (k + 1)).outside group, Nsg.isOfPolicy rule = false) := by
    intro k
    obtain ⟨hhandled, hlists, hleft⟩ :=
      listed_teardowns_succ location ownAddress host hremoves hledger haside group k
    refine ⟨hlists.trans (and_congr_right fun _ => ?_), hleft⟩
    -- Every failure is one of the service, so only those that are not found matter.
    refine exists₂_congr fun rule fault => and_congr_right fun hmem => (and_iff_right ?_).symm
    exact hhandled _ hmem
  refine ⟨(exists_teardowns location ownAddress host hremoves hledger haside group count).2,
    (hstep count).1, fun hbefore hdone => ?_⟩
  have hlists : ∀ k ≤ count, lists k := by
    intro k hk
    induction k with
    | zero =>
      show group ∈ groupsIn host.files path
      rw [hledger.groupsIn_eq, mem_ascending]
      exact hgroup
    | succ k ih => exact (hstep k).1.2 ⟨ih (by omega), hbefore k (by omega)⟩
  have hgone : ¬ lists (count + 1) := fun hlisted => hdone ((hstep count).1.1 hlisted).2
  exact ⟨hgone, (hstep count).2 (hlists count le_rfl) hgone⟩

end Retried

/-- A rule of a group of which only the name is known. -/
def namedRule (name : String) : NsgRule :=
  ⟨some name, none, none, none, none, none, none, none, none, none, none⟩

/-- Azure with one group, which has a rule of the policy and another one. The first deletion of a rule
that is there is refused. -/
def refusing : Nsg.OneGroup := ⟨[namedRule "RDP", namedRule "cluster"], [true]⟩

/-- The failure of a deletion of a rule. -/
def ruleFault? : Exchange → Option OutsideFault
  | .deleteRule _ _ (.error fault) => some fault
  | _ => none

attribute [local instance] Json.Nesting.usual

/-- The first teardown is refused, and the second one is not. -/
theorem retried_once :
    let platform := Platform.azure (Nsg.OneGroup.client "sg-1") "rg" none
    let host : Host Nsg.OneGroup :=
      ⟨listing oneCredential ["srv", "ids.json"] oneInstance oneGroup, [], refusing⟩
    let after := teardowns (onPlatform platform "ids.json" (pure "")) host
    Nsg.Removes (Nsg.OneGroup.client "sg-1") "rg" (Nsg.OneGroup.rulesOf "sg-1") ∧
      InPlace "ids.json" ["srv"] "ids.json" host.files
        (.present oneInstance.toFinset oneGroup.toFinset) ∧
      (∀ i ∈ oneInstance.toFinset,
        Aside host.files ["srv", "ids.json"] (credentialsBeside "ids.json" i)) ∧
      CodeText.ofString "sg-1" ∈ groupsIn (after 1).files "ids.json" ∧
      CodeText.ofString "sg-1" ∉ groupsIn (after 2).files "ids.json" ∧
      ∀ rule ∈ Nsg.OneGroup.rulesOf "sg-1" (after 2).outside "sg-1", Nsg.isOfPolicy rule = false := by
  intro platform host after
  have hremoves := Nsg.OneGroup.removes "sg-1" "rg"
  have haside : ∀ i ∈ oneInstance.toFinset,
      Aside host.files (["srv"] ++ ["ids.json"]) (credentialsBeside "ids.json" i) := fun i hi =>
    (ownFile_oneCredential i hi).aside inPlace_oneCredential.locate_replace
  have hgroup : CodeText.ofString "sg-1" ∈ oneGroup.toFinset := by decide
  have hfirst : ∃ rule fault,
      .deleteRule (some "sg-1") rule (.error fault) ∈ exchanges platform "ids.json" (after 0) ∧
        Nsg.isResponseFault fault = true ∧ Nsg.isNotFound fault = false :=
    ⟨"RDP", .response .general "conflict", by decide +kernel, rfl, rfl⟩
  have hsecond : ¬ ∃ rule fault,
      .deleteRule (some "sg-1") rule (.error fault) ∈ exchanges platform "ids.json" (after 1) ∧
        Nsg.isResponseFault fault = true ∧ Nsg.isNotFound fault = false := by
    have hquiet : ∀ e ∈ exchanges platform "ids.json" (after 1), ∀ fault ∈ ruleFault? e,
        Nsg.isNotFound fault = true := by decide +kernel
    rintro ⟨rule, fault, hmem, -, hfound⟩
    cases hfound.symm.trans (hquiet _ hmem fault rfl)
  have hlisted : CodeText.ofString "sg-1" ∈ groupsIn (after 1).files "ids.json" := by decide +kernel
  obtain ⟨hgone, hrules⟩ := (retried_until_done none (pure "") host hremoves
    inPlace_oneCredential haside hgroup 1).2.2 (by simpa using hfirst) hsecond
  exact ⟨hremoves, inPlace_oneCredential, haside, hlisted, hgone, hrules⟩

/-- An instance of the name of the ledger file takes the list away with it, although a rule of the group
was refused. -/
theorem group_lost_with_ledger :
    let platform := Platform.azure (Nsg.OneGroup.client "sg-1") "rg" none
    let host : Host Nsg.OneGroup :=
      ⟨listing emptyDirectory ["srv", "ids.json"] ["ids.json"] oneGroup, [], refusing⟩
    let after := teardowns (onPlatform platform "ids.json" (pure "")) host
    Nsg.Removes (Nsg.OneGroup.client "sg-1") "rg" (Nsg.OneGroup.rulesOf "sg-1") ∧
      InPlace "ids.json" ["srv"] "ids.json" host.files
        (.present [CodeText.ofString "ids.json"].toFinset oneGroup.toFinset) ∧
      CodeText.ofString "sg-1" ∈ groupsIn (after 0).files "ids.json" ∧
      .deleteRule (some "sg-1") "RDP" (.error (.response .general "conflict"))
        ∈ exchanges platform "ids.json" (after 0) ∧
      CodeText.ofString "sg-1" ∉ groupsIn (after 1).files "ids.json" := by
  intro platform host after
  refine ⟨Nsg.OneGroup.removes "sg-1" "rg", ?_, by decide +kernel, by decide +kernel,
    by decide +kernel⟩
  exact inPlace_listing vacancy_emptyDirectory (List.pairwise_singleton _ _)
    (List.pairwise_singleton _ _) (by decide +kernel) (by decide +kernel)

end NodeLedger.Provisioning
