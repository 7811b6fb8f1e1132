import NodeLedger.Proofs.Cloud.Ec2.Region
import NodeLedger.Proofs.Provisioning.Stages

/-!
# Making sure of a group on EC2

To make sure of a group is to find it or create it, to list its rules, to authorize what is missing,
and to record it if it was created. Each of these steps may fail, and then the later ones are not
taken.

- `Provisioning.onRegion`: an operator's run against a region.
- `Ready`, `Conforming`: the host when the group is there, and when it has been asked to conform.
- `cases_of_runOn_ensureGroup`: **everything that making sure of a group can do**, whatever fails;
  `permissions_of_runOn_ensureGroup` is what becomes of the permissions.
-/

namespace NodeLedger.Provisioning

open Cloud Cloud.Ec2 Policy

/-- An operator's run against a region of EC2. -/
def onRegion (others : Client Region) (network : Option String) (ledgerPath : CodeText)
    (requester : Except Fault String) : Provisioning Region where
  provider := Ec2.provider (Region.client others) network
  ledgerPath := ledgerPath
  ownAddress := Job.ofExcept requester

/-! ## Making sure of the group -/

/-- The group is there: it was found, or has been created without permissions. -/
structure Ready (before middle : Host Region) : Prop where
  files : middle.files = before.files
  coming : middle.outside.coming = before.outside.coming
  group : middle.outside.group = some (before.outside.identifier, before.outside.permissions)

/-- The group is there, and what a visit asks for may have been authorized. -/
structure Conforming (visit : Visit) (before last : Host Region) : Prop where
  files : last.files = before.files
  coming : last.outside.coming = before.outside.coming
  group : ∃ held, last.outside.group = some (before.outside.identifier, held) ∧
    (held = before.outside.permissions ∨
      ∃ sent, permissionsFor (observed before.outside.permissions)
          (visit.changes ec2Rules (observed before.outside.permissions)) = .ok sent ∧
        held = authorized before.outside.permissions sent)

section Ensuring

variable {others : Client Region} {vpc : Option String} {path : CodeText} {cluster network address : String}
  {requester : Except Fault String} {visit : Visit} {host middle last after : Host Region}
  {group : GroupId}

theorem Ready.trans (h : Ready host middle) (h' : Unchanged middle after) : Ready host after where
  files := h'.files.trans h.files
  coming := h'.coming.trans h.coming
  group := h'.group.trans h.group

theorem identifier_of_unchanged (h : Unchanged host middle) :
    middle.outside.identifier = host.outside.identifier := by
  rw [Region.identifier, Region.identifier, h.group, h.coming]

theorem Ready.of_unchanged (h : Unchanged host middle) (h' : Ready middle after) :
    Ready host after where
  files := h'.files.trans h.files
  coming := h'.coming.trans h.coming
  group := by
    rw [h'.group, identifier_of_unchanged h, Region.permissions, Region.permissions, h.group]

theorem Ready.permissions (h : Ready host middle) :
    middle.outside.permissions = host.outside.permissions := by
  rw [Region.permissions, h.group]
  rfl

theorem Ready.conforming (h : Ready host middle) : Conforming visit host middle where
  files := h.files
  coming := h.coming
  group := ⟨_, h.group, .inl rfl⟩

theorem Ready.conforming_of_asked (h : Ready host middle) {sent : List Permission}
    (hsent : permissionsFor (observed host.outside.permissions)
      (visit.changes ec2Rules (observed host.outside.permissions)) = .ok sent)
    (hasked : Asked sent middle after) : Conforming visit host after where
  files := hasked.files.trans h.files
  coming := hasked.coming.trans h.coming
  group := by
    rcases hasked.group with hsame | ⟨known, held, hgroup, hadded⟩
    · exact ⟨_, hsame.trans h.group, .inl rfl⟩
    · rw [h.group] at hgroup
      cases hgroup
      exact ⟨_, hadded, .inr ⟨sent, hsent, rfl⟩⟩

/-- The group is found or created, unless a fault leaves all as it is. -/
theorem cases_of_runOn_findOrCreate {name : String} {found : GroupId}
    {outcome : Except Fault GroupId}
    (hfound : found = host.outside.group.map fun known => CodeText.ofString known.1)
    (h : ((onRegion others vpc path requester).findOrCreate found name).runOn host
      = (outcome, after)) :
    (Unchanged host after ∧ ∃ fault, outcome = .error fault) ∨
      (Ready host after ∧ outcome = .ok (some (CodeText.ofString host.outside.identifier))) := by
  cases hgroup : host.outside.group with
  | some known =>
    rw [hfound, hgroup] at h
    cases h
    refine .inr ⟨⟨rfl, rfl, ?_⟩, ?_⟩
    · rw [Region.identifier, Region.permissions, hgroup]
      rfl
    · rw [Region.identifier, hgroup]
      rfl
  | none =>
    rw [hfound, hgroup] at h
    rcases cases_of_runOn_create h with hstopped | ⟨-, hfiles, hnew, hcoming, -, rfl⟩
    · exact .inl hstopped
    · have hidentifier : host.outside.identifier = host.outside.coming := by
        rw [Region.identifier, hgroup]
        rfl
      refine .inr ⟨⟨hfiles, hcoming, ?_⟩, by rw [hidentifier]⟩
      rw [hnew, hidentifier, Region.permissions, hgroup]
      rfl

/-- Applying changes changes nothing, or sends one request. -/
theorem cases_of_runOn_applyChanges {changes current : List SecurityRule}
    {outcome : Except Fault Unit}
    (h : ((onRegion others vpc path requester).applyChanges group changes current).runOn host
      = (outcome, after)) :
    Unchanged host after ∨
      ∃ sent, permissionsFor current changes = .ok sent ∧ Asked sent host after := by
  rw [applyChanges] at h
  split at h
  · cases h
    exact .inl ⟨rfl, rfl, rfl, rfl⟩
  · obtain ⟨fault, hlog, -⟩ | ⟨_, middle, hlog, hnext⟩ := Job.cases_of_runOn_bind h
    · cases hlog
    · cases hlog
      rcases cases_of_runOn_apply hnext with hunchanged | ⟨sent, hsent, hasked⟩
      · exact .inl ⟨hunchanged.files, hunchanged.group, hunchanged.coming, hunchanged.calls⟩
      · exact .inr ⟨sent, hsent, hasked.files, hasked.coming, hasked.calls, hasked.group⟩

/-- A group that is there may have been asked for what a visit requires. -/
theorem conforming_of_runOn_conform {outcome : Except Fault Unit} (hready : Ready host middle)
    (h : ((onRegion others vpc path requester).conform group visit).runOn middle
      = (outcome, after)) : Conforming visit host after := by
  obtain ⟨fault, hrules, -⟩ | ⟨current, listed, hrules, happly⟩ := Job.cases_of_runOn_bind h
  · exact (hready.trans (unchanged_of_runOn_rules hrules).1).conforming
  · obtain ⟨hunchanged, hcurrent⟩ := unchanged_of_runOn_rules hrules
    have hlisted := hready.trans hunchanged
    rw [hcurrent current rfl, hready.permissions] at happly
    rcases cases_of_runOn_applyChanges happly with hsame | ⟨sent, hsent, hasked⟩
    · exact (hlisted.trans hsame).conforming
    · exact hlisted.conforming_of_asked hsent hasked

/-- A group is recorded if it was not found. -/
theorem cases_of_runOn_recordNew [Json.Nesting] {found : GroupId} {outcome : Except Fault GroupId}
    (h : ((onRegion others vpc path requester).recordNew found group).runOn host
      = (outcome, after)) :
    (found.isSome = true ∧ after = host ∧ outcome = .ok group) ∨
      (found = none ∧ ∃ result,
        ((onRegion others vpc path requester).recordGroup group).runOn host = (result, after) ∧
        outcome = result.map fun _ => group) := by
  cases found with
  | some identifier =>
    -- EC2 does not record groups that were found.
    cases h
    exact .inl ⟨rfl, rfl, rfl⟩
  | none =>
    obtain ⟨fault, hrecord, rfl⟩ | ⟨_, last, hrecord, hnext⟩ := Job.cases_of_runOn_bind h
    · exact .inr ⟨rfl, .error fault, hrecord, rfl⟩
    · cases hnext
      exact .inr ⟨rfl, .ok (), hrecord, rfl⟩

/-- Once the group is there, it is asked to conform, and is recorded if it was not found. -/
theorem cases_of_runOn_conform_recordNew [Json.Nesting] {found : GroupId}
    {outcome : Except Fault GroupId} (hready : Ready host middle)
    (hfound : found = host.outside.group.map fun known => CodeText.ofString known.1)
    (h : ((onRegion others vpc path requester).conform group visit >>= fun _ =>
      (onRegion others vpc path requester).recordNew found group).runOn middle
        = (outcome, after)) :
    ∃ last, Conforming visit host last ∧
      ((after = last ∧ ∃ fault, outcome = .error fault) ∨
        (host.outside.group.isSome = true ∧ after = last ∧ outcome = .ok group) ∨
        (host.outside.group = none ∧ ∃ result,
          ((onRegion others vpc path requester).recordGroup group).runOn last = (result, after) ∧
          outcome = result.map fun _ => group)) := by
  obtain ⟨fault, hconform, rfl⟩ | ⟨_, last, hconform, hnext⟩ := Job.cases_of_runOn_bind h
  · exact ⟨after, conforming_of_runOn_conform hready hconform, .inl ⟨rfl, fault, rfl⟩⟩
  · refine ⟨last, conforming_of_runOn_conform hready hconform, .inr ?_⟩
    rcases cases_of_runOn_recordNew hnext with ⟨hthere, rfl, rfl⟩ | ⟨hnone, result, hrecord, rfl⟩
    · rw [hfound, Option.isSome_map] at hthere
      exact .inl ⟨hthere, rfl, rfl⟩
    · have hnew : host.outside.group = none := Option.map_eq_none_iff.1 (hfound.symm.trans hnone)
      exact .inr ⟨hnew, result, hrecord, rfl⟩

/-- **Everything that making sure of a group can do**, whatever fails. It stops before it has done
anything; or it stops when the group is there; or it returns the group, and records it if it was
created. -/
theorem cases_of_runOn_ensureGroup [Json.Nesting] {outcome : Except Fault GroupId}
    (h : ((onRegion others vpc path requester).ensureGroup cluster network).runOn host
      = (outcome, after)) :
    (Unchanged host after ∧ ∃ fault, outcome = .error fault) ∨
      ∃ address last, requester = .ok address ∧ Conforming ⟨address, network⟩ host last ∧
        ((after = last ∧ ∃ fault, outcome = .error fault) ∨
          (host.outside.group.isSome = true ∧ after = last ∧
            outcome = .ok (some (CodeText.ofString host.outside.identifier))) ∨
          (host.outside.group = none ∧ ∃ result,
            ((onRegion others vpc path requester).recordGroup
              (some (CodeText.ofString host.outside.identifier))).runOn last = (result, after) ∧
            outcome = result.map fun _ => some (CodeText.ofString host.outside.identifier))) := by
  rw [ensureGroup_eq] at h
  -- Where the operator's address is not known, nothing is asked for.
  obtain ⟨fault, haddress, rfl⟩ | ⟨address, middle, haddress, hnext⟩ := Job.cases_of_runOn_bind h
  · cases haddress
    exact .inl ⟨.refl host, fault, rfl⟩
  cases haddress
  obtain ⟨fault, hfind, rfl⟩ | ⟨found, sought, hfind, hnext⟩ := Job.cases_of_runOn_bind hnext
  · exact .inl ⟨(unchanged_of_runOn_find hfind).1, fault, rfl⟩
  obtain ⟨hsought, hfound⟩ := unchanged_of_runOn_find hfind
  have hknown := hfound found rfl
  -- The search has changed nothing, so it tells of the host at the beginning.
  have hbefore := hknown
  rw [← hsought.group] at hknown
  obtain ⟨fault, hgroup, rfl⟩ | ⟨group, ready, hgroup, hnext⟩ := Job.cases_of_runOn_bind hnext
  · rcases cases_of_runOn_findOrCreate hknown hgroup with ⟨hstopped, -⟩ | ⟨-, hok⟩
    · exact .inl ⟨hsought.trans hstopped, fault, rfl⟩
    · cases hok
  · rcases cases_of_runOn_findOrCreate hknown hgroup with ⟨-, _, hfault⟩ | ⟨hready, hok⟩
    · cases hfault
    · cases hok
      have hthere := Ready.of_unchanged hsought hready
      rw [identifier_of_unchanged hsought] at hnext
      obtain ⟨last, hlast, hend⟩ := cases_of_runOn_conform_recordNew hthere hbefore hnext
      exact .inr ⟨address, last, rfl, hlast, hend⟩

/-- The permissions are as they were, or what a visit asks of the group has been authorized. -/
theorem permissions_of_runOn_ensureGroup [Json.Nesting]
    (h : ((onRegion others vpc path requester).ensureGroup cluster network).runOn host
      = (outcome, after)) :
    after.outside.permissions = host.outside.permissions ∨
      ∃ address sent, requester = .ok address ∧
        permissionsFor (observed host.outside.permissions)
          ((Visit.mk address network).changes ec2Rules (observed host.outside.permissions))
            = .ok sent ∧
        after.outside.permissions = authorized host.outside.permissions sent := by
  rcases cases_of_runOn_ensureGroup h with ⟨hunchanged, -⟩ | ⟨address, last, rfl, hlast, hend⟩
  · rw [Region.permissions, hunchanged.group]
    exact .inl rfl
  · -- Recording the group leaves the region alone.
    have hregion : after.outside = last.outside := by
      rcases hend with ⟨rfl, -⟩ | ⟨-, rfl, -⟩ | ⟨-, result, hrecord, -⟩
      · rfl
      · rfl
      · exact outside_of_runOn_recordGroup hrecord
    obtain ⟨held, hgroup, rfl | ⟨sent, hsent, rfl⟩⟩ := hlast.group
    · refine .inl ?_
      rw [hregion, Region.permissions, hgroup]
      rfl
    · refine .inr ⟨address, sent, rfl, hsent, ?_⟩
      rw [hregion, Region.permissions, hgroup]
      rfl

end Ensuring

end NodeLedger.Provisioning
