import NodeLedger.Proofs.Cloud.Ec2.Rounds
import NodeLedger.Proofs.Provisioning.Privilege

/-!
# Names of permissions

A permission has no name of its own. Whoever reads it works a name out of descriptions and ports, each
time anew, and what is authorized adds descriptions. Making sure of a group renames nothing all the
same: what it sends is described by the name that the policy gives to its ports, and ranges that are
added come last.

- `Permission.KeepsName`: a permission that reads as before, as far as its name goes.
- `Permission.NamedFor`: a permission that reads as the rule of a required one.
- `NamesKept`: permissions stay where they are and keep their names, and the new ones are named for
  required rules. Each authorization is such a step (`namesKept_authorizeOne`), so all of them together
  are (`namesKept_authorized`).
- `names_after_ensureGroup`: **no name changes, and new permissions have the names they were sent for**.

The group may be any, as long as it is read: its keys may repeat, its sources may be spelled in any way,
and its descriptions may say anything.
-/

namespace NodeLedger.Cloud

open Policy

/-! ## One permission -/

namespace Permission

/-- What is read of the permission is read later too, and under the same name. -/
def KeepsName (permission later : Permission) : Prop :=
  later.key = permission.key ∧ ∀ seen, permission.rule? = .ok seen →
    ∃ read, later.rule? = .ok read ∧ read.map (·.name) = seen.map (·.name)

/-- The permission is on the key of the required rule, and reads as a rule of its name. -/
def NamedFor (permission : Permission) (required : RequiredRule) : Prop :=
  permission.key = Ec2.requiredKey required ∧
    ∃ rule, permission.rule? = .ok (some rule) ∧ rule.name = some required.name

section

variable {permission mid later sent : Permission} {required : RequiredRule} {rule : SecurityRule}

theorem KeepsName.refl (permission : Permission) : permission.KeepsName permission :=
  ⟨rfl, fun seen hseen => ⟨seen, hseen, rfl⟩⟩

theorem KeepsName.trans (h : permission.KeepsName mid) (h' : mid.KeepsName later) :
    permission.KeepsName later := by
  refine ⟨h'.1.trans h.1, fun seen hseen => ?_⟩
  obtain ⟨between, hbetween, hname⟩ := h.2 seen hseen
  obtain ⟨read, hread, hname'⟩ := h'.2 between hbetween
  exact ⟨read, hread, hname'.trans hname⟩

theorem NamedFor.keepsName (h : permission.NamedFor required) (hkeeps : permission.KeepsName later) :
    later.NamedFor required := by
  obtain ⟨hkey, rule, hrule, hname⟩ := h
  obtain ⟨read, hread, hsame⟩ := hkeeps.2 _ hrule
  obtain ⟨other, rfl, hother⟩ := Option.map_eq_some_iff.1 hsame
  exact ⟨hkeeps.1.trans hkey, other, hread, hother.trans hname⟩

/-- **Extending a permission keeps its name**, where the new ranges were sent for a required rule. -/
theorem keepsName_extended (hmem : required ∈ ec2Rules) (hsent : sent.AddedFor required)
    (hkey : permission.key = sent.key) : permission.KeepsName (permission.extended sent) := by
  refine ⟨key_extended permission sent, fun seen hseen => ?_⟩
  have hobserved := eq_observed?_of_rule? hseen
  have hname := name?_extended hmem hsent hkey
  cases seen with
  | none =>
    -- A protocol that the policy does not know stays as it is.
    have hunknown : permission.protocol? = none := Option.map_eq_none_iff.1 hobserved.symm
    refine ⟨none, ?_, rfl⟩
    have hlater : (permission.extended sent).protocol? = none := hunknown
    rw [rule?, hlater]
  | some rule =>
    obtain ⟨hranges, hwide⟩ := listed_of_rule? hseen
    refine ⟨_, rule?_of_listed (append_ne_null hranges) (append_ne_null hwide), ?_⟩
    rw [map_name_observed?, hname, ← map_name_observed?, ← hobserved]

/-- A permission that was sent for a required rule reads as a rule of its name. -/
theorem namedFor_of_addedFor (hmem : required ∈ ec2Rules) (hsent : sent.AddedFor required)
    (hlisted : sent.ranges ≠ .null ∧ sent.wideRanges ≠ .null) : sent.NamedFor required := by
  have hname := name?_of_addedFor hmem hsent
  obtain ⟨rule, hobserved⟩ := exists_observed? hname
  refine ⟨hsent.key, rule, ?_, ?_⟩
  · rw [rule?_of_listed hlisted.1 hlisted.2, hobserved]
  · rw [← name?_eq_name hobserved, hname]

end

end Permission

namespace Ec2

/-! ## Authorizations -/

/-- Permissions stay where they are and keep their names. The new ones are named for required rules of
a kind. -/
structure NamesKept (isAsking : RequiredRule → Prop) (before after : List Permission) : Prop where
  kept : ∀ (i : Nat) permission, before[i]? = some permission →
    ∃ later, after[i]? = some later ∧ permission.KeepsName later
  added : ∀ (i : Nat) later, before[i]? = none → after[i]? = some later →
    ∃ required ∈ ec2Rules, isAsking required ∧ later.NamedFor required

section

variable {isAsking : RequiredRule → Prop} {before mid after group sent : List Permission}
  {more : Permission} {required : RequiredRule}

theorem NamesKept.refl (isAsking : RequiredRule → Prop) (group : List Permission) :
    NamesKept isAsking group group where
  kept _ permission hpermission := ⟨permission, hpermission, .refl permission⟩
  added i later hnone hsome := by
    rw [hnone] at hsome
    cases hsome

theorem NamesKept.trans (h : NamesKept isAsking before mid) (h' : NamesKept isAsking mid after) :
    NamesKept isAsking before after where
  kept i permission hpermission := by
    obtain ⟨between, hbetween, hkeeps⟩ := h.kept i permission hpermission
    obtain ⟨later, hlater, hkeeps'⟩ := h'.kept i between hbetween
    exact ⟨later, hlater, hkeeps.trans hkeeps'⟩
  added i later hnone hlater := by
    cases hmid : mid[i]? with
    | none => exact h'.added i later hmid hlater
    | some between =>
      -- What the first step has added is named already.
      obtain ⟨required, hmem, hasks, hnamed⟩ := h.added i between hnone hmid
      obtain ⟨same, hsame, hkeeps⟩ := h'.kept i between hmid
      rw [hlater] at hsame
      cases hsame
      exact ⟨required, hmem, hasks, hnamed.keepsName hkeeps⟩

/-- One authorization for a required rule keeps names. -/
theorem namesKept_authorizeOne (hmem : required ∈ ec2Rules) (hasks : isAsking required)
    (hmore : more.AddedFor required) (hlisted : more.ranges ≠ .null ∧ more.wideRanges ≠ .null)
    (group : List Permission) : NamesKept isAsking group (authorizeOne group more) where
  kept i permission hpermission := by
    rcases getElem?_authorizeOne group more i with hsame | ⟨old, hold, hkey, hextended⟩ | ⟨hnone, -⟩
    · exact ⟨permission, hsame.trans hpermission, .refl permission⟩
    · rw [hpermission] at hold
      cases hold
      exact ⟨_, hextended, Permission.keepsName_extended hmem hmore hkey⟩
    · rw [hpermission] at hnone
      cases hnone
  added i later hnone hlater := by
    rcases getElem?_authorizeOne group more i with hsame | ⟨old, hold, -⟩ | ⟨-, hnew⟩
    · rw [hsame, hnone] at hlater
      cases hlater
    · rw [hnone] at hold
      cases hold
    · rw [hnew] at hlater
      cases hlater
      exact ⟨required, hmem, hasks, Permission.namedFor_of_addedFor hmem hmore hlisted⟩

/-- **Authorizations for required rules keep names.** -/
theorem namesKept_authorized
    (hsent : ∀ permission ∈ sent, ∃ required ∈ ec2Rules, isAsking required ∧
      permission.AddedFor required ∧ permission.ranges ≠ .null ∧ permission.wideRanges ≠ .null)
    (group : List Permission) : NamesKept isAsking group (authorized group sent) := by
  induction sent generalizing group with
  | nil => exact .refl isAsking group
  | cons more sent ih =>
    obtain ⟨⟨required, hmem, hasks, hmore, hlisted⟩, hrest⟩ := List.forall_mem_cons.1 hsent
    exact (namesKept_authorizeOne hmem hasks hmore hlisted group).trans (ih hrest _)

/-- What is sent for a group was added for required rules that ask it for a change. -/
theorem addedFor_of_mem_permissionsFor {visit : Visit} {permission : Permission}
    (hsent : permissionsFor (observed group) (visit.changes ec2Rules (observed group)) = .ok sent)
    (hmem : permission ∈ sent) :
    ∃ required ∈ ec2Rules, (change? group visit required).isSome = true ∧
      permission.AddedFor required ∧ permission.ranges ≠ .null ∧ permission.wideRanges ≠ .null := by
  obtain ⟨required, hrequired, change, hchange, hopened, addresses, -, rfl⟩ :=
    exists_opening_of_mem_permissionsFor hsent hmem
  refine ⟨required, hrequired, Option.isSome_of_eq_some hchange, ⟨?_, ?_⟩,
    Permission.listed_opening _ _ _⟩
  · exact Permission.key_opening hopened
  · intro description hdescription
    have hname := Permission.eq_of_mem_descriptions_opening hdescription
    rw [name_of_changeFor hchange] at hname
    exact (Option.some.inj hname).symm

end

end Ec2

end NodeLedger.Cloud

namespace NodeLedger.Provisioning

open Cloud Cloud.Ec2 Policy

section

variable {others : Client Region} {vpc : Option String} {path : CodeText} {cluster network : String}
  {requester : Except Fault String} {host after : Host Region} {outcome : Except Fault GroupId}

/-- **No name changes, and new permissions have the names they were sent for**, whatever the group and
whatever fails. A permission that is read has, afterwards and in the same place, the name that it had;
and every permission is read as long as its lists are not null. A new permission is on the key of a
required rule that has asked for a change, and reads as a rule of its name. -/
theorem names_after_ensureGroup [Json.Nesting]
    (h : ((onRegion others vpc path requester).ensureGroup cluster network).runOn host
      = (outcome, after)) :
    NamesKept
        (fun required => ∃ address, requester = .ok address ∧
          (change? host.outside.permissions ⟨address, network⟩ required).isSome = true)
        host.outside.permissions after.outside.permissions ∧
      ∀ permission ∈ host.outside.permissions, permission.ranges ≠ .null →
        permission.wideRanges ≠ .null → ∃ seen, permission.rule? = .ok seen := by
  refine ⟨?_, fun permission _ hranges hwide => ⟨_, Permission.rule?_of_listed hranges hwide⟩⟩
  rcases permissions_of_runOn_ensureGroup h with hsame | ⟨address, sent, rfl, hsent, hadded⟩
  · rw [hsame]
    exact .refl _ _
  · rw [hadded]
    refine namesKept_authorized (fun permission hmem => ?_) _
    obtain ⟨required, hrequired, hasks, hadded, hlisted⟩ := addedFor_of_mem_permissionsFor hsent hmem
    exact ⟨required, hrequired, ⟨address, rfl, hasks⟩, hadded, hlisted⟩

end

attribute [local instance] Json.Nesting.usual

/-- An operator with an IPv6 address, and a group in which SSH is described as RDP and HTTPS as SSH. The
port of SSH takes up ranges that are described as SSH, and still reads as RDP. The new permissions for
WinRM and for the network hold IPv6 ranges only, so they have no descriptions that are read, but have
their names. -/
theorem names_beside_misdescribed :
    let run := (onRegion Region.locked (some "vpc-1") "ledger.json" (.ok "2001:db8::7")).ensureGroup
      "cluster" "fd00::/8"
    let after := (run.runOn (beside misdescribed)).2
    (after.outside.permissions.map fun permission =>
        (permission.key, permission.descriptions, permission.name?))
      = [(.tcp 443 443, ["SSH"], some "SSH"), (.tcp 22 22, ["RDP", "SSH"], some "RDP"),
        (.tcp 5986 5986, [], some "WinRM"), (.tcp 3389 3389, ["RDP"], some "RDP"),
        (.everything, [], some "vpc_traffic")] ∧
      NamesKept
        (fun required => ∃ address, Except.ok "2001:db8::7" = (Except.ok address : Except Fault String) ∧
          (change? misdescribed ⟨address, "fd00::/8"⟩ required).isSome = true)
        misdescribed after.outside.permissions := by
  intro run after
  have hrun : run.runOn (beside misdescribed) = ((run.runOn (beside misdescribed)).1, after) := rfl
  exact ⟨by decide +kernel, (names_after_ensureGroup hrun).1⟩

end NodeLedger.Provisioning
