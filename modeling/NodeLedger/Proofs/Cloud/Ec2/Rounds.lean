import NodeLedger.Proofs.Cloud.Ec2.Compliance

/-!
# A second run

What a run adds is described by the name of the required rule that asked for it, on the key of that
rule. So no permission changes its name in a run. But a permission that the first run extends may be
the one that goes by the name of another required rule, and then the second run opens what has been
added to it on the ports of that rule as well.

- `Permission.AddedFor`: a permission that was sent for a required rule.
- `name?_extended`: **extending a permission does not rename it**.
- `namedKey_authorized`: **a name keeps its key in a run**.
- `requests_again_eq_nil_iff`: when a second visit asks for nothing.
- `second_run_sends_nothing_iff`: **when a second run sends nothing**.
- `second_run_sends_again`: a group on which it does not.
-/

namespace NodeLedger.Cloud

open Policy

/-! ## Names stay -/

namespace Permission

/-- The permission was sent for a required rule: it has the key of the rule, and every description is
the name of the rule. -/
structure AddedFor (sent : Permission) (required : RequiredRule) : Prop where
  key : sent.key = Ec2.requiredKey required
  descriptions : ∀ description ∈ sent.descriptions, description = required.name

section

variable {permission sent : Permission} {required : RequiredRule} {protocol : Protocol}
  {descriptions : List String}

/-- The key of a required rule gives its name. -/
theorem named_of_mem_ec2Rules (hmem : required ∈ ec2Rules) :
    (∃ port : Nat, Ec2.requiredKey required = .tcp port port ∧
        portName? port = some required.name) ∨
      (Ec2.requiredKey required = .everything ∧ required.name = vpcRule.name) := by
  obtain ⟨hwinRM, hrdp, hvpc, hssh⟩ := Ec2.requiredKey_eq
  simp only [ec2Rules, List.mem_cons, List.not_mem_nil, or_false] at hmem
  rcases hmem with rfl | rfl | rfl | rfl
  · exact .inl ⟨5986, hwinRM, rfl⟩
  · exact .inl ⟨3389, hrdp, rfl⟩
  · exact .inr ⟨hvpc, rfl⟩
  · exact .inl ⟨22, hssh, rfl⟩

/-- A description that is a name of the policy wins. -/
theorem name_of_find? {description : String}
    (h : descriptions.find? knownNames.contains = some description) :
    permission.name protocol descriptions = description := by
  unfold name
  rw [h]

/-- On the key of a required rule, a permission goes by the name of the rule unless a description is
a name of the policy. -/
theorem name_of_key (hmem : required ∈ ec2Rules) (hkey : permission.key = Ec2.requiredKey required)
    (hprotocol : permission.protocol? = some protocol)
    (hnone : descriptions.find? knownNames.contains = none) :
    permission.name protocol descriptions = required.name := by
  unfold name
  rw [hnone]
  rw [key, hprotocol] at hkey
  rcases named_of_mem_ec2Rules hmem with ⟨port, hport, hname⟩ | ⟨hall, hname⟩
  · rw [hport] at hkey
    cases protocol with
    | all =>
      have hword : some "-1" = some "tcp" := congrArg PermissionKey.protocol hkey
      exact absurd hword (by decide)
    | tcp =>
      have hlow : permission.low.toOption = some (port : Int) := congrArg PermissionKey.low hkey
      have hhigh : permission.high.toOption = some (port : Int) := congrArg PermissionKey.high hkey
      show (permission.nameOfPorts?.or descriptions.head?).getD _ = _
      rw [nameOfPorts?, hlow, hhigh, if_pos rfl, Option.bind_some, hname]
      rfl
  · rw [hall] at hkey
    cases protocol with
    | all => exact hname.symm
    | tcp =>
      have hword : some "tcp" = some "-1" := congrArg PermissionKey.protocol hkey
      exact absurd hword (by decide)

/-- Among equal texts there is one name of the policy at most. -/
theorem find?_of_forall_eq
    (h : ∀ description ∈ descriptions, description = required.name) :
    descriptions.find? knownNames.contains = none ∨
      descriptions.find? knownNames.contains = some required.name := by
  cases hfind : descriptions.find? knownNames.contains with
  | none => exact .inl rfl
  | some description => exact .inr (congrArg some (h _ (List.mem_of_find?_eq_some hfind)))

theorem descriptions_extended (permission sent : Permission) :
    (permission.extended sent).descriptions = permission.descriptions ++ sent.descriptions := by
  show ((permission.ranges.append sent.ranges).entries).filterMap _ = _
  rw [Field.entries_append, List.filterMap_append]
  rfl

/-- **Extending a permission does not rename it**: where a name comes from the ports, it is the one
that the new ranges are described by. -/
theorem name?_extended (hmem : required ∈ ec2Rules) (hsent : sent.AddedFor required)
    (hkey : permission.key = sent.key) : (permission.extended sent).name? = permission.name? := by
  rw [hsent.key] at hkey
  show permission.protocol?.map _ = permission.protocol?.map _
  refine Option.map_congr fun protocol hprotocol => ?_
  show permission.name protocol (permission.extended sent).descriptions
    = permission.name protocol permission.descriptions
  rw [descriptions_extended]
  cases hfind : permission.descriptions.find? knownNames.contains with
  | some description =>
    -- The new descriptions come last, so they are not looked at.
    have happend : (permission.descriptions ++ sent.descriptions).find? knownNames.contains
        = some description := by rw [List.find?_append, hfind, Option.some_or]
    rw [name_of_find? hfind, name_of_find? happend]
  | none =>
    have happend : (permission.descriptions ++ sent.descriptions).find? knownNames.contains
        = sent.descriptions.find? knownNames.contains := by
      rw [List.find?_append, hfind, Option.none_or]
    -- The name came from the ports; a new description can only say the same.
    rw [name_of_key hmem hkey hprotocol hfind]
    rcases find?_of_forall_eq hsent.descriptions with hnone | hsome
    · exact name_of_key hmem hkey hprotocol (happend.trans hnone)
    · exact name_of_find? (happend.trans hsome)

/-- A permission that was sent goes by the name of its rule. -/
theorem name?_of_addedFor (hmem : required ∈ ec2Rules) (hsent : sent.AddedFor required) :
    sent.name? = some required.name := by
  have hprotocol : sent.protocol? = some required.protocol := by
    rw [protocol?_eq_some_iff, hsent.key]
    exact PermissionKey.protocol_of_of? (Ec2.of?_of_mem_ec2Rules hmem)
  rw [name?, hprotocol]
  refine congrArg some ?_
  rcases find?_of_forall_eq hsent.descriptions with hnone | hsome
  · exact name_of_key hmem hsent.key hprotocol hnone
  · exact name_of_find? hsome

end

end Permission

namespace Ec2

section

variable {group held : List Permission} {visit : Visit} {required : RequiredRule}
  {sent permission : Permission} {name : String}

/-- The key of the permission that goes by a name. -/
def namedKey (group : List Permission) (name : String) : Option PermissionKey :=
  (firstNamed group name).map Permission.key

theorem namedKey_cons (permission : Permission) (group : List Permission) (name : String) :
    namedKey (permission :: group) name
      = if permission.name? = some name then some permission.key else namedKey group name := by
  rw [namedKey, firstNamed, List.find?_cons]
  by_cases hname : permission.name? = some name
  · rw [if_pos hname, decide_eq_true hname]
    rfl
  · rw [if_neg hname, decide_eq_false hname]
    rfl

/-- Authorizing a permission keeps the key that a name has. A name that has none may get the key
that was authorized. -/
theorem namedKey_authorizeOne (hmem : required ∈ ec2Rules) (hsent : sent.AddedFor required)
    (group : List Permission) (name : String) :
    namedKey (authorizeOne group sent) name = namedKey group name ∨
      (namedKey group name = none ∧ required.name = name ∧
        namedKey (authorizeOne group sent) name = some (requiredKey required)) := by
  induction group with
  | nil =>
    rw [authorizeOne, namedKey_cons, Permission.name?_of_addedFor hmem hsent, hsent.key]
    by_cases hname : required.name = name
    · rw [hname, if_pos rfl]
      exact .inr ⟨rfl, rfl, rfl⟩
    · rw [if_neg fun heq => hname (Option.some.inj heq)]
      exact .inl rfl
  | cons permission group ih =>
    rw [authorizeOne]
    by_cases hkey : permission.key = sent.key
    · -- The head is extended, and keeps its name and its key.
      rw [if_pos hkey, namedKey_cons, namedKey_cons, Permission.name?_extended hmem hsent hkey,
        Permission.key_extended]
      exact .inl rfl
    · rw [if_neg hkey, namedKey_cons, namedKey_cons]
      by_cases hname : permission.name? = some name
      · rw [if_pos hname, if_pos hname]
        exact .inl rfl
      · rw [if_neg hname, if_neg hname]
        exact ih

/-- **A name keeps its key in a run.** A required name that has none may get the key of its rule. -/
theorem namedKey_authorized (hmem : required ∈ ec2Rules) {sent : List Permission}
    (hsent : ∀ permission ∈ sent, ∃ other ∈ ec2Rules, permission.AddedFor other)
    (group : List Permission) :
    namedKey (authorized group sent) required.name = namedKey group required.name ∨
      (namedKey group required.name = none ∧
        namedKey (authorized group sent) required.name = some (requiredKey required)) := by
  -- The name gets its key from the group, from the first permission, or from a later one.
  induction sent generalizing group with
  | nil => exact .inl rfl
  | cons first sent ih =>
    obtain ⟨⟨other, hother, hfirst⟩, hrest⟩ := List.forall_mem_cons.1 hsent
    rcases ih hrest (authorizeOne group first) with hsame | ⟨hnone, hnew⟩
    · rcases namedKey_authorizeOne hother hfirst group required.name with hkept | ⟨hnone, hname, hnew⟩
      · exact .inl (hsame.trans hkept)
      · have hrule : other = required := eq_of_name_eq hmem hother hname
        subst hrule
        exact .inr ⟨hnone, hsame.trans hnew⟩
    · rcases namedKey_authorizeOne hother hfirst group required.name with hkept | ⟨-, -, hsome⟩
      · exact .inr ⟨hkept ▸ hnone, hnew⟩
      · rw [hsome] at hnone
        cases hnone

/-- What a visit sends was added for required rules. -/
theorem addedFor_requests (held : List Permission) (visit : Visit) :
    ∀ sent ∈ requests held visit, ∃ required ∈ ec2Rules, sent.AddedFor required := by
  intro sent hsent
  obtain ⟨required, hmem, hrequest⟩ := mem_requests_iff.1 hsent
  refine ⟨required, hmem, key_request? hmem hrequest, fun description hdescription => ?_⟩
  obtain ⟨change, -, -, rfl⟩ := request?_eq_some_iff.1 hrequest
  exact (Option.some.inj (Permission.eq_of_mem_descriptions_opening hdescription)).symm

theorem namedKey_eq_some_iff {key : PermissionKey} :
    namedKey group name = some key ↔
      ∃ permission, firstNamed group name = some permission ∧ permission.key = key :=
  Option.map_eq_some_iff

/-! ## When nothing is asked for again -/

/-- **When a second visit asks for nothing**: whatever is granted, after the first one, on the key that
the name of an operator's rule has, is granted on the key of that rule. -/
theorem requests_again_eq_nil_iff (h : GroupReported held) (hvisit : visit.Valid) :
    requests (authorized held (requests held visit)) visit = [] ↔
      ∀ required ∈ ec2Rules, required.scope = .operator →
        ∀ permission, firstNamed held required.name = some permission →
          ∀ block, (permission.key, block) ∈ grants (authorized held (requests held visit)) →
            (requiredKey required, block) ∈ grants (authorized held (requests held visit)) := by
  have hafter := groupReported_after_requests h hvisit
  have hstays := fun required (hmem : required ∈ ec2Rules) =>
    namedKey_authorized hmem (addedFor_requests held visit) held
  have hdue : ∀ required ∈ ec2Rules, (requiredKey required, visit.source required)
      ∈ grants (authorized held (requests held visit)) :=
    fun required hmem => mem_grants_of_mem_requiredGrants h hvisit
      ((mem_requiredGrants_iff hvisit.requester).2 ⟨required, hmem, rfl⟩)
  rw [requests_eq_nil_iff hafter hvisit, List.eq_nil_iff_forall_not_mem]
  constructor
  · intro hnothing required hmem hscope permission hfirst block hgrant
    by_contra hmissing
    -- The name still has its key, so the second visit would ask for the block.
    have hkept : namedKey (authorized held (requests held visit)) required.name
        = some permission.key := by
      have hbefore := namedKey_eq_some_iff.2 ⟨permission, hfirst, rfl⟩
      rcases hstays required hmem with hsame | ⟨hnone, -⟩
      · rw [hsame, hbefore]
      · rw [hbefore] at hnone
        cases hnone
    obtain ⟨later, hlater, hkey⟩ := namedKey_eq_some_iff.1 hkept
    rw [← hkey, mem_grants_key_iff hafter.keys (mem_of_firstNamed hlater).1] at hgrant
    refine hnothing (requiredKey required, block) ((mem_grants_requests_iff hafter hvisit).2
      ⟨hmissing, required, hmem, rfl, ?_, .inr ⟨later, hlater, hgrant⟩⟩)
    rintro ⟨hnetwork, -⟩
    rw [hscope] at hnetwork
    cases hnetwork
  · rintro hcovered ⟨key, block⟩ hasked
    obtain ⟨hmissing, required, hmem, rfl, hvouched, hsource⟩ :=
      (mem_grants_requests_iff hafter hvisit).1 hasked
    rcases hsource with rfl | ⟨later, hlater, hblock⟩
    · exact hmissing (hdue required hmem)
    · rw [← mem_grants_key_iff hafter.keys (mem_of_firstNamed hlater).1] at hblock
      have hkept := namedKey_eq_some_iff.2 ⟨later, hlater, rfl⟩
      rcases cases_of_mem_ec2Rules hmem with ⟨_, -, hscope, -⟩ | ⟨hscope, -, -, hkey⟩
      · rcases hstays required hmem with hsame | ⟨-, hnew⟩
        · obtain ⟨permission, hfirst, hsamekey⟩ := namedKey_eq_some_iff.1 (hsame ▸ hkept)
          rw [← hsamekey] at hblock
          exact hmissing (hcovered required hmem hscope permission hfirst block hblock)
        · rw [hkept] at hnew
          rw [Option.some.inj hnew] at hblock
          exact hmissing hblock
      · -- The network is granted everything after the first visit.
        exact hvouched ⟨hscope, hkey ▸ hdue required hmem⟩

end

section Run

variable {identifier : String} {visit : Visit} {host : Host Region} {held : List Permission}

/-- **When a second run sends nothing.** After the first run, let `permission` be the one that went by
the name of an operator's rule before it. Whatever is granted on the key of `permission` must be
granted on the key of the rule too. So it is if every such name is on its own ports, or absent. -/
theorem second_run_sends_nothing_iff (others : Client Region) (hcalm : host.outside.faults = [])
    (hgroup : host.outside.group = some (identifier, held)) (hreported : GroupReported held)
    (hvisit : visit.Valid) :
    ∃ first second,
      (comply (Region.client others) (some (CodeText.ofString identifier)) visit).runOn host
          = (.ok (), first) ∧
        (comply (Region.client others) (some (CodeText.ofString identifier)) visit).runOn first
          = (.ok (), second) ∧
        (second.outside.calls = first.outside.calls ↔
          ∀ required ∈ ec2Rules, required.scope = .operator →
            ∀ permission, firstNamed held required.name = some permission →
              ∀ block, (permission.key, block) ∈ grants first.outside.permissions →
                (requiredKey required, block) ∈ grants first.outside.permissions) := by
  obtain ⟨first, hfirst, hcalm', hgroup', -⟩ :=
    exists_runOn_comply others hcalm hgroup hreported visit
  obtain ⟨second, hsecond, -, -, hcalls⟩ := exists_runOn_comply others hcalm' hgroup'
    (groupReported_after_requests hreported hvisit) visit
  refine ⟨first, second, hfirst, hsecond, ?_⟩
  have hpermissions : first.outside.permissions = authorized held (requests held visit) := by
    rw [Region.permissions, hgroup']
    rfl
  rw [hpermissions, ← requests_again_eq_nil_iff hreported hvisit, hcalls, List.append_right_eq_self]
  split
  · rename_i hempty
    exact iff_of_true rfl (List.isEmpty_iff.1 hempty)
  · rename_i hsome
    exact iff_of_false (List.cons_ne_nil _ _) fun hnil => hsome (List.isEmpty_iff.2 hnil)

/-- A second run sends nothing where the permissions go by the names of their ports. -/
theorem second_run_quiet_beside_own_names :
    let held : List Permission := [openPort 22 "192.0.2.0/24" "SSH", openPort 443 "0.0.0.0/0" "web"]
    let visit : Visit := ⟨"203.0.113.7", "10.0.0.0/16"⟩
    GroupReported held ∧ visit.Valid ∧
      ∃ first second,
        (comply (Region.client Region.locked) (some (CodeText.ofString "sg-1")) visit).runOn
            (beside held) = (.ok (), first) ∧
          (comply (Region.client Region.locked) (some (CodeText.ofString "sg-1")) visit).runOn first
            = (.ok (), second) ∧
          second.outside.calls = first.outside.calls := by
  intro held visit
  have hreported : GroupReported held := by decide +kernel
  have hvisit : visit.Valid := by decide +kernel
  have hcalm : (beside held).outside.faults = [] := rfl
  have howned : ∀ required ∈ ec2Rules, ∀ permission ∈ firstNamed held required.name,
      permission.key = requiredKey required := by decide +kernel
  refine ⟨hreported, hvisit, ?_⟩
  obtain ⟨first, second, hfirst, hsecond, hquiet⟩ :=
    second_run_sends_nothing_iff Region.locked hcalm rfl hreported hvisit
  refine ⟨first, second, hfirst, hsecond, hquiet.2 ?_⟩
  intro required hmem _ permission hpermission block hgrant
  rwa [howned required hmem permission hpermission] at hgrant

/-- HTTPS is described as SSH here, so the first run opens SSH to the block that HTTPS is open to. But
SSH is described as RDP, so the second run opens RDP to that block. -/
theorem second_run_sends_again :
    let visit : Visit := ⟨"203.0.113.7", "10.0.0.0/16"⟩
    let run := (comply (Region.client Region.locked) (some (CodeText.ofString "sg-1")) visit).runOn
    GroupReported misdescribed ∧ visit.Valid ∧
      (run (beside misdescribed)).1.isOk = true ∧
      (run (run (beside misdescribed)).2).2.outside.calls
        = (run (beside misdescribed)).2.outside.calls
          ++ [[openPort 3389 "198.51.100.0/24" "RDP"]] := by
  decide +kernel

end Run

end Ec2

end NodeLedger.Cloud
