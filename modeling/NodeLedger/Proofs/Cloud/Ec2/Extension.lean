import NodeLedger.Proofs.Cloud.Ec2.Region
import NodeLedger.Proofs.Policy.PortSets

/-!
# What is sent for a rule that is extended

When the first rule of a required name has the required protocol and ports, the change that is asked
for adds one source to it, and that source is all that has to be sent. What is sent is found by
comparing the change with the current rule of its protocol and bounds. The policy compares ports by
their spelling, however, and takes `*`, `0-65535` and `1-65535` for the same ports, which have three
different bounds. So the rule that is extended need not be the one that the change is compared with,
and then its own sources are sent again.

- `SamePlace`, `counterpart_eq_find?`: what a change is compared with.
- `Apart`: current rules that are different permissions to EC2.
- `Permission.allRanges`: the ranges of a permission, IPv4 first.
- `permissionFor?_eq`: what is sent for a change.
- `extension_sends_source_iff`: **when that is the required source and nothing else**.
- `extension_sends_again`: a rule whose own source is sent again.
-/

namespace NodeLedger.Cloud

open Policy

namespace Permission

/-- The ranges of a permission, IPv4 first. -/
def allRanges (permission : Permission) : List AddressRange :=
  permission.ranges.entries ++ permission.wideRanges.entries

theorem allRanges_opening (key : PermissionKey) (name : Option String) (addresses : List String) :
    (opening key name addresses).allRanges
      = ((addresses.filter fun address => !isWide address) ++ addresses.filter isWide).map
          (namedRange name) := by
  rw [allRanges, entries_wideRanges_opening, List.map_append]
  rfl

theorem namedRange_injective (name : Option String) : (namedRange name).Injective := by
  intro address other h
  injection h with hblock
  injection hblock

/-- A permission has one range exactly if it was opened to one address. -/
theorem allRanges_opening_eq_singleton_iff {key : PermissionKey} {name : Option String}
    {addresses : List String} {source : String} :
    (opening key name addresses).allRanges = [namedRange name source] ↔ addresses = [source] := by
  have hperm := List.perm_append_comm.trans (List.filter_append_perm isWide addresses)
  rw [allRanges_opening, ← List.map_singleton, (List.map_injective_iff.2
    (namedRange_injective name)).eq_iff]
  constructor
  · intro h
    rw [h] at hperm
    exact List.perm_singleton.1 hperm.symm
  · rintro rfl
    exact List.perm_singleton.1 hperm

end Permission

namespace Ec2

/-! ## What a change is compared with -/

/-- The rules are one permission to EC2: they have the same protocol and, unless the protocol has no
ports, the same bounds. -/
def SamePlace (rule other : SecurityRule) : Prop :=
  rule.protocol = other.protocol ∧ (other.protocol = .all ∨ rule.bounds = other.bounds)

instance (rule other : SecurityRule) : Decidable (SamePlace rule other) :=
  inferInstanceAs (Decidable (_ ∧ (_ ∨ _)))

/-- The key that a rule is opened on, if its ports can be read. -/
def openedKey? (rule : SecurityRule) : Option PermissionKey :=
  rule.bounds.toOption.map (.opened rule.protocol)

/-- Rules that are different permissions to EC2: all ports can be read, at most one rule is of all
traffic, and those of TCP have different limits. -/
structure Apart (current : List SecurityRule) : Prop where
  readable : ∀ rule ∈ current, rule.bounds.isOk = true
  keys : (current.map openedKey?).Nodup

instance (current : List SecurityRule) : Decidable (Apart current) :=
  decidable_of_iff ((∀ rule ∈ current, rule.bounds.isOk = true) ∧ (current.map openedKey?).Nodup)
    ⟨fun ⟨h, h'⟩ => ⟨h, h'⟩, fun h => ⟨h.readable, h.keys⟩⟩

/-- A current rule of the place of a change admits the source. -/
def Admitted (current : List SecurityRule) (change : SecurityRule) (source : String) : Prop :=
  ∃ held ∈ current, SamePlace held change ∧ held.allows source = true

section

variable {current : List SecurityRule} {held other existing change : SecurityRule}
  {limits : Option (Int × Int)} {source : String}

/-- A change is compared with the first rule of its place. -/
theorem counterpart_eq_find? (hcurrent : ∀ held ∈ current, held.bounds.isOk = true)
    (hchange : change.bounds = .ok limits) :
    counterpart change current = .ok (current.find? fun held => SamePlace held change) := by
  induction current with
  | nil => rfl
  | cons held current ih =>
    obtain ⟨hheld, hrest⟩ := List.forall_mem_cons.1 hcurrent
    obtain ⟨observed, hobserved⟩ := exists_of_isOk hheld
    rw [counterpart, List.find?_cons]
    by_cases hprotocol : held.protocol = change.protocol
    · rw [if_neg (not_not_intro hprotocol)]
      by_cases hall : change.protocol = .all
      · have hplace : SamePlace held change := ⟨hprotocol, .inl hall⟩
        rw [if_pos hall, decide_eq_true hplace]
      · rw [if_neg hall, hobserved, hchange]
        show (if observed = limits then _ else _) = _
        by_cases hsame : observed = limits
        · have hplace : SamePlace held change :=
            ⟨hprotocol, .inr (by rw [hobserved, hchange, hsame])⟩
          rw [if_pos hsame, decide_eq_true hplace]
          rfl
        · have hplace : ¬ SamePlace held change := by
            rintro ⟨-, hall' | hbounds⟩
            · exact hall hall'
            · rw [hobserved, hchange] at hbounds
              exact hsame (Except.ok.inj hbounds)
          rw [if_neg hsame, decide_eq_false hplace]
          exact ih hrest
    · have hplace : ¬ SamePlace held change := fun h => hprotocol h.1
      rw [if_pos hprotocol, decide_eq_false hplace]
      exact ih hrest

theorem openedKey?_of_samePlace (h : SamePlace held change) (hheld : held.bounds.isOk = true)
    (hchange : change.bounds = .ok limits) :
    openedKey? held = some (.opened change.protocol limits) := by
  obtain ⟨observed, hobserved⟩ := exists_of_isOk hheld
  rw [openedKey?, hobserved]
  obtain ⟨hprotocol, hall | hbounds⟩ := h
  · rw [hprotocol, hall]
    rfl
  · rw [hobserved, hchange] at hbounds
    rw [hprotocol, Except.ok.inj hbounds]
    rfl

/-- With different keys, the rule that is found is the only one of its place. -/
theorem Apart.eq_of_samePlace (h : Apart current) (hchange : change.bounds = .ok limits)
    (hheld : held ∈ current) (hother : other ∈ current) (hheldPlace : SamePlace held change)
    (hotherPlace : SamePlace other change) : held = other := by
  refine List.inj_on_of_nodup_map h.keys hheld hother ?_
  rw [openedKey?_of_samePlace hheldPlace (h.readable held hheld) hchange,
    openedKey?_of_samePlace hotherPlace (h.readable other hother) hchange]

theorem Apart.any_find?_iff (h : Apart current) (hchange : change.bounds = .ok limits)
    (source : String) :
    (current.find? fun held => SamePlace held change).any (·.allows source) = true ↔
      Admitted current change source := by
  cases hfind : current.find? fun held => SamePlace held change with
  | none =>
    refine iff_of_false Bool.false_ne_true ?_
    rintro ⟨held, hheld, hplace, -⟩
    exact List.find?_eq_none.1 hfind held hheld (decide_eq_true hplace)
  | some found =>
    have hfound := List.find?_some hfind
    rw [decide_eq_true_iff] at hfound
    have hmem := List.mem_of_find?_eq_some hfind
    constructor
    · intro hallows
      exact ⟨found, hmem, hfound, hallows⟩
    · rintro ⟨held, hheld, hplace, hallows⟩
      rwa [h.eq_of_samePlace hchange hheld hmem hplace hfound] at hallows

/-! ## What is sent -/

theorem missingSources_eq (change : SecurityRule) (found : Option SecurityRule) :
    missingSources change found
      = change.sources.filter fun source => !found.any (·.allows source) := by
  cases found with
  | none => exact (List.filter_eq_self.2 fun _ _ => rfl).symm
  | some held => rfl

theorem permissionFor?_eq (h : Apart current) (hchange : change.bounds = .ok limits) :
    permissionFor? current change = .ok
      (if (missingSources change (current.find? fun held => SamePlace held change)).isEmpty then none
      else some (.opening (.opened change.protocol limits) change.name
        (missingSources change (current.find? fun held => SamePlace held change)))) := by
  rw [permissionFor?, counterpart_eq_find? h.readable hchange]
  show (if _ then _ else _) = _
  split
  · rfl
  · rw [Permission.ofRule_of_bounds hchange]
    rfl

theorem filter_concat_eq_singleton_iff {α : Type} {p : α → Bool} {items : List α} {a : α} :
    (items ++ [a]).filter p = [a] ↔ (∀ x ∈ items, ¬ p x = true) ∧ p a = true := by
  rw [List.filter_append]
  by_cases ha : p a = true
  · rw [List.filter_cons_of_pos ha, List.filter_nil, List.append_left_eq_self,
      List.filter_eq_nil_iff, and_iff_left ha]
  · rw [List.filter_cons_of_neg ha, List.filter_nil, List.append_nil]
    refine iff_of_false (fun h => ha ?_) fun h => ha h.2
    exact List.of_mem_filter (h ▸ List.mem_singleton_self a)

/-- The source of a change that extends a rule is all that is missing, if the place of the change
admits all that the rule admits, and the source not yet. -/
theorem missingSources_extension_iff (h : Apart current) (hchange : change.bounds = .ok limits)
    (hsources : change.sources = existing.sources ++ [source]) :
    missingSources change (current.find? fun held => SamePlace held change) = [source] ↔
      (∀ s ∈ existing.sources, Admitted current change s) ∧ ¬ Admitted current change source := by
  rw [missingSources_eq, hsources, filter_concat_eq_singleton_iff]
  simp only [Bool.not_eq_true', ← Bool.not_eq_true, h.any_find?_iff hchange, not_not]

/-- A rule at the place of the change admits what it has. -/
theorem Apart.admitted_of_samePlace (h : Apart current) (hchange : change.bounds = .ok limits)
    (hexisting : existing ∈ current) (hplace : SamePlace existing change) :
    Admitted current change source ↔ existing.allows source = true := by
  constructor
  · rintro ⟨held, hheld, hheldPlace, hallows⟩
    rwa [h.eq_of_samePlace hchange hheld hexisting hheldPlace hplace] at hallows
  · intro hallows
    exact ⟨existing, hexisting, hplace, hallows⟩

theorem exists_permissionFor? (h : Apart current) (hchange : change.bounds.isOk = true) :
    ∃ sent, permissionFor? current change = .ok sent := by
  obtain ⟨limits, hlimits⟩ := exists_of_isOk hchange
  exact ⟨_, permissionFor?_eq h hlimits⟩

/-- What is sent for changes one after the other is sent one after the other. -/
theorem permissionsFor_append {earlier later : List SecurityRule} {before after : List Permission}
    (hbefore : permissionsFor current earlier = .ok before)
    (hafter : permissionsFor current later = .ok after) :
    permissionsFor current (earlier ++ later) = .ok (before ++ after) := by
  induction earlier generalizing before with
  | nil =>
    cases hbefore
    exact hafter
  | cons change earlier ih =>
    obtain ⟨sent, hsent, hbefore⟩ := exists_of_bind_eq_ok hbefore
    obtain ⟨rest, hrest, hbefore⟩ := exists_of_bind_eq_ok hbefore
    cases hbefore
    rw [List.cons_append, permissionsFor, hsent, List.append_assoc]
    show (permissionsFor current (earlier ++ later) >>= _) = _
    rw [ih hrest]
    rfl

theorem exists_permissionsFor (h : Apart current) {changes : List SecurityRule}
    (hchanges : ∀ change ∈ changes, change.bounds.isOk = true) :
    ∃ permissions, permissionsFor current changes = .ok permissions := by
  induction changes with
  | nil => exact ⟨[], rfl⟩
  | cons change changes ih =>
    obtain ⟨hchange, hrest⟩ := List.forall_mem_cons.1 hchanges
    obtain ⟨sent, hsent⟩ := exists_permissionFor? h hchange
    obtain ⟨permissions, hpermissions⟩ := ih hrest
    refine ⟨sent.toList ++ permissions, ?_⟩
    rw [permissionsFor, hsent]
    show (permissionsFor current changes >>= _) = _
    rw [hpermissions]
    rfl

/-- Each change is sent by itself, after what is sent for those before it. -/
theorem exists_of_mem_changes (h : Apart current) {changes : List SecurityRule}
    (hchanges : ∀ change ∈ changes, change.bounds.isOk = true) (hmem : change ∈ changes) :
    ∃ earlier later before sent after, changes = earlier ++ change :: later ∧
      permissionsFor current earlier = .ok before ∧ permissionFor? current change = .ok sent ∧
      permissionsFor current later = .ok after ∧
      permissionsFor current changes = .ok (before ++ (sent.toList ++ after)) := by
  obtain ⟨earlier, later, rfl⟩ := List.append_of_mem hmem
  obtain ⟨hearlier, hrest⟩ := List.forall_mem_append.1 hchanges
  obtain ⟨hchange, hlater⟩ := List.forall_mem_cons.1 hrest
  obtain ⟨before, hbefore⟩ := exists_permissionsFor h hearlier
  obtain ⟨sent, hsent⟩ := exists_permissionFor? h hchange
  obtain ⟨after, hafter⟩ := exists_permissionsFor h hlater
  refine ⟨earlier, later, before, sent, after, rfl, hbefore, hsent, hafter, ?_⟩
  refine permissionsFor_append hbefore ?_
  rw [permissionsFor, hsent]
  show (permissionsFor current later >>= _) = _
  rw [hafter]
  rfl

/-- Authorize permissions in one request, if there are any. -/
def authorizeAll {σ : Type} (client : Client σ) (group : GroupId) (permissions : List Permission) :
    Job σ Unit := do
  unless permissions.isEmpty do
    Job.expecting isClientFault (.authorization group.label) (client.authorize group permissions)
    Job.log .info (s!"Authorized {permissions.length} ingress rules on " ++ group.label)

theorem apply_eq_authorizeAll {σ : Type} {client : Client σ} {group : GroupId}
    {changes : List SecurityRule} {permissions : List Permission}
    (h : permissionsFor current changes = .ok permissions) :
    apply client group changes current = authorizeAll client group permissions := by
  rw [apply, h]
  rfl

end

/-! ## Extended rules -/

/-- The permission lets in one source, under the name, and the rule did not admit it. -/
def SendsOnly (sent : Option Permission) (name : Option String) (source : String)
    (existing : SecurityRule) : Prop :=
  ∃ permission, sent = some permission ∧
    permission.allRanges = [Permission.namedRange name source] ∧ existing.allows source = false

section

variable {current : List SecurityRule} {policy : List RequiredRule} {required : RequiredRule}
  {existing change : SecurityRule} {requester network : String} {σ : Type}

/-- A change of a rule that has the required protocol and ports adds the source to it. -/
theorem eq_extension_of_changeFor (hfind : findByName current required.name = some existing)
    (hprotocol : existing.protocol = required.protocol)
    (hports : samePorts existing.ports required.ports = true)
    (hchange : changeFor current requester network required = some change) :
    existing.allows (required.source requester network) = false ∧
      change.sources = existing.sources ++ [required.source requester network] := by
  obtain ⟨-, hmet, ⟨hnone, -⟩ | ⟨rule, hrule, rfl⟩⟩ := changeFor_eq_some_iff.1 hchange
  · rw [hfind] at hnone
    cases hnone
  rw [hfind] at hrule
  cases hrule
  have hnew : existing.allows (required.source requester network) = false := by
    rw [← Bool.not_eq_true]
    exact fun hallows => hmet ⟨existing, hfind, RequiredRule.isSatisfiedBy_iff.2
      ⟨name_of_findByName hfind, hprotocol, hports, hallows⟩⟩
  refine ⟨hnew, ?_⟩
  show (existing.withSource _).sources = _
  rw [SecurityRule.withSource, hnew]
  rfl

/-- The source is all that is sent exactly if it is all that is missing. -/
theorem sendsOnly_iff {sent : Option Permission} {limits : Option (Int × Int)} {source : String}
    (hcurrent : Apart current) (hlimits : change.bounds = .ok limits)
    (hsent : permissionFor? current change = .ok sent) (hnew : existing.allows source = false) :
    SendsOnly sent change.name source existing ↔
      missingSources change (current.find? fun held => SamePlace held change) = [source] := by
  rw [permissionFor?_eq hcurrent hlimits] at hsent
  cases hsent
  generalize missingSources change (current.find? fun held => SamePlace held change) = missing
  constructor
  · rintro ⟨permission, hpermission, hranges, -⟩
    split at hpermission
    · cases hpermission
    · cases hpermission
      exact Permission.allRanges_opening_eq_singleton_iff.1 hranges
  · rintro rfl
    exact ⟨_, rfl, Permission.allRanges_opening_eq_singleton_iff.2 rfl, hnew⟩

/-- The rule is the one that the change is compared with, or another one has all that it has. -/
theorem sendsOnly_extension_iff {sent : Option Permission} {limits : Option (Int × Int)}
    {source : String} (hcurrent : Apart current) (hexisting : existing ∈ current)
    (hlimits : change.bounds = .ok limits) (hsent : permissionFor? current change = .ok sent)
    (hnew : existing.allows source = false) (hsources : change.sources = existing.sources ++ [source]) :
    SendsOnly sent change.name source existing ↔ SamePlace existing change ∨
      (∀ s ∈ existing.sources, Admitted current change s) ∧ ¬ Admitted current change source := by
  rw [sendsOnly_iff hcurrent hlimits hsent hnew, missingSources_extension_iff hcurrent hlimits hsources]
  constructor
  · exact .inr
  rintro (hplace | hadmitted)
  · have hown : ∀ source, Admitted current change source ↔ existing.allows source = true :=
      fun source => hcurrent.admitted_of_samePlace hlimits hexisting hplace
    constructor
    · intro source hsource
      exact (hown source).2 (SecurityRule.allows_iff.2 ⟨source, hsource, rfl⟩)
    · rw [hown, hnew]
      exact Bool.false_ne_true
  · exact hadmitted

/-- The ports of a change are those that are required. -/
theorem isOk_bounds_of_mem_reconcile
    (hpolicy : ∀ required ∈ policy, (bounds required.ports).isOk = true)
    (hchange : change ∈ reconcile current policy requester network) : change.bounds.isOk = true := by
  obtain ⟨required, hmem, hasked⟩ := mem_reconcile_iff.1 hchange
  rw [SecurityRule.bounds, (opening_of_changeFor hasked).2]
  exact hpolicy required hmem

/-- **When only the required source is sent for a rule that is extended.** It is if the rule has the
bounds that are required, or its protocol has no ports. Otherwise the ports of the rule and the
required ones are every port in different bounds; then it is if the rules on the required bounds admit
all that the rule admits, and do not admit the source. -/
theorem extension_sends_source_iff (client : Client σ) (group : GroupId) (hcurrent : Apart current)
    (hnames : (policy.map (·.name)).Nodup)
    (hpolicy : ∀ required ∈ policy, (bounds required.ports).isOk = true)
    (hmem : required ∈ policy) (hfind : findByName current required.name = some existing)
    (hprotocol : existing.protocol = required.protocol)
    (hports : samePorts existing.ports required.ports = true)
    (hchange : change ∈ reconcile current policy requester network)
    (hname : change.name = some required.name) :
    ∃ earlier later before sent after,
      reconcile current policy requester network = earlier ++ change :: later ∧
      permissionsFor current earlier = .ok before ∧
      permissionFor? current change = .ok sent ∧
      permissionsFor current later = .ok after ∧
      apply client group (reconcile current policy requester network) current
        = authorizeAll client group (before ++ (sent.toList ++ after)) ∧
      (∃ x y, existing.bounds = .ok x ∧ change.bounds = .ok y ∧ SameBounds x y) ∧
      (SendsOnly sent change.name (required.source requester network) existing ↔
        SamePlace existing change ∨
          (∀ source ∈ existing.sources, Admitted current change source) ∧
            ¬ Admitted current change (required.source requester network)) := by
  have hasked := changeFor_of_mem_reconcile hnames hmem hchange hname
  obtain ⟨hnew, hsources⟩ := eq_extension_of_changeFor hfind hprotocol hports hasked
  have hexisting : existing ∈ current := List.mem_of_find?_eq_some hfind
  have hreadable : ∀ change ∈ reconcile current policy requester network,
      change.bounds.isOk = true := fun _ => isOk_bounds_of_mem_reconcile hpolicy
  obtain ⟨x, hx⟩ := exists_of_isOk (hcurrent.readable existing hexisting)
  obtain ⟨limits, hlimits⟩ := exists_of_isOk (hreadable change hchange)
  obtain ⟨earlier, later, before, sent, after, hsplit, hbefore, hsent, hafter, hall⟩ :=
    exists_of_mem_changes hcurrent hreadable hchange
  refine ⟨earlier, later, before, sent, after, hsplit, hbefore, hsent, hafter,
    apply_eq_authorizeAll hall, ⟨x, limits, hx, hlimits, ?_⟩,
    sendsOnly_extension_iff hcurrent hexisting hlimits hsent hnew hsources⟩
  refine sameBounds_of_samePorts hx hlimits ?_
  rw [(opening_of_changeFor hasked).2]
  exact hports

/-- SSH is open on its own port to one source, and a second one is all that is sent. -/
theorem extension_of_ssh_sends_source :
    let existing : SecurityRule := ⟨some "SSH", .tcp, ["192.0.2.0/24"], "22", none⟩
    ∃ sent, permissionFor? [existing] (sshRule.updatedRule existing "203.0.113.7/32") = .ok sent ∧
      SendsOnly sent (some "SSH") "203.0.113.7/32" existing := by
  intro existing
  have hcurrent : Apart [existing] := by decide +kernel
  have hpolicy : ∀ required ∈ ec2Rules, (bounds required.ports).isOk = true := by decide +kernel
  have hchange : sshRule.updatedRule existing "203.0.113.7/32"
      ∈ reconcile [existing] ec2Rules "203.0.113.7" "10.0.0.0/16" := by decide +kernel
  have hplace : SamePlace existing (sshRule.updatedRule existing "203.0.113.7/32") := by
    decide +kernel
  have hfind : findByName [existing] sshRule.name = some existing := by decide
  have hports : samePorts existing.ports sshRule.ports = true := by decide
  obtain ⟨-, -, -, sent, -, -, -, hsent, -, -, -, hiff⟩ :=
    extension_sends_source_iff (Region.client Region.locked) (some (CodeText.ofString "sg-1")) hcurrent
      (by decide) hpolicy (by decide) hfind rfl hports hchange rfl
  exact ⟨sent, hsent, hiff.2 (.inl hplace)⟩

/-- The rule has every TCP port as `0-65535`, and the required rule has it as `*`. To EC2 they are one
permission, and it is sent the source that the permission has already. -/
theorem extension_sends_again :
    let existing : SecurityRule := ⟨some "any-tcp", .tcp, ["192.0.2.0/24"], "0-65535", none⟩
    let required : RequiredRule := ⟨"any-tcp", .tcp, "*", 700, .operator, none⟩
    let change := required.updatedRule existing "203.0.113.7/32"
    let sent := Permission.opening (.tcp 0 65535) (some "any-tcp") ["192.0.2.0/24", "203.0.113.7/32"]
    Apart [existing] ∧ (bounds required.ports).isOk = true ∧
      findByName [existing] required.name = some existing ∧
      existing.protocol = required.protocol ∧ samePorts existing.ports required.ports = true ∧
      reconcile [existing] [required] "203.0.113.7" "10.0.0.0/16" = [change] ∧
      permissionFor? [existing] change = .ok (some sent) ∧
      existing.allows "192.0.2.0/24" = true ∧
      ¬ SendsOnly (some sent) change.name "203.0.113.7/32" existing := by
  intro existing required change sent
  refine ⟨by decide +kernel, by decide +kernel, by decide +kernel, by decide +kernel,
    by decide +kernel, by decide +kernel, by decide +kernel, by decide +kernel, ?_⟩
  rintro ⟨permission, heq, hranges, -⟩
  cases heq
  exact absurd hranges (by decide +kernel)

end

end Ec2

end NodeLedger.Cloud
