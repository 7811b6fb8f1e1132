import NodeLedger.Proofs.Address.Host
import NodeLedger.Proofs.Cloud.Ec2.Observed

/-!
# What is sent to EC2

A change is compared with the permission of its key, and what that permission does not hold is sent.
The sources of the change, however, are those of the permission of its name.

- `Visit.Valid`: a visit with an IPv4 address to a network that is a block.
- `Permission.opening`: the permission that opens a key.
- `Ec2.requests`, `permissionsFor_observed`: what a visit sends, without faults.
- `mem_grants_requests_iff`: **what a visit asks for**: whatever is not granted yet of the required
  sources, and of the sources that the permissions of the required names have.
- `reported_requests`, `nodup_grants_requests`: requests are as EC2 reports permissions, and ask for
  nothing twice.
-/

namespace NodeLedger.Policy

/-- A visit as it comes: the operator has an IPv4 address, and the network is a block. -/
structure Visit.Valid (visit : Visit) : Prop where
  requester : (Address.readV4? visit.requester.toList).isSome = true
  network : Address.IsBlock visit.network

instance (visit : Visit) : Decidable visit.Valid :=
  decidable_of_iff ((Address.readV4? visit.requester.toList).isSome = true
    ∧ Address.IsBlock visit.network) ⟨fun ⟨h, h'⟩ => ⟨h, h'⟩, fun h => ⟨h.requester, h.network⟩⟩

/-- The source of a required rule at a visit. -/
def Visit.source (visit : Visit) (required : RequiredRule) : String :=
  required.source visit.requester visit.network

section

variable {visit : Visit} {required : RequiredRule}

/-- A rule with one source more has its own sources and that one. -/
theorem SecurityRule.mem_or_eq_of_mem_withSource {rule : SecurityRule} {source block : String}
    (h : block ∈ (rule.withSource source).sources) : block ∈ rule.sources ∨ block = source := by
  rw [SecurityRule.withSource] at h
  split at h
  · exact .inl h
  · exact (List.mem_append.1 h).imp_right List.mem_singleton.1

@[simp] theorem Visit.canonical_source (visit : Visit) (required : RequiredRule) :
    Address.canonical (visit.source required) = visit.source required :=
  required.canonical_source ..

/-- The operator's address is canonical with its full prefix length. -/
theorem Visit.canonical_requester (h : (Address.readV4? visit.requester.toList).isSome = true) :
    Address.canonical visit.requester = visit.requester ++ "/32" := by
  obtain ⟨address, haddress⟩ := Option.isSome_iff_exists.1 h
  exact Address.canonical_of_readV4? haddress

theorem Visit.source_of_mem_ec2Rules (hmem : required ∈ ec2Rules) :
    visit.source required = match required.scope with
      | .operator => Address.canonical visit.requester
      | .network => Address.canonical visit.network := by
  simp only [ec2Rules, List.mem_cons, List.not_mem_nil, or_false] at hmem
  rcases hmem with rfl | rfl | rfl | rfl
  · rfl
  · rfl
  · rfl
  · rfl

theorem Visit.Valid.source_ne_empty (h : visit.Valid) (hmem : required ∈ ec2Rules) :
    visit.source required ≠ "" := by
  rw [Visit.source_of_mem_ec2Rules hmem]
  cases required.scope with
  | operator =>
    show Address.canonical visit.requester ≠ ""
    rw [Visit.canonical_requester h.requester]
    intro hempty
    have hchars := congrArg String.toList hempty
    rw [String.toList_append] at hchars
    exact absurd (List.append_eq_nil_iff.1 hchars).2 (by decide)
  | network => exact Address.canonical_ne_empty h.network

end

end NodeLedger.Policy

namespace NodeLedger.Cloud

open Policy

/-! ## Opening a key -/

namespace Permission

/-- The range of an address, with a name for its description. -/
def namedRange (name : Option String) (address : String) : AddressRange :=
  ⟨.value address, .ofOption name⟩

/-- The permission that opens a key to addresses. -/
def opening (key : PermissionKey) (name : Option String) (addresses : List String) :
    Permission where
  protocol := key.protocol.elim .missing .value
  low := key.low.elim .missing .value
  high := key.high.elim .missing .value
  ranges := .value ((addresses.filter fun address => !isWide address).map (namedRange name))
  wideRanges :=
    let wide := (addresses.filter isWide).map (namedRange name)
    if wide.isEmpty then .missing else .value wide

section Opening

variable {key : PermissionKey} {name : Option String} {addresses : List String} {protocol : Protocol}
  {ports : String}

theorem ofRule_of_bounds {rule : SecurityRule} {limits : Option (Int × Int)}
    (h : rule.bounds = .ok limits) (addresses : List String) :
    ofRule rule addresses = .ok (opening (.opened rule.protocol limits) rule.name addresses) := by
  rw [ofRule]
  cases rule.protocol with
  | all => rfl
  | tcp =>
    dsimp only
    rw [h]
    rfl

theorem ofRule_eq_opening {rule : SecurityRule}
    (h : PermissionKey.of? rule.protocol rule.ports = some key) (addresses : List String) :
    ofRule rule addresses = .ok (opening key rule.name addresses) := by
  cases hprotocol : rule.protocol with
  | all =>
    rw [hprotocol] at h
    cases h
    rw [ofRule, hprotocol]
    rfl
  | tcp =>
    rw [hprotocol] at h
    obtain ⟨low, high, hbounds, rfl⟩ := PermissionKey.of?_tcp_eq_some_iff.1 h
    rw [ofRule_of_bounds hbounds, hprotocol]
    rfl

theorem key_opening (h : PermissionKey.of? protocol ports = some key) :
    (opening key name addresses).key = key := by
  cases protocol with
  | all =>
    cases h
    rfl
  | tcp =>
    obtain ⟨low, high, -, rfl⟩ := PermissionKey.of?_tcp_eq_some_iff.1 h
    rfl

theorem filterMap_block_namedRange (h : ∀ address ∈ addresses, address ≠ "") :
    (addresses.map (namedRange name)).filterMap (·.block.text?) = addresses := by
  rw [List.filterMap_map]
  refine (List.filterMap_congr fun address hmem => ?_).trans List.filterMap_some
  show Option.filter (· != "") (some address) = some address
  exact Option.filter_some_pos (bne_iff_ne.2 (h address hmem))

theorem entries_wideRanges_opening (key : PermissionKey) (name : Option String)
    (addresses : List String) :
    (opening key name addresses).wideRanges.entries
      = (addresses.filter isWide).map (namedRange name) := by
  show Field.entries (if _ then _ else _) = _
  split
  · rename_i hempty
    exact (List.isEmpty_iff.1 hempty).symm
  · rfl

/-- A permission opens its key to no other sources. -/
theorem mem_of_mem_blocks_opening {block : String}
    (h : block ∈ (opening key name addresses).blocks) : block ∈ addresses := by
  have hpart : ∀ p : String → Bool,
      block ∈ ((addresses.filter p).map (namedRange name)).filterMap (·.block.text?) →
        block ∈ addresses := by
    intro p hmem
    obtain ⟨range, hrange, htext⟩ := List.mem_filterMap.1 hmem
    obtain ⟨address, haddress, rfl⟩ := List.mem_map.1 hrange
    have hsame : some address = some block := (Option.filter_eq_some_iff.1 htext).1
    exact Option.some.inj hsame ▸ (List.mem_filter.1 haddress).1
  rw [blocks, entries_wideRanges_opening] at h
  rcases List.mem_append.1 h with hnarrow | hwide
  · exact hpart _ hnarrow
  · exact hpart _ hwide

/-- The sources of the permission are the addresses, IPv4 first. -/
theorem blocks_opening_eq (h : ∀ address ∈ addresses, address ≠ "") :
    (opening key name addresses).blocks
      = (addresses.filter fun address => !isWide address) ++ addresses.filter isWide := by
  have hmem : ∀ p : String → Bool, ∀ address ∈ addresses.filter p, address ≠ "" :=
    fun p address haddress => h address (List.mem_filter.1 haddress).1
  rw [blocks, entries_wideRanges_opening, filterMap_block_namedRange (hmem isWide)]
  exact congrArg (· ++ _) (filterMap_block_namedRange (hmem _))

theorem blocks_opening (h : ∀ address ∈ addresses, address ≠ "") :
    (opening key name addresses).blocks.Perm addresses := by
  rw [blocks_opening_eq h]
  exact List.perm_append_comm.trans (List.filter_append_perm isWide addresses)

/-- Both lists of ranges are there. -/
theorem listed_opening (key : PermissionKey) (name : Option String) (addresses : List String) :
    (opening key name addresses).ranges ≠ .null ∧ (opening key name addresses).wideRanges ≠ .null := by
  refine ⟨nofun, ?_⟩
  show (if _ then _ else _) ≠ _
  split <;> nofun

/-- What opens one port or everything is as EC2 reports permissions. -/
theorem reported_opening
    (hkey : key = .everything ∨ ∃ port : Nat, port ≤ 65535 ∧ key = .tcp port port)
    (hne : ∀ address ∈ addresses, address ≠ "")
    (hcanonical : ∀ address ∈ addresses, Address.canonical address = address)
    (honce : addresses.Nodup) : (opening key name addresses).Reported where
  listed := listed_opening key name addresses
  ports := by
    rcases hkey with rfl | ⟨port, hport, rfl⟩
    · show some Protocol.all = some .tcp → _
      intro htcp
      exact absurd htcp (by decide)
    · intro _
      have hlimits : (0 : Int) ≤ port ∧ (port : Int) ≤ 65535 := by omega
      exact ⟨hlimits, hlimits⟩
  canonical block hblock := hcanonical block ((blocks_opening hne).mem_iff.1 hblock)
  once := (blocks_opening hne).nodup_iff.2 honce

/-- Every range is described by the name. -/
theorem eq_of_mem_descriptions_opening {description : String}
    (h : description ∈ (opening key name addresses).descriptions) : name = some description := by
  obtain ⟨range, hrange, htext⟩ := List.mem_filterMap.1 h
  obtain ⟨address, -, rfl⟩ := List.mem_map.1 hrange
  cases name with
  | none => cases htext
  | some text => exact (Option.filter_eq_some_iff.1 htext).1

end Opening

end Permission

namespace Ec2

/-! ## Requests -/

/-- The change that a required rule asks for at a visit. -/
def change? (group : List Permission) (visit : Visit) (required : RequiredRule) :
    Option SecurityRule :=
  changeFor (observed group) visit.requester visit.network required

/-- The sources of a change that its key does not grant yet. -/
def unheld (group : List Permission) (required : RequiredRule) (change : SecurityRule) :
    List String :=
  change.sources.filter fun block => (requiredKey required, block) ∉ grants group

/-- What a required rule sends at a visit, if anything. -/
def request? (group : List Permission) (visit : Visit) (required : RequiredRule) :
    Option Permission :=
  (change? group visit required).bind fun change =>
    if (unheld group required change).isEmpty then none
    else some (.opening (requiredKey required) (some required.name) (unheld group required change))

/-- What a visit sends. -/
def requests (group : List Permission) (visit : Visit) : List Permission :=
  ec2Rules.filterMap (request? group visit)

section Requests

variable {group : List Permission} {visit : Visit} {required : RequiredRule}
  {change : SecurityRule} {block : String}

/-- A change has the key of its required rule. -/
theorem of?_of_change? (hmem : required ∈ ec2Rules)
    (h : change? group visit required = some change) :
    PermissionKey.of? change.protocol change.ports = some (requiredKey required) := by
  obtain ⟨hprotocol, hports⟩ := opening_of_changeFor h
  rw [hprotocol, hports]
  exact of?_of_mem_ec2Rules hmem

/-- A source of a change is the required one, or one that the permission of its name has. The group
may be any. -/
theorem eq_source_or_exists_firstNamed (hchange : change? group visit required = some change)
    (hblock : block ∈ change.sources) :
    block = visit.source required ∨
      ∃ permission, firstNamed group required.name = some permission ∧
        block ∈ permission.blocks := by
  obtain ⟨-, -, ⟨-, rfl⟩ | ⟨rule, hfind, rfl⟩⟩ := changeFor_eq_some_iff.1 hchange
  · exact .inl (List.mem_singleton.1 hblock)
  · obtain ⟨permission, hfirst, hobserved⟩ := findByName_observed_eq_some_iff.1 hfind
    refine (SecurityRule.mem_or_eq_of_mem_withSource hblock).symm.imp_right fun hheld => ?_
    rw [Permission.sources_of_observed? hobserved] at hheld
    exact ⟨permission, hfirst, hheld⟩

/-- The sources of a change are the required one and those of the permission of its name. -/
theorem mem_sources_change?_iff (h : GroupReported group)
    (hchange : change? group visit required = some change) :
    block ∈ change.sources ↔
      block = visit.source required ∨
        ∃ permission, firstNamed group required.name = some permission ∧
          block ∈ permission.blocks := by
  refine ⟨eq_source_or_exists_firstNamed hchange, fun hsource => ?_⟩
  obtain ⟨-, -, ⟨hnone, rfl⟩ | ⟨rule, hfind, rfl⟩⟩ := changeFor_eq_some_iff.1 hchange
  · rw [findByName_observed_eq_none_iff] at hnone
    rcases hsource with rfl | ⟨permission, hfirst, -⟩
    · exact List.mem_singleton_self _
    · rw [hnone] at hfirst
      cases hfirst
  · obtain ⟨permission, hfirst, hobserved⟩ := findByName_observed_eq_some_iff.1 hfind
    show block ∈ (rule.withSource (visit.source required)).sources
    rcases hsource with rfl | ⟨other, hother, hblock⟩
    · have hreported := h.permissions _ (mem_of_firstNamed hfirst).1
      have hallows := Permission.allows_observed_iff hreported hobserved
        (visit.canonical_source required)
      rw [SecurityRule.withSource]
      split
      · -- The rule admits the source already, under the one spelling that there is.
        rename_i hheld
        rw [Permission.sources_of_observed? hobserved]
        exact hallows.1 hheld
      · exact List.mem_append_right _ (List.mem_singleton_self _)
    · rw [hfirst] at hother
      cases hother
      rw [← Permission.sources_of_observed? hobserved] at hblock
      exact (rule.sources_isPrefix_withSource _).subset hblock

/-- The sources of a change are spelled in their only way. -/
theorem canonical_of_mem_sources_change? (h : GroupReported group)
    (hchange : change? group visit required = some change) (hblock : block ∈ change.sources) :
    Address.canonical block = block := by
  rcases (mem_sources_change?_iff h hchange).1 hblock with rfl | ⟨permission, hfirst, hheld⟩
  · exact visit.canonical_source required
  · exact (h.permissions _ (mem_of_firstNamed hfirst).1).canonical block hheld

theorem ne_empty_of_mem_sources_change? (h : GroupReported group) (hvisit : visit.Valid)
    (hmem : required ∈ ec2Rules) (hchange : change? group visit required = some change)
    (hblock : block ∈ change.sources) : block ≠ "" := by
  rcases (mem_sources_change?_iff h hchange).1 hblock with rfl | ⟨permission, -, hheld⟩
  · exact hvisit.source_ne_empty hmem
  · exact Permission.ne_empty_of_mem_blocks hheld

theorem nodup_sources_change? (h : GroupReported group)
    (hchange : change? group visit required = some change) : change.sources.Nodup := by
  obtain ⟨-, -, ⟨-, rfl⟩ | ⟨rule, hfind, rfl⟩⟩ := changeFor_eq_some_iff.1 hchange
  · exact List.nodup_singleton _
  · obtain ⟨permission, hfirst, hobserved⟩ := findByName_observed_eq_some_iff.1 hfind
    have hreported := h.permissions _ (mem_of_firstNamed hfirst).1
    have hallows := Permission.allows_observed_iff hreported hobserved
      (visit.canonical_source required)
    show (rule.withSource (visit.source required)).sources.Nodup
    rw [SecurityRule.withSource]
    split
    · rw [Permission.sources_of_observed? hobserved]
      exact hreported.once
    · rename_i hnew
      show (rule.sources ++ [visit.source required]).Nodup
      rw [Permission.sources_of_observed? hobserved, List.nodup_append']
      refine ⟨hreported.once, List.nodup_singleton _, fun block hheld hlast => ?_⟩
      rw [List.mem_singleton] at hlast
      exact hnew (hallows.2 (hlast ▸ hheld))

/-- What is missing where a change is compared is what its key does not grant. -/
theorem missingSources_observed (h : GroupReported group) (hmem : required ∈ ec2Rules)
    (hchange : change? group visit required = some change) :
    missingSources change ((ofKey group (requiredKey required)).bind Permission.observed?)
      = unheld group required change := by
  have hgrant : ∀ block, (requiredKey required, block) ∈ grants group ↔ _ :=
    fun _ => mem_grants_iff_ofKey h
  rw [unheld]
  cases hheld : ofKey group (requiredKey required) with
  | none =>
    show change.sources = _
    refine (List.filter_eq_self.2 fun block _ => decide_eq_true ?_).symm
    rw [hgrant, hheld]
    rintro ⟨permission, hnone, -⟩
    cases hnone
  | some permission =>
    obtain ⟨hgroup, hkey⟩ := mem_of_ofKey hheld
    obtain ⟨current, hobserved⟩ : ∃ current, permission.observed? = some current := by
      refine Permission.exists_observed?_of_key ((of?_of_mem_ec2Rules hmem).trans ?_)
      rw [hkey]
    rw [Option.bind_some, hobserved]
    show change.sources.filter (fun block => !current.allows block) = _
    refine List.filter_congr fun block hblock => ?_
    have hallows := Permission.allows_observed_iff (h.permissions _ hgroup) hobserved
      (canonical_of_mem_sources_change? h hchange hblock)
    rw [Bool.eq_iff_iff, Bool.not_eq_true', ← Bool.not_eq_true, hallows, decide_eq_true_iff,
      ← hkey, mem_grants_key_iff h.keys hgroup]

theorem permissionFor?_observed (h : GroupReported group) (hmem : required ∈ ec2Rules)
    (hchange : change? group visit required = some change) :
    permissionFor? (observed group) change = .ok (request? group visit required) := by
  have hkey := of?_of_change? hmem hchange
  have hname : change.name = some required.name := name_of_changeFor hchange
  rw [permissionFor?, counterpart_observed h.permissions hkey, request?, hchange]
  show (if (missingSources change _).isEmpty then _ else _) = _
  rw [missingSources_observed h hmem hchange, Permission.ofRule_eq_opening hkey, hname, Option.bind_some]
  split
  · rfl
  · rfl

/-- **What a visit sends is computed without a fault.** -/
theorem permissionsFor_observed (h : GroupReported group) (visit : Visit) :
    permissionsFor (observed group) (visit.changes ec2Rules (observed group))
      = .ok (requests group visit) := by
  have hpart : ∀ policy ⊆ ec2Rules,
      permissionsFor (observed group) (visit.changes policy (observed group))
        = .ok (policy.filterMap (request? group visit)) := by
    intro policy hsub
    induction policy with
    | nil => rfl
    | cons required policy ih =>
      obtain ⟨hmem, hrest⟩ := List.cons_subset.1 hsub
      rw [Visit.changes, reconcile, List.filterMap_cons, List.filterMap_cons]
      cases hchange : changeFor (observed group) visit.requester visit.network required with
      | none =>
        have hnone : request? group visit required = none := by
          rw [request?, change?, hchange, Option.bind_none]
        rw [hnone]
        exact ih hrest
      | some change =>
        dsimp only
        rw [permissionsFor, permissionFor?_observed h hmem hchange]
        show (permissionsFor (observed group) (visit.changes policy (observed group))
          >>= fun rest => .ok ((request? group visit required).toList ++ rest)) = _
        rw [ih hrest]
        cases request? group visit required with
        | none => rfl
        | some sent => rfl
  exact hpart ec2Rules (List.Subset.refl _)

/-! ## What a visit asks for -/

theorem request?_eq_some_iff {sent : Permission} :
    request? group visit required = some sent ↔
      ∃ change, change? group visit required = some change ∧
        unheld group required change ≠ [] ∧
        sent = .opening (requiredKey required) (some required.name)
          (unheld group required change) := by
  rw [request?, Option.bind_eq_some_iff]
  refine exists_congr fun change => and_congr_right fun _ => ?_
  split
  · rename_i hempty
    exact iff_of_false nofun fun hsent => hsent.1 (List.isEmpty_iff.1 hempty)
  · rename_i hsome
    rw [List.isEmpty_iff] at hsome
    rw [Option.some.injEq, and_iff_right hsome, eq_comm]

theorem mem_requests_iff {sent : Permission} :
    sent ∈ requests group visit ↔
      ∃ required ∈ ec2Rules, request? group visit required = some sent :=
  List.mem_filterMap

/-- A request opens the key of its required rule to what the key does not grant yet. -/
theorem blocks_request? (h : GroupReported group) (hvisit : visit.Valid)
    (hmem : required ∈ ec2Rules) (hchange : change? group visit required = some change) :
    (Permission.opening (requiredKey required) (some required.name)
      (unheld group required change)).blocks.Perm (unheld group required change) := by
  refine Permission.blocks_opening fun block hblock => ?_
  exact ne_empty_of_mem_sources_change? h hvisit hmem hchange (List.mem_filter.1 hblock).1

/-- Requests are as EC2 reports permissions. -/
theorem reported_requests (h : GroupReported group) (hvisit : visit.Valid) :
    ∀ sent ∈ requests group visit, sent.Reported := by
  intro sent hsent
  obtain ⟨required, hmem, hrequest⟩ := mem_requests_iff.1 hsent
  obtain ⟨change, hchange, -, rfl⟩ := request?_eq_some_iff.1 hrequest
  have hsources : ∀ block ∈ unheld group required change, block ∈ change.sources :=
    fun block hblock => (List.mem_filter.1 hblock).1
  refine Permission.reported_opening ?_ (fun block hblock => ?_) (fun block hblock => ?_) ?_
  · rcases cases_of_mem_ec2Rules hmem with ⟨port, hport, -, -, -, hkey⟩ | ⟨-, -, -, hkey⟩
    · exact .inr ⟨port, hport, hkey⟩
    · exact .inl hkey
  · exact ne_empty_of_mem_sources_change? h hvisit hmem hchange (hsources block hblock)
  · exact canonical_of_mem_sources_change? h hchange (hsources block hblock)
  · exact (nodup_sources_change? h hchange).filter _

theorem key_request? {sent : Permission} (hmem : required ∈ ec2Rules)
    (hsent : request? group visit required = some sent) : sent.key = requiredKey required := by
  obtain ⟨change, -, -, rfl⟩ := request?_eq_some_iff.1 hsent
  exact Permission.key_opening (of?_of_mem_ec2Rules hmem)

/-- The required rules open distinct keys, so the requests do. -/
theorem nodup_keys_requests (group : List Permission) (visit : Visit) :
    ((requests group visit).map Permission.key).Nodup := by
  have hkeys : (ec2Rules.map requiredKey).Nodup := by decide +kernel
  have hpart : ∀ policy ⊆ ec2Rules,
      ((policy.filterMap (request? group visit)).map Permission.key).Sublist
        (policy.map requiredKey) := by
    intro policy hsub
    induction policy with
    | nil => exact List.Sublist.refl _
    | cons required policy ih =>
      obtain ⟨hmem, hrest⟩ := List.cons_subset.1 hsub
      rw [List.filterMap_cons, List.map_cons]
      cases hsent : request? group visit required with
      | none => exact (ih hrest).cons _
      | some sent =>
        rw [List.map_cons, key_request? hmem hsent]
        exact (ih hrest).cons_cons _
  exact hkeys.sublist (hpart ec2Rules (List.Subset.refl _))

/-- **A visit asks for nothing twice.** -/
theorem nodup_grants_requests (h : GroupReported group) (hvisit : visit.Valid) :
    (grants (requests group visit)).Nodup :=
  nodup_grants (nodup_keys_requests group visit) fun sent hsent =>
    (reported_requests h hvisit sent hsent).once

/-- A required rule asks for the source that it requires and for what the permission of its name
admits, unless everything is granted to its network. -/
theorem mem_grants_requests_iff (h : GroupReported group) (hvisit : visit.Valid)
    {key : PermissionKey} :
    (key, block) ∈ grants (requests group visit) ↔
      (key, block) ∉ grants group ∧ ∃ required ∈ ec2Rules, key = requiredKey required ∧
        ¬ (required.scope = .network ∧ (.everything, visit.source required) ∈ grants group) ∧
        (block = visit.source required ∨ ∃ permission,
          firstNamed group required.name = some permission ∧ block ∈ permission.blocks) := by
  constructor
  · intro hgrant
    obtain ⟨sent, hsent, hkey, hblock⟩ := mem_grants_iff.1 hgrant
    obtain ⟨required, hmem, hrequest⟩ := mem_requests_iff.1 hsent
    rw [key_request? hmem hrequest] at hkey
    subst hkey
    obtain ⟨change, hchange, -, rfl⟩ := request?_eq_some_iff.1 hrequest
    rw [(blocks_request? h hvisit hmem hchange).mem_iff] at hblock
    obtain ⟨hsource, hnew⟩ := List.mem_filter.1 hblock
    obtain ⟨hvouched, -, -⟩ := changeFor_eq_some_iff.1 hchange
    rw [vouched_observed_iff h] at hvouched
    refine ⟨of_decide_eq_true hnew, required, hmem, rfl, hvouched, ?_⟩
    exact (mem_sources_change?_iff h hchange).1 hsource
  · rintro ⟨hnew, required, hmem, rfl, hvouched, hsource⟩
    -- The rule is not met either: then all that is asked for would be granted.
    have hmet : ¬ Met (observed group) visit.requester visit.network required := by
      rw [met_observed_iff h hmem]
      rintro ⟨permission, hfirst, hkey, hheld⟩
      have hgrants : ∀ b, (permission.key, b) ∈ grants group ↔ b ∈ permission.blocks :=
        fun _ => mem_grants_key_iff h.keys (mem_of_firstNamed hfirst).1
      rw [hkey] at hgrants
      rcases hsource with rfl | ⟨other, hother, hblock⟩
      · exact hnew ((hgrants _).2 hheld)
      · rw [hfirst] at hother
        cases hother
        exact hnew ((hgrants _).2 hblock)
    obtain ⟨change, hchange⟩ : ∃ change, change? group visit required = some change := by
      refine Option.ne_none_iff_exists'.1 fun hnone => ?_
      rcases changeFor_eq_none_iff.1 hnone with hv | hm
      · exact hvouched ((vouched_observed_iff h).1 hv)
      · exact hmet hm
    have hblock : block ∈ unheld group required change :=
      List.mem_filter.2 ⟨(mem_sources_change?_iff h hchange).2 hsource, decide_eq_true hnew⟩
    refine mem_grants_iff.2 ⟨_, mem_requests_iff.2 ⟨required, hmem,
      request?_eq_some_iff.2 ⟨change, hchange, List.ne_nil_of_mem hblock, rfl⟩⟩, ?_, ?_⟩
    · exact Permission.key_opening (of?_of_mem_ec2Rules hmem)
    · exact (blocks_request? h hvisit hmem hchange).mem_iff.2 hblock

/-- A visit sends nothing exactly when it asks for nothing. -/
theorem requests_eq_nil_iff (h : GroupReported group) (hvisit : visit.Valid) :
    requests group visit = [] ↔ grants (requests group visit) = [] := by
  constructor
  · intro hnil
    rw [hnil, grants_nil]
  · intro hnil
    by_contra hsome
    obtain ⟨sent, hsent⟩ := List.exists_mem_of_ne_nil _ hsome
    obtain ⟨required, hmem, hrequest⟩ := mem_requests_iff.1 hsent
    obtain ⟨change, hchange, hne, rfl⟩ := request?_eq_some_iff.1 hrequest
    -- A request opens its key to something.
    obtain ⟨block, hblock⟩ := List.exists_mem_of_ne_nil _ hne
    have hgrant := mem_grants_iff.2
      ⟨_, hsent, rfl, (blocks_request? h hvisit hmem hchange).mem_iff.2 hblock⟩
    rw [hnil] at hgrant
    cases hgrant

end Requests

end Ec2

end NodeLedger.Cloud
