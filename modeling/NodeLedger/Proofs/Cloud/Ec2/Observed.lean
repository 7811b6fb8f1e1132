import NodeLedger.Cloud.Ec2.Groups
import NodeLedger.Proofs.Cloud.Ec2.Grants
import NodeLedger.Proofs.Policy.Ports
import NodeLedger.Proofs.Policy.Runs
import NodeLedger.Proofs.Sequence

/-!
# What the policy sees of a group on EC2

The policy sees a permission as a rule, and guesses the name of the rule from the descriptions of
the ranges and from the ports. So the permission that goes by the name of a required rule need not
be the one on its ports. What the group grants is told by protocol and ports alone.

- `Permission.observed?`, `Ec2.observed`: the rules that the policy sees.
- `Ec2.firstNamed`: the permission that the policy takes for the rule of a name.
- `PermissionKey.of?`, `Ec2.requiredKey`: the key that a rule opens, and that a required one opens.
- `Ec2.vouched_observed_iff`, `Ec2.met_observed_iff`: **when a required rule asks for nothing**, told
  by what the group grants.
- `Ec2.counterpart_observed`: the permission that a change is compared with is the one of its key.
-/

namespace NodeLedger.Cloud

open Policy Text

/-! ## One permission -/

/-- The key that a protocol with a range of ports goes by, if the range can be read. -/
def PermissionKey.of? (protocol : Protocol) (ports : String) : Option PermissionKey :=
  match protocol with
  | .all => some everything
  | .tcp =>
    match bounds ports with
    | .ok (some (low, high)) => some (tcp low high)
    | _ => none

theorem PermissionKey.of?_tcp_eq_some_iff {ports : String} {key : PermissionKey} :
    of? .tcp ports = some key ↔
      ∃ low high, bounds ports = .ok (some (low, high)) ∧ key = tcp low high := by
  unfold of?
  dsimp only
  split
  · rename_i low high hbounds
    rw [hbounds]
    constructor
    · intro h
      cases h
      exact ⟨low, high, rfl, rfl⟩
    · rintro ⟨low, high, hsame, rfl⟩
      cases hsame
      rfl
  · rename_i hnone
    constructor
    · intro h
      cases h
    · rintro ⟨low, high, hsame, -⟩
      exact absurd hsame (hnone low high)

/-- The key that a rule is opened on, given the bounds of its ports: every TCP port by the limits that
EC2 has for ports. -/
def PermissionKey.opened : Protocol → Option (Int × Int) → PermissionKey
  | .all, _ => everything
  | .tcp, limits => tcp (limits.getD Permission.portLimits).1 (limits.getD Permission.portLimits).2

/-- The word of EC2 for a protocol that the policy knows. -/
def PermissionKey.word : Protocol → String
  | .all => "-1"
  | .tcp => "tcp"

theorem PermissionKey.protocol_of_of? {protocol : Protocol} {ports : String} {key : PermissionKey}
    (h : of? protocol ports = some key) : key.protocol = some (word protocol) := by
  cases protocol with
  | all =>
    cases h
    rfl
  | tcp =>
    obtain ⟨low, high, -, rfl⟩ := of?_tcp_eq_some_iff.1 h
    rfl

namespace Field

variable {α : Type} {field : Field (List α)}

theorem items_of_ne_null (h : field ≠ .null) : field.items = .ok field.entries := by
  cases field with
  | missing => rfl
  | null => exact absurd rfl h
  | value items => rfl

theorem eq_entries_of_items {items : List α} (h : field.items = .ok items) :
    items = field.entries := by
  cases field with
  | missing =>
    cases h
    rfl
  | null => cases h
  | value _ =>
    cases h
    rfl

theorem exists_port {field : Field Int} (h : field.IsPort) :
    ∃ port : Nat, port ≤ 65535 ∧ field = .value (port : Int) := by
  cases field with
  | missing => exact h.elim
  | null => exact h.elim
  | value n =>
    obtain ⟨hlow, hhigh⟩ := h
    obtain ⟨port, rfl⟩ := Int.eq_ofNat_of_zero_le hlow
    exact ⟨port, by omega, rfl⟩

end Field

namespace Permission

/-- The descriptions of the IPv4 ranges. -/
def descriptions (permission : Permission) : List String :=
  permission.ranges.entries.filterMap (·.description.text?)

/-- The name that the permission goes by, if the policy knows its protocol. -/
def name? (permission : Permission) : Option String :=
  permission.protocol?.map fun protocol => permission.name protocol permission.descriptions

/-- The permission as a rule of a protocol. -/
def ruleAs (permission : Permission) (protocol : Protocol) : SecurityRule where
  name := some (permission.name protocol permission.descriptions)
  protocol := protocol
  sources := permission.blocks
  ports := permission.ports protocol
  priority := none

/-- The rule that the policy sees, if it knows the protocol. -/
def observed? (permission : Permission) : Option SecurityRule :=
  permission.protocol?.map permission.ruleAs

section

variable {permission : Permission} {rule : SecurityRule} {protocol : Protocol}

/-- A permission with two lists is read without a fault. -/
theorem rule?_of_listed (hranges : permission.ranges ≠ .null) (hwide : permission.wideRanges ≠ .null) :
    permission.rule? = .ok permission.observed? := by
  rw [rule?, observed?]
  cases permission.protocol? with
  | none => rfl
  | some protocol =>
    dsimp only
    rw [Field.items_of_ne_null hranges, Field.items_of_ne_null hwide]
    rfl

theorem rule?_of_reported (h : permission.Reported) :
    permission.rule? = .ok permission.observed? :=
  rule?_of_listed h.listed.1 h.listed.2

/-- What is read without a fault is what the policy sees. -/
theorem eq_observed?_of_rule? {seen : Option SecurityRule} (h : permission.rule? = .ok seen) :
    seen = permission.observed? := by
  rw [rule?] at h
  rw [observed?]
  cases hprotocol : permission.protocol? with
  | none =>
    rw [hprotocol] at h
    cases h
    rfl
  | some protocol =>
    rw [hprotocol] at h
    obtain ⟨ranges, hranges, h⟩ := exists_of_bind_eq_ok h
    obtain ⟨wideRanges, hwide, h⟩ := exists_of_bind_eq_ok h
    cases h
    rw [Field.eq_entries_of_items hranges, Field.eq_entries_of_items hwide]
    rfl

/-- A permission that reads as a rule has two lists. -/
theorem listed_of_rule? (h : permission.rule? = .ok (some rule)) :
    permission.ranges ≠ .null ∧ permission.wideRanges ≠ .null := by
  rw [rule?] at h
  cases hprotocol : permission.protocol? with
  | none =>
    rw [hprotocol] at h
    cases h
  | some protocol =>
    rw [hprotocol] at h
    obtain ⟨ranges, hranges, h⟩ := exists_of_bind_eq_ok h
    obtain ⟨wideRanges, hwide, -⟩ := exists_of_bind_eq_ok h
    constructor
    · intro hnull
      rw [hnull] at hranges
      cases hranges
    · intro hnull
      rw [hnull] at hwide
      cases hwide

theorem observed?_eq_some_iff :
    permission.observed? = some rule ↔
      ∃ protocol, permission.protocol? = some protocol ∧ rule = permission.ruleAs protocol := by
  rw [observed?, Option.map_eq_some_iff]
  exact exists_congr fun _ => and_congr_right fun _ => eq_comm

/-- The policy sees a permission under the name that the permission goes by. -/
theorem map_name_observed? (permission : Permission) :
    permission.observed?.map (·.name) = permission.name?.map some := by
  rw [observed?, name?, Option.map_map, Option.map_map]
  rfl

theorem name?_eq_name (h : permission.observed? = some rule) : permission.name? = rule.name := by
  obtain ⟨protocol, hprotocol, rfl⟩ := observed?_eq_some_iff.1 h
  rw [name?, hprotocol]
  rfl

theorem exists_observed? {name : String} (h : permission.name? = some name) :
    ∃ rule, permission.observed? = some rule := by
  obtain ⟨protocol, hprotocol, -⟩ := Option.map_eq_some_iff.1 h
  exact ⟨_, observed?_eq_some_iff.2 ⟨protocol, hprotocol, rfl⟩⟩

theorem sources_of_observed? (h : permission.observed? = some rule) :
    rule.sources = permission.blocks := by
  obtain ⟨protocol, -, rfl⟩ := observed?_eq_some_iff.1 h
  rfl

/-- The sources of a permission are spelled in their only way. -/
theorem allows_observed_iff (h : permission.Reported) (hobserved : permission.observed? = some rule)
    {source : String} (hsource : Address.canonical source = source) :
    rule.allows source = true ↔ source ∈ permission.blocks := by
  rw [SecurityRule.allows_iff, sources_of_observed? hobserved, hsource]
  constructor
  · rintro ⟨block, hblock, heq⟩
    rw [h.canonical block hblock] at heq
    exact heq ▸ hblock
  · intro hblock
    exact ⟨source, hblock, hsource⟩

/-! ### Protocol and ports -/

/-- The key tells whether the policy knows the protocol, and which one it is. -/
theorem protocol?_eq_some_iff :
    permission.protocol? = some protocol ↔
      permission.key.protocol = some (PermissionKey.word protocol) := by
  rw [key]
  cases hprotocol : permission.protocol? with
  | some known =>
    cases known with
    | all =>
      show some Protocol.all = some protocol ↔ some "-1" = some (PermissionKey.word protocol)
      cases protocol <;> decide
    | tcp =>
      show some Protocol.tcp = some protocol ↔ some "tcp" = some (PermissionKey.word protocol)
      cases protocol <;> decide
  | none =>
    -- Then EC2 has another word for the protocol.
    refine iff_of_false nofun ?_
    show permission.protocol.toOption ≠ _
    cases hword : permission.protocol with
    | missing => nofun
    | null => nofun
    | value word =>
      intro heq
      have hsame : word = PermissionKey.word protocol := Option.some.inj heq
      rw [protocol?, hword, hsame] at hprotocol
      cases protocol <;> cases hprotocol

theorem key_eq_everything_iff : permission.key = .everything ↔ permission.protocol? = some .all := by
  constructor
  · intro h
    exact protocol?_eq_some_iff.2 (congrArg PermissionKey.protocol h)
  · intro h
    rw [key, h]

/-- A permission is seen if some rule has its key. -/
theorem exists_observed?_of_key {ports : String}
    (h : PermissionKey.of? protocol ports = some permission.key) :
    ∃ rule, permission.observed? = some rule := by
  have hprotocol := protocol?_eq_some_iff.2 (PermissionKey.protocol_of_of? h)
  exact ⟨_, observed?_eq_some_iff.2 ⟨protocol, hprotocol, rfl⟩⟩

/-- The ports of a TCP permission, in its key and in text. -/
theorem exists_ports_of_tcp (h : permission.Reported) (htcp : permission.protocol? = some .tcp) :
    ∃ low high : Nat, low ≤ 65535 ∧ high ≤ 65535 ∧ permission.key = .tcp low high ∧
      permission.ports .tcp
        = if low = high then String.ofList (decimal low) else portRange low high := by
  obtain ⟨hlow, hhigh⟩ := h.ports htcp
  obtain ⟨low, hlowLimit, hlow⟩ := Field.exists_port hlow
  obtain ⟨high, hhighLimit, hhigh⟩ := Field.exists_port hhigh
  refine ⟨low, high, hlowLimit, hhighLimit, ?_, ?_⟩
  · rw [key, htcp, hlow, hhigh]
    rfl
  · simp only [ports, portText, hlow, hhigh, Field.toOption, Option.some.injEq, Int.ofNat_inj]
    congr 1
    show String.ofList (decimal low) ++ "-" ++ String.ofList (decimal high) = portRange low high
    rw [portRange, ← List.singleton_append, ← List.append_assoc, String.ofList_append,
      String.ofList_append]

theorem bounds_ports_of_tcp (h : permission.Reported)
    (htcp : permission.protocol? = some .tcp) :
    ∃ low high : Int, permission.key = .tcp low high ∧
      bounds (permission.ports .tcp) = .ok (some (low, high)) := by
  obtain ⟨low, high, hlow, hhigh, hkey, hports⟩ := exists_ports_of_tcp h htcp
  have hshort : ∀ n ≤ 65535, (decimal n).length ≤ digitLimit := by
    intro n hn
    have hfive := (length_decimal_le_iff (n := n) (k := 5) (by decide)).2 (by omega)
    exact hfive.trans (by decide)
  refine ⟨low, high, hkey, ?_⟩
  rw [hports]
  split
  · rename_i hsame
    rw [← hsame]
    exact bounds_decimal (hshort low hlow)
  · exact bounds_portRange (hshort low hlow) (hshort high hhigh)

/-- The rule that the policy sees has the key of the permission. -/
theorem of?_observed (h : permission.Reported) (hobserved : permission.observed? = some rule) :
    PermissionKey.of? rule.protocol rule.ports = some permission.key := by
  obtain ⟨protocol, hprotocol, rfl⟩ := observed?_eq_some_iff.1 hobserved
  show PermissionKey.of? protocol (permission.ports protocol) = some permission.key
  cases protocol with
  | all =>
    rw [key_eq_everything_iff.2 hprotocol]
    rfl
  | tcp =>
    obtain ⟨low, high, hkey, hbounds⟩ :=
      bounds_ports_of_tcp h hprotocol
    exact PermissionKey.of?_tcp_eq_some_iff.2 ⟨low, high, hbounds, hkey⟩

/-- The ports that a TCP permission is seen with are one port exactly when its key is. -/
theorem samePorts_tcp_iff (h : permission.Reported) (htcp : permission.protocol? = some .tcp)
    {n : Nat} :
    samePorts (permission.ports .tcp) (String.ofList (decimal n)) = true ↔
      permission.key = .tcp n n := by
  obtain ⟨low, high, -, -, hkey, hports⟩ := exists_ports_of_tcp h htcp
  rw [hkey, hports]
  split
  · rename_i hsame
    rw [samePorts_decimal_iff, ← hsame]
    constructor
    · rintro rfl
      rfl
    · intro heq
      exact Int.ofNat_inj.1 (Option.some.inj (congrArg PermissionKey.low heq))
  · rename_i hne
    rw [samePorts_portRange_decimal hne]
    refine iff_of_false Bool.false_ne_true fun heq => hne ?_
    have hlow : (low : Int) = n := Option.some.inj (congrArg PermissionKey.low heq)
    have hhigh : (high : Int) = n := Option.some.inj (congrArg PermissionKey.high heq)
    omega

end

end Permission

/-! ## A group -/

namespace Ec2

/-- The rules that the policy sees of a group. -/
def observed (group : List Permission) : List SecurityRule :=
  group.filterMap Permission.observed?

/-- The permission that the policy takes for the rule of a name. -/
def firstNamed (group : List Permission) (name : String) : Option Permission :=
  group.find? fun permission => permission.name? = some name

/-- The permission of a key. -/
def ofKey (group : List Permission) (key : PermissionKey) : Option Permission :=
  group.find? fun permission => permission.key = key

/-- The key that a required rule opens. -/
def requiredKey (required : RequiredRule) : PermissionKey :=
  (PermissionKey.of? required.protocol required.ports).getD .everything

theorem of?_of_mem_ec2Rules {required : RequiredRule} (h : required ∈ ec2Rules) :
    PermissionKey.of? required.protocol required.ports = some (requiredKey required) := by
  have hall : ∀ r ∈ ec2Rules, PermissionKey.of? r.protocol r.ports = some (requiredKey r) := by
    decide +kernel
  exact hall required h

/-- A rule of the policy on EC2 opens one port to the operator, or everything to the network. -/
theorem cases_of_mem_ec2Rules {required : RequiredRule} (h : required ∈ ec2Rules) :
    (∃ port : Nat, port ≤ 65535 ∧ required.scope = .operator ∧ required.protocol = .tcp ∧
      required.ports = String.ofList (decimal port) ∧ requiredKey required = .tcp port port) ∨
    (required.scope = .network ∧ required.protocol = .all ∧ required.ports = allPorts ∧
      requiredKey required = .everything) := by
  simp only [ec2Rules, List.mem_cons, List.not_mem_nil, or_false] at h
  rcases h with rfl | rfl | rfl | rfl
  · exact .inl ⟨winRMPort, by decide, rfl, rfl, rfl, by decide +kernel⟩
  · exact .inl ⟨rdpPort, by decide, rfl, rfl, rfl, by decide +kernel⟩
  · exact .inr ⟨rfl, rfl, rfl, rfl⟩
  · exact .inl ⟨sshPort, by decide, rfl, rfl, rfl, by decide +kernel⟩

/-- Names tell required rules apart. -/
theorem eq_of_name_eq {required other : RequiredRule} (hmem : required ∈ ec2Rules)
    (hother : other ∈ ec2Rules) (hname : other.name = required.name) : other = required := by
  have hnames : (ec2Rules.map (·.name)).Nodup := by decide
  exact List.inj_on_of_nodup_map hnames hother hmem hname

section Group

variable {group : List Permission} {permission : Permission} {name : String}
  {key : PermissionKey}

theorem mem_of_firstNamed (h : firstNamed group name = some permission) :
    permission ∈ group ∧ permission.name? = some name := by
  unfold firstNamed at h
  have hname := List.find?_some h
  exact ⟨List.mem_of_find?_eq_some h, of_decide_eq_true hname⟩

theorem mem_of_ofKey (h : ofKey group key = some permission) :
    permission ∈ group ∧ permission.key = key := by
  unfold ofKey at h
  have hkey := List.find?_some h
  exact ⟨List.mem_of_find?_eq_some h, of_decide_eq_true hkey⟩

/-- What is granted on a key are the sources of its permission. -/
theorem mem_grants_iff_ofKey (h : GroupReported group) {block : String} :
    (key, block) ∈ grants group ↔
      ∃ permission, ofKey group key = some permission ∧ block ∈ permission.blocks := by
  constructor
  · intro hgrant
    obtain ⟨permission, hmem, hkey, hblock⟩ := mem_grants_iff.1 hgrant
    cases hfound : ofKey group key with
    | none =>
      have hother := List.find?_eq_none.1 hfound permission hmem
      exact absurd (decide_eq_true hkey) hother
    | some first =>
      obtain ⟨hfirst, hsame⟩ := mem_of_ofKey hfound
      refine ⟨first, rfl, ?_⟩
      rwa [List.inj_on_of_nodup_map h.keys hfirst hmem (hsame.trans hkey.symm)]
  · rintro ⟨permission, hfound, hblock⟩
    obtain ⟨hmem, hkey⟩ := mem_of_ofKey hfound
    exact mem_grants_iff.2 ⟨permission, hmem, hkey, hblock⟩

/-- The first rule of a name is what the policy sees of the first permission of that name. -/
theorem findByName_observed (group : List Permission) (name : String) :
    findByName (observed group) name = (firstNamed group name).bind Permission.observed? := by
  rw [findByName, observed, List.find?_filterMap, firstNamed]
  congr 2
  funext permission
  cases hobserved : permission.observed? with
  | none =>
    cases hname : permission.name? with
    | none => rfl
    | some other =>
      obtain ⟨rule, hrule⟩ := Permission.exists_observed? hname
      rw [hobserved] at hrule
      cases hrule
  | some rule =>
    rw [Permission.name?_eq_name hobserved, Option.any_some]
    exact (Bool.beq_eq_decide_eq _ _)

theorem findByName_observed_eq_some_iff {rule : SecurityRule} :
    findByName (observed group) name = some rule ↔
      ∃ permission, firstNamed group name = some permission ∧
        permission.observed? = some rule := by
  rw [findByName_observed, Option.bind_eq_some_iff]

theorem findByName_observed_eq_none_iff :
    findByName (observed group) name = none ↔ firstNamed group name = none := by
  rw [findByName_observed]
  cases hfirst : firstNamed group name with
  | none => exact iff_of_true rfl rfl
  | some permission =>
    obtain ⟨rule, hrule⟩ := Permission.exists_observed? (mem_of_firstNamed hfirst).2
    rw [Option.bind_some, hrule]
    exact iff_of_false nofun nofun

/-! ### Required rules -/

variable {requester network : String} {required : RequiredRule}

/-- A required rule is vouched for when the group grants everything to the network. -/
theorem vouched_observed_iff (h : GroupReported group) :
    Vouched (observed group) requester network required ↔
      required.scope = .network ∧
        (.everything, required.source requester network) ∈ grants group := by
  refine and_congr_right fun _ => ?_
  rw [mem_grants_iff]
  constructor
  · rintro ⟨rule, hrule, hadmits⟩
    obtain ⟨permission, hmem, hobserved⟩ := List.mem_filterMap.1 hrule
    obtain ⟨hall, hallows⟩ := SecurityRule.admitsNetwork_iff.1 hadmits
    rw [Permission.allows_observed_iff (h.permissions _ hmem) hobserved (required.canonical_source ..)]
      at hallows
    obtain ⟨protocol, hprotocol, rfl⟩ := Permission.observed?_eq_some_iff.1 hobserved
    have hsame : protocol = .all := hall
    subst hsame
    exact ⟨permission, hmem,
      Permission.key_eq_everything_iff.2 hprotocol, hallows⟩
  · rintro ⟨permission, hmem, hkey, hblock⟩
    have hprotocol : permission.protocol? = some .all :=
      Permission.key_eq_everything_iff.1 hkey
    have hobserved : permission.observed? = some (permission.ruleAs .all) :=
      Permission.observed?_eq_some_iff.2 ⟨.all, hprotocol, rfl⟩
    refine ⟨permission.ruleAs .all, List.mem_filterMap.2 ⟨permission, hmem, hobserved⟩, ?_⟩
    refine SecurityRule.admitsNetwork_iff.2 ⟨rfl, ?_⟩
    exact (Permission.allows_observed_iff (h.permissions _ hmem) hobserved
      (required.canonical_source ..)).2 hblock

/-- A permission is as a required rule of its name says when it has the key and admits the source. -/
theorem isSatisfiedBy_observed_iff (hmem : required ∈ ec2Rules) (h : permission.Reported)
    (hname : permission.name? = some required.name) {rule : SecurityRule}
    (hobserved : permission.observed? = some rule) :
    required.isSatisfiedBy rule (required.source requester network) = true ↔
      permission.key = requiredKey required ∧
        required.source requester network ∈ permission.blocks := by
  rw [Permission.name?_eq_name hobserved] at hname
  rw [RequiredRule.isSatisfiedBy_iff,
    Permission.allows_observed_iff h hobserved (required.canonical_source ..), ← and_assoc, ← and_assoc,
    and_congr_left_iff]
  obtain ⟨protocol, hprotocol, rfl⟩ := Permission.observed?_eq_some_iff.1 hobserved
  intro _
  rw [and_iff_right hname]
  show protocol = required.protocol ∧ samePorts (permission.ports protocol) required.ports = true
    ↔ _
  rcases cases_of_mem_ec2Rules hmem with
    ⟨port, -, -, htcp, hports, hkey⟩ | ⟨-, hall, hports, hkey⟩
  · rw [htcp, hports, hkey]
    cases protocol with
    | tcp =>
      rw [and_iff_right rfl]
      exact Permission.samePorts_tcp_iff h hprotocol
    | all =>
      rw [Permission.key_eq_everything_iff.2 hprotocol]
      refine iff_of_false (fun hboth => by cases hboth.1) fun heq => ?_
      have hword : some "-1" = some "tcp" := congrArg PermissionKey.protocol heq
      exact absurd hword (by decide)
  · rw [hall, hports, hkey, Permission.key_eq_everything_iff,
      hprotocol, Option.some.injEq, and_iff_left_of_imp]
    rintro rfl
    exact samePorts_refl allPorts

/-- A required rule is met when the permission of its name has its key and admits its source. -/
theorem met_observed_iff (h : GroupReported group) (hmem : required ∈ ec2Rules) :
    Met (observed group) requester network required ↔
      ∃ permission, firstNamed group required.name = some permission ∧
        permission.key = requiredKey required ∧
        required.source requester network ∈ permission.blocks := by
  constructor
  · rintro ⟨rule, hfind, hsatisfied⟩
    obtain ⟨permission, hfirst, hobserved⟩ := findByName_observed_eq_some_iff.1 hfind
    obtain ⟨hgroup, hname⟩ := mem_of_firstNamed hfirst
    exact ⟨permission, hfirst,
      (isSatisfiedBy_observed_iff hmem (h.permissions _ hgroup) hname hobserved).1 hsatisfied⟩
  · rintro ⟨permission, hfirst, hgranted⟩
    obtain ⟨hgroup, hname⟩ := mem_of_firstNamed hfirst
    obtain ⟨rule, hobserved⟩ := Permission.exists_observed? hname
    refine ⟨rule, findByName_observed_eq_some_iff.2 ⟨permission, hfirst, hobserved⟩, ?_⟩
    exact (isSatisfiedBy_observed_iff hmem (h.permissions _ hgroup) hname hobserved).2 hgranted

/-! ### What a change is compared with -/

theorem counterpart_cons {current rule : SecurityRule} {rest : List SecurityRule}
    {held : PermissionKey} (hheld : PermissionKey.of? current.protocol current.ports = some held)
    (hkey : PermissionKey.of? rule.protocol rule.ports = some key) :
    counterpart rule (current :: rest)
      = if held = key then .ok (some current) else counterpart rule rest := by
  rw [counterpart]
  by_cases hprotocol : current.protocol = rule.protocol
  · rw [if_neg (not_not_intro hprotocol)]
    rw [hprotocol] at hheld
    cases hrule : rule.protocol with
    | all =>
      rw [hrule] at hheld hkey
      cases hheld
      cases hkey
      rw [if_pos rfl, if_pos rfl]
    | tcp =>
      rw [hrule, PermissionKey.of?_tcp_eq_some_iff] at hheld hkey
      obtain ⟨low, high, hcurrent, rfl⟩ := hheld
      obtain ⟨low', high', hwanted, rfl⟩ := hkey
      rw [if_neg (by decide), SecurityRule.bounds, SecurityRule.bounds, hcurrent, hwanted]
      show (if some (low, high) = some (low', high') then _ else _) = _
      refine if_congr ?_ rfl rfl
      rw [Option.some.injEq, Prod.mk.injEq]
      constructor
      · rintro ⟨rfl, rfl⟩
        rfl
      · intro h
        cases h
        exact ⟨rfl, rfl⟩
  · rw [if_pos hprotocol, if_neg]
    rintro rfl
    -- One key has one protocol.
    have hword := (PermissionKey.protocol_of_of? hheld).symm.trans
      (PermissionKey.protocol_of_of? hkey)
    revert hprotocol hword
    cases current.protocol <;> cases rule.protocol <;> decide

/-- **A change is compared with the permission of its key**, whatever the names. -/
theorem counterpart_observed (h : ∀ permission ∈ group, permission.Reported) {rule : SecurityRule}
    (hkey : PermissionKey.of? rule.protocol rule.ports = some key) :
    counterpart rule (observed group) = .ok ((ofKey group key).bind Permission.observed?) := by
  induction group with
  | nil => rfl
  | cons permission group ih =>
    obtain ⟨hreported, hrest⟩ := List.forall_mem_cons.1 h
    rw [ofKey, List.find?_cons, observed, List.filterMap_cons]
    cases hobserved : permission.observed? with
    | none =>
      have hne : permission.key ≠ key := by
        rintro rfl
        obtain ⟨current, hcurrent⟩ := Permission.exists_observed?_of_key hkey
        rw [hobserved] at hcurrent
        cases hcurrent
      rw [decide_eq_false hne]
      exact ih hrest
    | some current =>
      dsimp only
      rw [counterpart_cons (Permission.of?_observed hreported hobserved) hkey]
      by_cases heq : permission.key = key
      · rw [if_pos heq, decide_eq_true heq]
        dsimp only
        rw [Option.bind_some, hobserved]
      · rw [if_neg heq, decide_eq_false heq]
        exact ih hrest

end Group

end Ec2

end NodeLedger.Cloud
