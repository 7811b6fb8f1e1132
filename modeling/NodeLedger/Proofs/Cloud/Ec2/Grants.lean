import Mathlib.Data.List.Nodup
import NodeLedger.Cloud.Ec2.Permission

/-!
# What a group on EC2 grants

EC2 keeps a group as a list of permissions, one for each protocol with its ports. An authorization
only ever adds ranges: they go to the permission of the same protocol and ports, or a new permission
comes last.

- `PermissionKey`, `Permission.key`: what EC2 tells permissions apart by.
- `Permission.blocks`, `Ec2.grants`: the sources of a permission, and everything that a group grants:
  each source together with the key that it is admitted on.
- `Permission.Reported`, `Ec2.GroupReported`: groups as EC2 reports them.
- `Ec2.authorized`: a group after an authorization.
- `getElem?_authorizeOne`: what one authorization does, position by position.
- `mem_grants_authorized_iff`: **an authorization grants what it names and takes nothing away**.
- `groupReported_authorized`: a group that is asked for new grants only stays as EC2 reports groups.
-/

namespace NodeLedger.Cloud

/-! ## Permissions -/

namespace Field

variable {α : Type}

/-- The entries of a list that may be absent. -/
def entries (field : Field (List α)) : List α :=
  field.toOption.getD []

/-- A list with more entries at its end. -/
def append (field more : Field (List α)) : Field (List α) :=
  match more with
  | value items => value (field.entries ++ items)
  | _ => field

theorem entries_append (field more : Field (List α)) :
    (field.append more).entries = field.entries ++ more.entries := by
  cases more with
  | value items => rfl
  | missing => exact (List.append_nil _).symm
  | null => exact (List.append_nil _).symm

/-- A number that a port can have. -/
def IsPort : Field Int → Prop
  | value n => 0 ≤ n ∧ n ≤ 65535
  | _ => False

instance : (field : Field Int) → Decidable field.IsPort
  | value n => inferInstanceAs (Decidable (0 ≤ n ∧ n ≤ 65535))
  | missing => inferInstanceAs (Decidable False)
  | null => inferInstanceAs (Decidable False)

end Field

/-- What EC2 tells permissions apart by: the protocol and the ports. -/
structure PermissionKey where
  protocol : Option String
  low : Option Int
  high : Option Int
  deriving Repr, DecidableEq

namespace PermissionKey

/-- All traffic, which has no ports. -/
def everything : PermissionKey := ⟨some "-1", none, none⟩

/-- TCP traffic to a range of ports. -/
def tcp (low high : Int) : PermissionKey := ⟨some "tcp", some low, some high⟩

end PermissionKey

namespace Permission

/-- The key of a permission. TCP has one key under its word and its number, and all traffic has one
key, because ports mean nothing to it. -/
def key (permission : Permission) : PermissionKey :=
  match permission.protocol? with
  | some .all => .everything
  | some .tcp => ⟨some "tcp", permission.low.toOption, permission.high.toOption⟩
  | none => ⟨permission.protocol.toOption, permission.low.toOption, permission.high.toOption⟩

/-- The sources of a permission: its IPv4 blocks, then its IPv6 blocks. -/
def blocks (permission : Permission) : List String :=
  permission.ranges.entries.filterMap (·.block.text?)
    ++ permission.wideRanges.entries.filterMap (·.block.text?)

theorem ne_empty_of_mem_blocks {permission : Permission} {block : String}
    (h : block ∈ permission.blocks) : block ≠ "" := by
  have htext : ∀ ranges : List AddressRange,
      block ∈ ranges.filterMap (·.block.text?) → block ≠ "" := by
    intro ranges hmem
    obtain ⟨range, -, hrange⟩ := List.mem_filterMap.1 hmem
    exact bne_iff_ne.1 (Option.filter_eq_some_iff.1 hrange).2
  rcases List.mem_append.1 h with hranges | hwide
  · exact htext _ hranges
  · exact htext _ hwide

/-- A permission as EC2 reports it: the lists are not null, TCP has two ports, and every source is a
canonical block that comes once. -/
structure Reported (permission : Permission) : Prop where
  listed : permission.ranges ≠ .null ∧ permission.wideRanges ≠ .null
  ports : permission.protocol? = some .tcp → permission.low.IsPort ∧ permission.high.IsPort
  canonical : ∀ block ∈ permission.blocks, Address.canonical block = block
  once : permission.blocks.Nodup

theorem reported_iff {permission : Permission} :
    permission.Reported ↔
      (permission.ranges ≠ .null ∧ permission.wideRanges ≠ .null) ∧
        (permission.protocol? = some .tcp → permission.low.IsPort ∧ permission.high.IsPort) ∧
        (∀ block ∈ permission.blocks, Address.canonical block = block) ∧
        permission.blocks.Nodup := by
  constructor
  · rintro ⟨listed, ports, canonical, once⟩
    exact ⟨listed, ports, canonical, once⟩
  · rintro ⟨listed, ports, canonical, once⟩
    exact ⟨listed, ports, canonical, once⟩

instance (permission : Permission) : Decidable permission.Reported :=
  decidable_of_iff _ reported_iff.symm

/-- A permission with the ranges of another one at the end of its own. -/
def extended (permission more : Permission) : Permission :=
  { permission with
    ranges := permission.ranges.append more.ranges
    wideRanges := permission.wideRanges.append more.wideRanges }

section Extended

variable {permission more : Permission}

@[simp] theorem key_extended (permission more : Permission) :
    (permission.extended more).key = permission.key := rfl

/-- An extended permission has the sources of both. -/
theorem blocks_extended (permission more : Permission) :
    (permission.extended more).blocks.Perm (permission.blocks ++ more.blocks) := by
  show (((permission.ranges.append more.ranges).entries.filterMap _)
    ++ ((permission.wideRanges.append more.wideRanges).entries.filterMap _)).Perm _
  rw [Field.entries_append, Field.entries_append, List.filterMap_append, List.filterMap_append,
    blocks, blocks]
  simp only [List.append_assoc]
  refine List.Perm.append_left _ ?_
  -- The IPv4 blocks that are added stand before the IPv6 blocks that were there.
  rw [← List.append_assoc, ← List.append_assoc]
  exact List.Perm.append_right _ List.perm_append_comm

theorem mem_blocks_extended_iff {block : String} :
    block ∈ (permission.extended more).blocks ↔ block ∈ permission.blocks ∨ block ∈ more.blocks := by
  rw [(blocks_extended permission more).mem_iff, List.mem_append]

theorem append_ne_null {field other : Field (List AddressRange)} (h : field ≠ .null) :
    field.append other ≠ .null := by
  cases other with
  | value items => nofun
  | missing => exact h
  | null => exact h

theorem Reported.extended (h : permission.Reported) (hmore : more.Reported)
    (hnew : ∀ block ∈ more.blocks, block ∉ permission.blocks) :
    (permission.extended more).Reported where
  listed := ⟨append_ne_null h.listed.1, append_ne_null h.listed.2⟩
  ports := h.ports
  canonical block hblock := by
    rcases mem_blocks_extended_iff.1 hblock with hold | hadded
    · exact h.canonical block hold
    · exact hmore.canonical block hadded
  once := by
    rw [(blocks_extended permission more).nodup_iff, List.nodup_append']
    exact ⟨h.once, hmore.once, fun block hold hadded => hnew block hadded hold⟩

end Extended

end Permission

/-! ## Groups -/

namespace Ec2

/-- Everything that a list of permissions grants: each source with the key that it is admitted on. -/
def grants (group : List Permission) : List (PermissionKey × String) :=
  group.flatMap fun permission => permission.blocks.map (permission.key, ·)

/-- A group as EC2 reports it: no two permissions have one protocol and one range of ports, and at most
one is for all traffic. -/
structure GroupReported (group : List Permission) : Prop where
  keys : (group.map Permission.key).Nodup
  permissions : ∀ permission ∈ group, permission.Reported

theorem groupReported_iff {group : List Permission} :
    GroupReported group ↔
      (group.map Permission.key).Nodup ∧ ∀ permission ∈ group, permission.Reported := by
  constructor
  · rintro ⟨keys, permissions⟩
    exact ⟨keys, permissions⟩
  · rintro ⟨keys, permissions⟩
    exact ⟨keys, permissions⟩

instance (group : List Permission) : Decidable (GroupReported group) :=
  decidable_of_iff _ groupReported_iff.symm

/-- A group after one permission was authorized. -/
def authorizeOne : List Permission → Permission → List Permission
  | [], sent => [sent]
  | permission :: group, sent =>
    if permission.key = sent.key then permission.extended sent :: group
    else permission :: authorizeOne group sent

/-- A group after an authorization. -/
def authorized (group sent : List Permission) : List Permission :=
  sent.foldl authorizeOne group

section Grants

variable {group sent : List Permission} {permission more : Permission} {key : PermissionKey}
  {block : String} {grant : PermissionKey × String}

theorem mem_grants_iff :
    (key, block) ∈ grants group ↔
      ∃ permission ∈ group, permission.key = key ∧ block ∈ permission.blocks := by
  rw [grants, List.mem_flatMap]
  refine exists_congr fun permission => and_congr_right fun _ => ?_
  rw [List.mem_map]
  constructor
  · rintro ⟨b, hb, heq⟩
    cases heq
    exact ⟨rfl, hb⟩
  · rintro ⟨rfl, hb⟩
    exact ⟨block, hb, rfl⟩

theorem grants_cons (permission : Permission) (group : List Permission) :
    grants (permission :: group)
      = permission.blocks.map (permission.key, ·) ++ grants group :=
  List.flatMap_cons ..

@[simp] theorem grants_nil : grants [] = [] := rfl

theorem mem_grants_cons_iff :
    (key, block) ∈ grants (permission :: group) ↔
      (permission.key = key ∧ block ∈ permission.blocks) ∨ (key, block) ∈ grants group := by
  rw [mem_grants_iff, mem_grants_iff, List.exists_mem_cons_iff]

/-- Among distinct keys, what is granted on the key of a permission are its own sources. -/
theorem mem_grants_key_iff (hkeys : (group.map Permission.key).Nodup) (h : permission ∈ group) :
    (permission.key, block) ∈ grants group ↔ block ∈ permission.blocks := by
  rw [mem_grants_iff]
  constructor
  · rintro ⟨other, hother, hkey, hblock⟩
    rwa [← List.inj_on_of_nodup_map hkeys hother h hkey]
  · intro hblock
    exact ⟨permission, h, rfl, hblock⟩

/-- Permissions of distinct keys grant nothing twice. -/
theorem nodup_grants (hkeys : (group.map Permission.key).Nodup)
    (honce : ∀ permission ∈ group, permission.blocks.Nodup) : (grants group).Nodup := by
  rw [grants, List.nodup_flatMap]
  constructor
  · intro permission hmem
    exact (honce permission hmem).map fun _ _ heq => congrArg Prod.snd heq
  · refine (List.pairwise_map.1 hkeys).imp fun hne grant hfirst hsecond => hne ?_
    obtain ⟨_, -, rfl⟩ := List.mem_map.1 hfirst
    obtain ⟨_, -, heq⟩ := List.mem_map.1 hsecond
    exact (congrArg Prod.fst heq).symm

/-! ## Authorizations -/

theorem mem_grants_authorizeOne_iff :
    (key, block) ∈ grants (authorizeOne group more) ↔
      (key, block) ∈ grants group ∨ (more.key = key ∧ block ∈ more.blocks) := by
  induction group with
  | nil =>
    rw [authorizeOne, mem_grants_cons_iff, or_comm]
  | cons first group ih =>
    rw [authorizeOne]
    split
    · rename_i hkey
      rw [mem_grants_cons_iff, mem_grants_cons_iff, Permission.key_extended,
        Permission.mem_blocks_extended_iff, hkey, and_or_left, or_right_comm]
    · rw [mem_grants_cons_iff, mem_grants_cons_iff, ih, or_assoc]

/-- **An authorization grants what it names and takes nothing away.** -/
theorem mem_grants_authorized_iff :
    grant ∈ grants (authorized group sent) ↔ grant ∈ grants group ∨ grant ∈ grants sent := by
  obtain ⟨key, block⟩ := grant
  induction sent generalizing group with
  | nil =>
    rw [grants_nil, authorized, List.foldl_nil]
    exact (or_iff_left List.not_mem_nil).symm
  | cons more sent ih =>
    have hfold : authorized group (more :: sent) = authorized (authorizeOne group more) sent := rfl
    rw [hfold, ih, mem_grants_authorizeOne_iff, mem_grants_cons_iff, or_assoc]

/-- **What one authorization does, position by position**: nothing, or it extends the permission of its
key, or it comes last. -/
theorem getElem?_authorizeOne (group : List Permission) (more : Permission) (i : Nat) :
    (authorizeOne group more)[i]? = group[i]? ∨
      (∃ permission, group[i]? = some permission ∧ permission.key = more.key ∧
        (authorizeOne group more)[i]? = some (permission.extended more)) ∨
      (group[i]? = none ∧ (authorizeOne group more)[i]? = some more) := by
  induction group generalizing i with
  | nil =>
    cases i with
    | zero => exact .inr (.inr ⟨rfl, rfl⟩)
    | succ i => exact .inl rfl
  | cons permission group ih =>
    rw [authorizeOne]
    by_cases hkey : permission.key = more.key
    · rw [if_pos hkey]
      cases i with
      | zero => exact .inr (.inl ⟨permission, rfl, hkey, rfl⟩)
      | succ i => exact .inl rfl
    · rw [if_neg hkey]
      cases i with
      | zero => exact .inl rfl
      | succ i => exact ih i

/-- A permission after an authorization was there, or is new, or has been extended. -/
theorem mem_authorizeOne {after : Permission} (h : after ∈ authorizeOne group more) :
    after ∈ group ∨ after = more ∨
      ∃ permission ∈ group, permission.key = more.key ∧ after = permission.extended more := by
  obtain ⟨i, hi⟩ := List.mem_iff_getElem?.1 h
  rcases getElem?_authorizeOne group more i with hsame | ⟨old, hold, hkey, hextended⟩ | ⟨-, hnew⟩
  · exact .inl (List.mem_of_getElem? (hsame ▸ hi))
  · rw [hi] at hextended
    exact .inr (.inr ⟨old, List.mem_of_getElem? hold, hkey, Option.some.inj hextended⟩)
  · rw [hi] at hnew
    exact .inr (.inl (Option.some.inj hnew))

/-- The keys stay as they are, or a new one comes last. -/
theorem keys_authorizeOne (group : List Permission) (more : Permission) :
    (authorizeOne group more).map Permission.key
      = if more.key ∈ group.map Permission.key then group.map Permission.key
        else group.map Permission.key ++ [more.key] := by
  induction group with
  | nil => rfl
  | cons first group ih =>
    rw [authorizeOne]
    by_cases hkey : first.key = more.key
    · rw [if_pos hkey, if_pos (by rw [List.map_cons, hkey]; exact List.mem_cons_self)]
      rfl
    · have hmem : more.key ∈ (first :: group).map Permission.key
          ↔ more.key ∈ group.map Permission.key := by
        rw [List.map_cons, List.mem_cons, or_iff_right (Ne.symm hkey)]
      rw [if_neg hkey, List.map_cons, ih]
      simp only [hmem]
      split
      · rfl
      · rfl

theorem groupReported_authorizeOne (h : GroupReported group) (hmore : more.Reported)
    (hnew : ∀ block ∈ more.blocks, (more.key, block) ∉ grants group) :
    GroupReported (authorizeOne group more) where
  keys := by
    rw [keys_authorizeOne]
    split
    · exact h.keys
    · rename_i hkey
      refine List.nodup_append'.2 ⟨h.keys, List.nodup_singleton _, fun key hold hlast => ?_⟩
      rw [List.mem_singleton] at hlast
      exact hkey (hlast ▸ hold)
  permissions after hafter := by
    rcases mem_authorizeOne hafter with hold | rfl | ⟨permission, hmem, hkey, rfl⟩
    · exact h.permissions after hold
    · exact hmore
    · refine (h.permissions permission hmem).extended hmore fun block hblock hold => ?_
      exact hnew block hblock (mem_grants_iff.2 ⟨permission, hmem, hkey, hold⟩)

/-- **A group that is asked for new grants only stays as EC2 reports groups.** -/
theorem groupReported_authorized (h : GroupReported group)
    (hsent : ∀ permission ∈ sent, permission.Reported) (honce : (grants sent).Nodup)
    (hnew : ∀ grant ∈ grants sent, grant ∉ grants group) :
    GroupReported (authorized group sent) := by
  induction sent generalizing group with
  | nil => exact h
  | cons more sent ih =>
    obtain ⟨hmore, hrest⟩ := List.forall_mem_cons.1 hsent
    rw [grants_cons, List.nodup_append'] at honce
    obtain ⟨-, honce, hdisjoint⟩ := honce
    have hfirst : ∀ block ∈ more.blocks, (more.key, block) ∈ grants (more :: sent) :=
      fun block hblock => mem_grants_cons_iff.2 (.inl ⟨rfl, hblock⟩)
    refine ih (groupReported_authorizeOne h hmore fun block hblock => ?_) hrest honce ?_
    · exact hnew _ (hfirst block hblock)
    · rintro ⟨key, block⟩ hgrant hheld
      rcases mem_grants_authorizeOne_iff.1 hheld with hold | ⟨rfl, hblock⟩
      · exact hnew _ (mem_grants_cons_iff.2 (.inr hgrant)) hold
      · exact hdisjoint (List.mem_map.2 ⟨block, hblock, rfl⟩) hgrant

end Grants

end Ec2

end NodeLedger.Cloud
