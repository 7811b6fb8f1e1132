import Mathlib.Data.List.Forall2
import NodeLedger.Proofs.Address.Spelling
import NodeLedger.Proofs.Policy.Runs

/-!
# Rules under other spellings

A group may hold a source under any spelling, and operators give their addresses as they like. Rules
compare canonical texts only, so neither makes a difference: the same changes come out, and what they
add is canonical text that no source of the rule spells already.

- `canonical_tells_blocks_apart`: **canonical text is one text for all spellings of a block, and
  another one for another block**.
- `SecurityRule.Respelled`, `Visit.Respelled`: the same with other spellings of the addresses.
- `Grows`: how a list of sources grows without a second spelling. A change is such a step
  (`grows_of_changeFor`), so a pass is one at every position (`grows_pass`), and so is every run.
- `SameAddition`: changes that add the same source to respelled rules.
- `changes_of_respelled`: **changes do not depend on spellings, and no run adds a second one**.

Changes that go to one rule, as required rules of one name ask for, replace each other in the pass that
makes them. Growth is therefore told from pass to pass, and not from change to change.
-/

namespace NodeLedger.Policy

open Address Text

/-! ## Canonical text -/

/-- **Canonical text is one text for all spellings of a block, and another one for another block.** It
is its own canonical text; IPv4 blocks have the same one exactly if their lengths are the same and their
addresses agree on that many first bits, and the length may be given by a netmask or a hostmask; and a
rule that has a block under one spelling admits every spelling of it. -/
theorem canonical_tells_blocks_apart :
    (∀ source, canonical (canonical source) = canonical source) ∧
      (∀ a b p q : Nat, a < 2 ^ 32 → b < 2 ^ 32 → p ≤ 32 → q ≤ 32 →
        (canonical (v4Text a (decimal p)) = canonical (v4Text b (decimal q)) ↔
          p = q ∧ AgreeOn 32 p a b)) ∧
      (∀ a p : Nat, a < 2 ^ 32 → p ≤ 32 →
        canonical (v4Text a (showV4 (netmask 32 p))) = canonical (v4Text a (decimal p))) ∧
      (∀ a p : Nat, a < 2 ^ 32 → 0 < p → p < 32 →
        canonical (v4Text a (showV4 (hostmask 32 p))) = canonical (v4Text a (decimal p))) ∧
      ∀ (rule : SecurityRule) (source other : String) (block : Block), source ∈ rule.sources →
        block? source = some block → block? other = some block → rule.allows other = true := by
  refine ⟨canonical_canonical, ?_, ?_, ?_, ?_⟩
  · intro a b p q ha hb hp hq
    exact canonical_v4Text_eq_iff ha hb (v4Length?_decimal hp) (v4Length?_decimal hq)
  · intro a p ha hp
    have hmask := v4Length?_mask (netmask_lt 32 p) (maskLength?_netmask hp)
    exact (canonical_v4Text_eq_iff ha ha hmask (v4Length?_decimal hp)).2 ⟨rfl, fun _ _ => rfl⟩
  · intro a p ha hpos hlt
    have hmask := v4Length?_mask (hostmask_lt 32 p) (maskLength?_hostmask hpos hlt)
    exact (canonical_v4Text_eq_iff ha ha hmask (v4Length?_decimal hlt.le)).2
      ⟨rfl, fun _ _ => rfl⟩
  · intro rule source other block hmem hsource hother
    refine SecurityRule.allows_iff.2 ⟨source, hmem, ?_⟩
    rw [canonical_of_block? hsource, canonical_of_block? hother]

/-- 10.1.2.3 and 10.1.9.9 are in one block of 16 bits, in two blocks of 24, and under a mask as well. -/
theorem one_block_of_sixteen_bits :
    let a := ofOctets 10 1 2 3
    let b := ofOctets 10 1 9 9
    let rule : SecurityRule := ⟨some "peers", .all, ["10.1.9.9/255.255.0.0"], "*", none⟩
    (a < 2 ^ 32 ∧ b < 2 ^ 32 ∧ AgreeOn 32 16 a b ∧ ¬ AgreeOn 32 24 a b) ∧
      canonical (v4Text a (decimal 16)) = canonical (v4Text b (decimal 16)) ∧
      canonical (v4Text a (decimal 24)) ≠ canonical (v4Text b (decimal 24)) ∧
      canonical (v4Text a (showV4 (netmask 32 16))) = canonical (v4Text a (decimal 16)) ∧
      canonical (v4Text a (showV4 (hostmask 32 16))) = canonical (v4Text a (decimal 16)) ∧
      block? "10.1.9.9/255.255.0.0" = some (.v4 (ofOctets 10 1 0 0) 16) ∧
      block? " 10.1.2.3/0.0.255.255\n" = some (.v4 (ofOctets 10 1 0 0) 16) ∧
      rule.allows " 10.1.2.3/0.0.255.255\n" = true := by
  intro a b rule
  have ha : a < 2 ^ 32 := by decide
  have hb : b < 2 ^ 32 := by decide
  have hshort : AgreeOn 32 16 a b := by decide
  have hlong : ¬ AgreeOn 32 24 a b := by decide
  have hmasked : block? "10.1.9.9/255.255.0.0" = some (.v4 (ofOctets 10 1 0 0) 16) := by
    decide +kernel
  have hspaced : block? " 10.1.2.3/0.0.255.255\n" = some (.v4 (ofOctets 10 1 0 0) 16) := by
    decide +kernel
  obtain ⟨-, hlengths, hnetmask, hhostmask, hallows⟩ := canonical_tells_blocks_apart
  refine ⟨⟨ha, hb, hshort, hlong⟩, ?_, ?_, ?_, ?_, hmasked, hspaced, ?_⟩
  · exact (hlengths a b 16 16 ha hb (by decide) (by decide)).2 ⟨rfl, hshort⟩
  · exact fun h => hlong ((hlengths a b 24 24 ha hb (by decide) (by decide)).1 h).2
  · exact hnetmask a 16 ha (by decide)
  · exact hhostmask a 16 ha (by decide) (by decide)
  · exact hallows rule _ _ _ (List.mem_singleton_self _) hmasked hspaced

/-! ## The same rules and visits, spelled otherwise -/

/-- The rule with other spellings of its sources. -/
structure SecurityRule.Respelled (rule other : SecurityRule) : Prop where
  name : other.name = rule.name
  protocol : other.protocol = rule.protocol
  ports : other.ports = rule.ports
  priority : other.priority = rule.priority
  sources : other.sources.map canonical = rule.sources.map canonical

/-- The visit with other spellings of its addresses. -/
structure Visit.Respelled (visit again : Visit) : Prop where
  requester : canonical again.requester = canonical visit.requester
  network : canonical again.network = canonical visit.network

section

variable {rule other : SecurityRule} {current rules : List SecurityRule} {visit again : Visit}

theorem SecurityRule.Respelled.refl (rule : SecurityRule) : rule.Respelled rule :=
  ⟨rfl, rfl, rfl, rfl, rfl⟩

theorem SecurityRule.Respelled.allows (h : rule.Respelled other) (source : String) :
    other.allows source = rule.allows source := by
  rw [Bool.eq_iff_iff, SecurityRule.allows_iff_mem, SecurityRule.allows_iff_mem, h.sources]

theorem SecurityRule.Respelled.admitsNetwork (h : rule.Respelled other) (network : String) :
    other.admitsNetwork network = rule.admitsNetwork network := by
  rw [SecurityRule.admitsNetwork, SecurityRule.admitsNetwork, h.protocol, h.allows]

theorem SecurityRule.Respelled.isSatisfiedBy (h : rule.Respelled other) (required : RequiredRule)
    (source : String) :
    required.isSatisfiedBy other source = required.isSatisfiedBy rule source := by
  rw [RequiredRule.isSatisfiedBy, RequiredRule.isSatisfiedBy, h.name, h.protocol, h.ports, h.allows]

/-- A required rule asks for the same text under every spelling. -/
theorem Visit.Respelled.source (h : visit.Respelled again) (required : RequiredRule) :
    required.source again.requester again.network
      = required.source visit.requester visit.network := by
  rw [RequiredRule.source, RequiredRule.source, h.requester, h.network]

/-- The rules that come first under a name are respelled. -/
theorem findByName_of_respelled (h : List.Forall₂ SecurityRule.Respelled current rules)
    (name : String) :
    Option.Rel SecurityRule.Respelled (findByName current name) (findByName rules name) := by
  induction h with
  | nil => exact .none
  | @cons rule other current rules hrule _ ih =>
    by_cases hname : rule.name = some name
    · have hfirst : findByName (rule :: current) name = some rule :=
        List.find?_cons_of_pos (beq_iff_eq.2 hname)
      have hother : findByName (other :: rules) name = some other :=
        List.find?_cons_of_pos (beq_iff_eq.2 (hrule.name.trans hname))
      rw [hfirst, hother]
      exact .some hrule
    · have hfirst : findByName (rule :: current) name = findByName current name :=
        List.find?_cons_of_neg (by simpa using hname)
      have hother : findByName (other :: rules) name = findByName rules name :=
        List.find?_cons_of_neg (by simpa [hrule.name] using hname)
      rw [hfirst, hother]
      exact ih

theorem any_admitsNetwork_of_respelled (h : List.Forall₂ SecurityRule.Respelled current rules)
    (network : String) :
    rules.any (·.admitsNetwork network) = current.any (·.admitsNetwork network) := by
  induction h with
  | nil => rfl
  | cons hrule _ ih => rw [List.any_cons, List.any_cons, hrule.admitsNetwork, ih]

end

/-! ## Growth without a second spelling -/

/-- Sources are kept in their order, and what is added comes after them: canonical texts, each one
once, that none of the sources had before. -/
def Grows (before after : List String) : Prop :=
  ∃ added, after = before ++ added ∧ added.Nodup ∧
    ∀ source ∈ added, canonical source = source ∧ source ∉ before.map canonical

/-- The sources of the rule at a position. -/
def sourcesAt (rules : List SecurityRule) (i : Nat) : List String :=
  rules[i]?.elim [] (·.sources)

/-- The sources of the rule that a change goes to. -/
def heldSources (rules : List SecurityRule) (change : SecurityRule) : List String :=
  (firstAt rules change.name).elim [] (sourcesAt rules)

section

variable {before mid after : List String}

theorem Grows.refl (sources : List String) : Grows sources sources :=
  ⟨[], (List.append_nil _).symm, List.nodup_nil, fun _ h => absurd h List.not_mem_nil⟩

theorem Grows.trans (h : Grows before mid) (h' : Grows mid after) : Grows before after := by
  obtain ⟨added, rfl, hnodup, hnew⟩ := h
  obtain ⟨more, rfl, hnodup', hnew'⟩ := h'
  refine ⟨added ++ more, List.append_assoc .., ?_, ?_⟩
  · refine List.nodup_append.2 ⟨hnodup, hnodup', ?_⟩
    rintro source hsource later hlater rfl
    -- What came first is its own canonical text, so it is spelled by the sources in between.
    refine (hnew' source hlater).2 (List.mem_map.2 ⟨source, ?_, (hnew source hsource).1⟩)
    exact List.mem_append_right _ hsource
  · intro source hsource
    rcases List.mem_append.1 hsource with hfirst | hlater
    · exact hnew source hfirst
    · refine ⟨(hnew' source hlater).1, fun hmem => (hnew' source hlater).2 ?_⟩
      rw [List.map_append]
      exact List.mem_append_left _ hmem

end

section

variable {rules : List SecurityRule} {rule change : SecurityRule} {required : RequiredRule}
  {visit : Visit} {i : Nat}

theorem heldSources_of_findByName {name : String} (hname : change.name = some name) :
    heldSources rules change = (findByName rules name).elim [] (·.sources) := by
  rw [heldSources, hname, findByName_eq_firstAt]
  cases firstAt rules (some name) with
  | none => rfl
  | some i => rfl

theorem heldSources_of_goesTo (h : GoesTo rules change.name i) :
    heldSources rules change = sourcesAt rules i := by
  rcases h with hfirst | ⟨hnone, hlength⟩
  · rw [heldSources, hfirst]
    rfl
  · rw [heldSources, hnone, sourcesAt, List.getElem?_eq_none hlength]
    rfl

theorem heldSources_updatedRule (h : findByName rules required.name = some rule) (source : String) :
    heldSources rules (required.updatedRule rule source) = rule.sources := by
  have hrule : rule.name = some required.name := name_of_findByName h
  have hname : (required.updatedRule rule source).name = some required.name := hrule
  rw [heldSources_of_findByName hname, h]
  rfl

/-- What a canonical source adds to a rule, it adds to every spelling of the rule. -/
theorem SecurityRule.exists_added (rule : SecurityRule) {source : String}
    (hsource : canonical source = source) :
    ∃ added : List String, added.Nodup ∧
      (∀ s ∈ added, canonical s = s ∧ s ∉ rule.sources.map canonical) ∧
      ∀ other, rule.Respelled other → (other.withSource source).sources = other.sources ++ added := by
  by_cases hallows : rule.allows source = true
  · refine ⟨[], List.nodup_nil, fun _ hs => absurd hs List.not_mem_nil, fun other h => ?_⟩
    rw [SecurityRule.withSource, h.allows, if_pos hallows, List.append_nil]
  · refine ⟨[source], List.nodup_singleton _, fun s hs => ?_, fun other h => ?_⟩
    · obtain rfl := List.mem_singleton.1 hs
      rw [SecurityRule.allows_iff_mem, hsource] at hallows
      exact ⟨hsource, hallows⟩
    · rw [SecurityRule.withSource, h.allows, if_neg hallows]

/-- A rule that takes up a canonical source grows. -/
theorem SecurityRule.grows_withSource (rule : SecurityRule) {source : String}
    (hsource : canonical source = source) : Grows rule.sources (rule.withSource source).sources := by
  obtain ⟨added, hnodup, hnew, hadded⟩ := rule.exists_added hsource
  exact ⟨added, hadded rule (.refl rule), hnodup, hnew⟩

/-- **A change grows the sources of the rule that it goes to.** -/
theorem grows_of_changeFor
    (h : changeFor rules visit.requester visit.network required = some change) :
    Grows (heldSources rules change) change.sources := by
  rw [heldSources_of_findByName (name_of_changeFor h)]
  have hsource := required.canonical_source visit.requester visit.network
  obtain ⟨-, -, ⟨hnone, rfl⟩ | ⟨rule, hfind, rfl⟩⟩ := changeFor_eq_some_iff.1 h
  · rw [hnone]
    refine ⟨[required.source visit.requester visit.network], rfl, List.nodup_singleton _, ?_⟩
    intro source hmem
    obtain rfl := List.mem_singleton.1 hmem
    exact ⟨hsource, List.not_mem_nil⟩
  · rw [hfind]
    exact rule.grows_withSource hsource

/-- **A pass grows the sources at every position**, whatever the policy. -/
theorem grows_pass (policy : List RequiredRule) (rules : List SecurityRule) (visit : Visit) (i : Nat) :
    Grows (sourcesAt rules i) (sourcesAt (pass policy rules visit) i) := by
  cases hafter : (pass policy rules visit)[i]? with
  | none =>
    have hlength := length_le_applyByName rules (visit.changes policy rules)
    have hpast := List.getElem?_eq_none_iff.1 hafter
    have hbefore : rules[i]? = none := List.getElem?_eq_none (Nat.le_trans hlength hpast)
    rw [sourcesAt, sourcesAt, hbefore, hafter]
    exact .refl _
  | some rule =>
    have hsources : sourcesAt (pass policy rules visit) i = rule.sources := by
      rw [sourcesAt, hafter]
      rfl
    rw [hsources]
    rcases cases_of_getElem?_applyByName hafter with hbefore | ⟨hmade, hplace⟩
    · rw [sourcesAt, hbefore]
      exact .refl _
    · obtain ⟨required, -, hasked⟩ := mem_reconcile_iff.1 hmade
      rw [← heldSources_of_goesTo hplace]
      exact grows_of_changeFor hasked

theorem grows_passes (policy : List RequiredRule) (rules : List SecurityRule) (visits : List Visit)
    (i : Nat) : Grows (sourcesAt rules i) (sourcesAt (passes policy rules visits) i) := by
  induction visits generalizing rules with
  | nil => exact .refl _
  | cons visit visits ih => exact (grows_pass policy rules visit i).trans (ih _)

end

/-! ## Changes of respelled rules -/

/-- Two changes are the same up to the spelling of the sources that their rules had. They add the same
sources: canonical texts, each of a source that was not there under any spelling. -/
structure SameAddition (current rules : List SecurityRule) (change other : SecurityRule) : Prop where
  respelled : change.Respelled other
  added : ∃ added, change.sources = heldSources current change ++ added ∧
    other.sources = heldSources rules other ++ added ∧
    ∀ source ∈ added, canonical source = source ∧
      source ∉ (heldSources current change).map canonical ∧
      source ∉ (heldSources rules other).map canonical

section

variable {current rules : List SecurityRule} {visit again : Visit} {rule other : SecurityRule}
  {required : RequiredRule} {source : String}

/-- Where neither list has a rule of the name, the same new rule is asked for. -/
theorem sameAddition_newRule (hsource : canonical source = source)
    (hfind : findByName current required.name = none)
    (hother : findByName rules required.name = none) :
    SameAddition current rules (required.newRule source) (required.newRule source) := by
  have hheld : heldSources current (required.newRule source) = [] := by
    rw [heldSources_of_findByName rfl, hfind]
    rfl
  have hheld' : heldSources rules (required.newRule source) = [] := by
    rw [heldSources_of_findByName rfl, hother]
    rfl
  refine ⟨.refl _, [source], ?_, ?_, ?_⟩
  · rw [hheld]
    rfl
  · rw [hheld']
    rfl
  · intro added hadded
    obtain rfl := List.mem_singleton.1 hadded
    rw [hheld, hheld']
    exact ⟨hsource, List.not_mem_nil, List.not_mem_nil⟩

/-- Two spellings of a rule are updated alike. -/
theorem sameAddition_updatedRule (hsource : canonical source = source)
    (hfind : findByName current required.name = some rule)
    (hother : findByName rules required.name = some other) (h : rule.Respelled other) :
    SameAddition current rules (required.updatedRule rule source)
      (required.updatedRule other source) := by
  have hheld : heldSources current (required.updatedRule rule source) = rule.sources :=
    heldSources_updatedRule hfind source
  have hheld' : heldSources rules (required.updatedRule other source) = other.sources :=
    heldSources_updatedRule hother source
  obtain ⟨added, -, hnew, hspelled⟩ := rule.exists_added hsource
  have hadded := hspelled rule (.refl rule)
  have hadded' := hspelled other h
  refine ⟨⟨h.name, rfl, rfl, ?_, ?_⟩, added, ?_, ?_, fun s hs => ?_⟩
  · rw [RequiredRule.updatedRule, RequiredRule.updatedRule, h.priority]
  · rw [RequiredRule.updatedRule, RequiredRule.updatedRule, hadded, hadded', List.map_append,
      List.map_append, h.sources]
  · rw [hheld]
    exact hadded
  · rw [hheld']
    exact hadded'
  · rw [hheld, hheld', h.sources]
    exact ⟨(hnew s hs).1, (hnew s hs).2, (hnew s hs).2⟩

/-- **A required rule asks for the same change under every spelling.** -/
theorem changeFor_of_respelled (hrules : List.Forall₂ SecurityRule.Respelled current rules)
    (hvisit : visit.Respelled again) (required : RequiredRule) :
    Option.Rel (SameAddition current rules)
      (changeFor current visit.requester visit.network required)
      (changeFor rules again.requester again.network required) := by
  have hsame := hvisit.source required
  have hvouched : Vouched rules again.requester again.network required ↔
      Vouched current visit.requester visit.network required := by
    rw [vouched_iff_any, vouched_iff_any, hsame, any_admitsNetwork_of_respelled hrules]
  by_cases h : Vouched current visit.requester visit.network required
  · rw [changeFor_of_vouched h, changeFor_of_vouched (hvouched.2 h)]
    exact .none
  · rw [changeFor_of_not_vouched h, changeFor_of_not_vouched (mt hvouched.1 h), hsame]
    have hsource := required.canonical_source visit.requester visit.network
    have hfound := findByName_of_respelled hrules required.name
    generalize hfind : findByName current required.name = first at hfound
    generalize hother : findByName rules required.name = second at hfound
    cases hfound with
    | none => exact .some (sameAddition_newRule hsource hfind hother)
    | some hrule =>
      simp only [hrule.isSatisfiedBy]
      split
      · exact .none
      · exact .some (sameAddition_updatedRule hsource hfind hother hrule)

/-- A visit makes the same changes under every spelling. -/
theorem Visit.Respelled.changes (h : visit.Respelled again) (policy : List RequiredRule)
    (rules : List SecurityRule) : again.changes policy rules = visit.changes policy rules := by
  refine List.filterMap_congr fun required _ => ?_
  simp only [changeFor, h.source]

/-- **Changes do not depend on spellings, and no run adds a second one.** Respelled rules and addresses
lead to the same changes, one by one, up to the sources that the rules had; what is added to these is the
same canonical text. To one group any spelling of the addresses makes literally the same changes, and
over any run of visits the sources of every rule grow without a second spelling. -/
theorem changes_of_respelled (policy : List RequiredRule) (current rules : List SecurityRule)
    (visit again : Visit) (hrules : List.Forall₂ SecurityRule.Respelled current rules)
    (hvisit : visit.Respelled again) :
    List.Forall₂ (SameAddition current rules) (visit.changes policy current)
        (again.changes policy rules) ∧
      (∀ group, again.changes policy group = visit.changes policy group) ∧
      ∀ (visits : List Visit) (i : Nat),
        Grows (sourcesAt current i) (sourcesAt (passes policy current visits) i) := by
  refine ⟨?_, hvisit.changes policy, grows_passes policy current⟩
  have hpolicy : List.Forall₂ Eq policy policy := List.forall₂_eq_eq_eq ▸ rfl
  refine List.rel_filterMap (fun required other hsame => ?_) hpolicy
  subst hsame
  exact changeFor_of_respelled hrules hvisit required

end

/-- A rule for WinRM that has to be corrected, the operator's address with and without its length, and
the network under another address of it and a mask. -/
theorem changes_of_respelled_group :
    let current : List SecurityRule := [⟨some "WinRM", .all, ["192.0.2.1"], "5985", none⟩]
    let rules : List SecurityRule := [⟨some "WinRM", .all, [" 192.0.2.1/32"], "5985", none⟩]
    let visit : Visit := ⟨"203.0.113.7", "10.0.5.5/16"⟩
    let again : Visit := ⟨"203.0.113.7/32", "10.0.0.0/255.255.0.0"⟩
    (List.Forall₂ SecurityRule.Respelled current rules ∧ visit.Respelled again) ∧
      List.Forall₂ (SameAddition current rules) (visit.changes ec2Rules current)
        (again.changes ec2Rules rules) ∧
      again.changes ec2Rules (pass ec2Rules current visit)
        = visit.changes ec2Rules (pass ec2Rules current visit) ∧
      Grows (sourcesAt current 0) (sourcesAt (passes ec2Rules current [visit, again]) 0) := by
  intro current rules visit again
  have hrules : List.Forall₂ SecurityRule.Respelled current rules :=
    .cons ⟨rfl, rfl, rfl, rfl, by decide +kernel⟩ .nil
  have hvisit : visit.Respelled again := ⟨by decide +kernel, by decide +kernel⟩
  obtain ⟨hsame, hagain, hgrows⟩ := changes_of_respelled ec2Rules current rules visit again hrules hvisit
  exact ⟨⟨hrules, hvisit⟩, hsame, hagain _, hgrows [visit, again] 0⟩

end NodeLedger.Policy
