import NodeLedger.Proofs.Cloud.Ec2.Authorization

/-!
# From a rule to a permission and back

A rule is opened to addresses as a permission, and the permission is seen as a rule again. What comes
back is the rule with the addresses for its sources: in two lists of ranges, so that IPv4 comes
first, and with the ports as they are printed, so that they have the same bounds and maybe another
spelling. Every TCP port comes back as the limits that EC2 has for ports.

What does not come back in general is the name. It is kept in the descriptions of the IPv4 ranges, and
a description that is no name of the policy yields to the name of the ports. The priority is dropped.

- `observed?_opening`: the rule that the policy sees in an opened key.
- `name_ruleAs_opening`: a name of the policy is found again in the descriptions.
- `bounds_ports_opening`: the ports of an opened key are read as the bounds that it was opened with.
- `rule_comes_back`: **a rule with legible ports comes back**.
-/

namespace NodeLedger.Cloud

open Policy Text

namespace Permission

section

variable {name : Option String} {addresses : List String} {protocol : Protocol}
  {limits : Option (Int × Int)}

/-- An opened key is seen as a rule of its protocol. -/
theorem observed?_opening (protocol : Protocol) (limits : Option (Int × Int))
    (name : Option String) (addresses : List String) :
    (opening (.opened protocol limits) name addresses).observed?
      = some ((opening (.opened protocol limits) name addresses).ruleAs protocol) := by
  cases protocol with
  | all => rfl
  | tcp => rfl

/-- The ports of an opened key have the bounds that it was opened with. -/
theorem bounds_ports_opening {low high : Int} (h : Legible low high) :
    bounds ((opening (.tcp low high) name addresses).ports .tcp) = .ok (some (low, high)) := by
  have hports : (opening (.tcp low high) name addresses).ports .tcp
      = if low = high then integer low else s!"{integer low}-{integer high}" := by
    show (if some low = some high then _ else _) = _
    by_cases heq : low = high
    · rw [if_pos heq, if_pos (congrArg some heq)]
      rfl
    · rw [if_neg heq, if_neg fun hsome => heq (Option.some.inj hsome)]
      rfl
  rw [hports]
  exact bounds_of_legible h

/-- The limits that a rule is opened with can be read back, whether it has bounds or not. -/
theorem legible_getD_portLimits {ports : String} (h : bounds ports = .ok limits) :
    Legible (limits.getD portLimits).1 (limits.getD portLimits).2 := by
  cases limits with
  | none =>
    have hrange : bounds "0-65535" = .ok (some portLimits) := by decide
    exact legible_of_bounds hrange
  | some limits => exact legible_of_bounds h

/-- A name of the policy comes back from the description of the first IPv4 range. -/
theorem name_ruleAs_opening {key : PermissionKey} {text : String} (hknown : text ∈ knownNames)
    (hnarrow : ∃ address ∈ addresses, isWide address = false) :
    ((opening key (some text) addresses).ruleAs protocol).name = some text := by
  have hdescribed : text ∈ (opening key (some text) addresses).descriptions := by
    obtain ⟨address, haddress, hwide⟩ := hnarrow
    have hrange : address ∈ addresses.filter fun address => !isWide address :=
      List.mem_filter.2 ⟨haddress, by rw [hwide]; rfl⟩
    have hne : text ≠ "" := ne_of_mem_of_not_mem hknown (by decide)
    exact List.mem_filterMap.2 ⟨_, List.mem_map_of_mem hrange,
      Option.filter_some_pos (bne_iff_ne.2 hne)⟩
  show some (Permission.name _ protocol _) = some text
  unfold Permission.name
  cases hfind : (opening key (some text) addresses).descriptions.find? knownNames.contains with
  | none => exact absurd (List.contains_iff_mem.2 hknown) (List.find?_eq_none.1 hfind text hdescribed)
  | some description =>
    exact (eq_of_mem_descriptions_opening (List.mem_of_find?_eq_some hfind)).symm

end

/-- **A rule comes back from its permission**: with its protocol, with the addresses for its sources,
IPv4 first, and with the same ports; and with its name, if that is one of the policy and some address
is one of IPv4. -/
theorem rule_comes_back {rule : SecurityRule} {addresses : List String}
    {limits : Option (Int × Int)} (hbounds : rule.bounds = .ok limits)
    (hne : ∀ address ∈ addresses, address ≠ "") :
    ∃ permission back, ofRule rule addresses = .ok permission ∧
      permission.rule? = .ok (some back) ∧ back.protocol = rule.protocol ∧
      back.sources
        = (addresses.filter fun address => !isWide address) ++ addresses.filter isWide ∧
      back.sources.Perm addresses ∧
      (rule.protocol = .all → back.ports = allPorts) ∧
      (rule.protocol = .tcp → back.bounds = .ok (some (limits.getD portLimits))) ∧
      ∀ name ∈ knownNames, rule.name = some name →
        (∃ address ∈ addresses, isWide address = false) → back.name = some name := by
  have hlisted := listed_opening (.opened rule.protocol limits) rule.name addresses
  have hseen := rule?_of_listed hlisted.1 hlisted.2
  rw [observed?_opening] at hseen
  refine ⟨_, _, ofRule_of_bounds hbounds addresses, hseen, rfl, blocks_opening_eq hne,
    blocks_opening hne, ?_, ?_, ?_⟩
  · intro hall
    rw [hall]
    rfl
  · intro htcp
    rw [htcp]
    exact bounds_ports_opening (legible_getD_portLimits hbounds)
  · intro name hknown hname hnarrow
    rw [hname]
    exact name_ruleAs_opening hknown hnarrow

/-- A rule with a source of each kind, whose ports are written with blanks and signs. -/
theorem spaced_rule_comes_back :
    ∃ permission back,
      ofRule ⟨some "SSH", .tcp, [], " +5 - -3 ", none⟩ ["2001:db8::/64", "192.0.2.0/24"]
        = .ok permission ∧
      permission.rule? = .ok (some back) ∧ back.name = some "SSH" ∧
      back.sources = ["192.0.2.0/24", "2001:db8::/64"] ∧ back.bounds = .ok (some (5, -3)) := by
  have hbounds : SecurityRule.bounds ⟨some "SSH", .tcp, [], " +5 - -3 ", none⟩
      = .ok (some (5, -3)) := by decide
  have haddresses : ∀ address ∈ ["2001:db8::/64", "192.0.2.0/24"], address ≠ "" := by decide
  obtain ⟨permission, back, hopened, hseen, -, hsources, -, -, hports, hname⟩ :=
    rule_comes_back hbounds haddresses
  exact ⟨permission, back, hopened, hseen,
    hname "SSH" (by decide) rfl ⟨"192.0.2.0/24", by decide, by decide⟩, hsources, hports rfl⟩

end Permission

end NodeLedger.Cloud
