import NodeLedger.Proofs.Cloud.Nsg.ResourceGroup

/-!
# Updates of a network security group

Changes are made one after the other. The first one that fails ends it, and what was made until then
stays. So what the policy sees of the group afterwards is what it saw before with the first changes
applied by name.

- `Course`, `course`: how far changes come when faults come in their way.
- `runOn_apply`: **everything that applying changes does to a group**, whatever fails.
- `apply_refines_applyByName`: **applying changes to a group shows as applying them by name**, up to
  the first failure.
-/

namespace NodeLedger.Cloud.Nsg

open Policy ResourceGroup

/-! ## How far changes come -/

/-- How far changes come. -/
structure Course where
  /-- The changes that are made. -/
  made : List SecurityRule
  /-- The change that fails, and its fault. -/
  failed : Option (SecurityRule × OutsideFault)
  deriving Repr, DecidableEq

/-- How far changes come when faults come. Every change takes two requests, and the first one that
fails is the last. -/
def course : List SecurityRule → List (Option OutsideFault) → Course
  | [], _ => ⟨[], none⟩
  | change :: changes, faults =>
    match changeFault? faults with
    | some fault => ⟨[], some (change, fault)⟩
    | none =>
      let rest := course changes faults.tail.tail
      { rest with made := change :: rest.made }

namespace Course

/-- The changes that are asked for: the ones that are made, and the one that fails. -/
def asked (c : Course) : List SecurityRule :=
  c.made ++ c.failed.toList.map (·.1)

/-- How applying changes to a group ends. -/
def outcome (group : GroupId) (c : Course) : Except Fault Unit :=
  match c.failed with
  | none => .ok ()
  | some (change, fault) =>
    .error (if isResponseFault fault then .provider (.ruleUpdate group.label change.label fault)
      else .outside fault)

end Course

section

variable {change : SecurityRule} {changes : List SecurityRule} {fault : OutsideFault}
  {faults : List (Option OutsideFault)}

theorem course_cons_of_fault (h : changeFault? faults = some fault) (change : SecurityRule)
    (changes : List SecurityRule) : course (change :: changes) faults = ⟨[], some (change, fault)⟩ := by
  rw [course, h]

theorem course_cons_of_none (h : changeFault? faults = none) (change : SecurityRule)
    (changes : List SecurityRule) :
    course (change :: changes) faults
      = ⟨change :: (course changes faults.tail.tail).made, (course changes faults.tail.tail).failed⟩ := by
  rw [course, h]

/-- Changes are asked for in their order. -/
theorem asked_course_isPrefix (changes : List SecurityRule) (faults : List (Option OutsideFault)) :
    (course changes faults).asked <+: changes := by
  induction changes generalizing faults with
  | nil => exact List.prefix_rfl
  | cons change changes ih =>
    cases hfault : changeFault? faults with
    | some fault =>
      rw [course_cons_of_fault hfault]
      exact ⟨changes, rfl⟩
    | none =>
      rw [course_cons_of_none hfault]
      exact List.cons_prefix_cons.2 ⟨rfl, ih _⟩

theorem made_course_isPrefix (changes : List SecurityRule) (faults : List (Option OutsideFault)) :
    (course changes faults).made <+: changes :=
  (List.prefix_append _ _).trans (asked_course_isPrefix changes faults)

/-- If no change fails, all are made. -/
theorem made_course_of_not_failed (h : (course changes faults).failed = none) :
    (course changes faults).made = changes := by
  induction changes generalizing faults with
  | nil => rfl
  | cons change changes ih =>
    cases hfault : changeFault? faults with
    | some fault =>
      rw [course_cons_of_fault hfault] at h
      cases h
    | none =>
      rw [course_cons_of_none hfault] at h ⊢
      exact congrArg (change :: ·) (ih h)

theorem mem_of_changeFault? (h : changeFault? faults = some fault) : some fault ∈ faults := by
  rcases Option.or_eq_some_iff.1 h with hfirst | ⟨-, hsecond⟩
  · exact List.mem_of_mem_head? (Option.join_eq_some_iff.1 hfirst)
  · exact List.mem_of_mem_tail (List.mem_of_mem_head? (Option.join_eq_some_iff.1 hsecond))

/-- A change fails because a fault came. -/
theorem mem_of_failed_course (h : (course changes faults).failed = some (change, fault)) :
    some fault ∈ faults := by
  induction changes generalizing faults with
  | nil => cases h
  | cons first changes ih =>
    cases hfault : changeFault? faults with
    | some other =>
      rw [course_cons_of_fault hfault] at h
      cases h
      exact mem_of_changeFault? hfault
    | none =>
      rw [course_cons_of_none hfault] at h
      exact List.mem_of_mem_tail (List.mem_of_mem_tail (ih h))

end

/-! ## Changes on a group -/

section

variable {others : Client ResourceGroup} {resources name : String} {host after : Host ResourceGroup}
  {rules : List NsgRule} {change : SecurityRule} {changes : List SecurityRule}

/-- A change that fails ends it. -/
theorem runOn_apply_cons_of_fault {fault : OutsideFault}
    (h : changeFault? host.outside.faults = some fault) (others : Client ResourceGroup)
    (resources : String) (identifier : GroupId) (change : SecurityRule) (changes : List SecurityRule) :
    ∃ faults, (apply (client others) resources identifier (change :: changes)).runOn host
      = (Course.outcome identifier ⟨[], some (change, fault)⟩, {
          files := host.files
          log := host.log
          outside := {
            group := host.outside.group
            faults := faults
            calls := host.outside.calls ++ [NsgRule.ofRule change] } }) := by
  obtain ⟨faults, hrequest⟩ := finished_updateRule_of_fault h others resources identifier change
  refine ⟨faults, ?_⟩
  rw [apply, Job.runOn_bind_of_error (Job.runOn_expecting_of_error hrequest)]
  rfl

/-- After a change that does not fail, the other ones follow. -/
theorem runOn_apply_cons_of_none (h : changeFault? host.outside.faults = none)
    (hgroup : host.outside.group = some (name, rules)) (others : Client ResourceGroup)
    (resources : String) (change : SecurityRule) (changes : List SecurityRule) :
    ∃ log, (apply (client others) resources (some (CodeText.ofString name)) (change :: changes)).runOn
        host
      = (apply (client others) resources (some (CodeText.ofString name)) changes).runOn {
          files := host.files
          log := log
          outside := {
            group := some (name, putRule rules (NsgRule.ofRule change))
            faults := host.outside.faults.tail.tail
            calls := host.outside.calls ++ [NsgRule.ofRule change] } } := by
  have hrequest := finished_updateRule_of_none h hgroup others resources change
  rw [apply, Job.runOn_bind_of_ok (Job.runOn_expecting_of_ok hrequest),
    Job.runOn_bind_of_ok (Job.runOn_log _ _ _)]
  exact ⟨_, rfl⟩

/-- **What applying changes does to a group.** The changes that are asked for are made up to the one
that fails; files are left alone. -/
theorem runOn_apply (others : Client ResourceGroup) (resources : String)
    (hgroup : host.outside.group = some (name, rules)) (changes : List SecurityRule) :
    ∃ log faults,
      (apply (client others) resources (some (CodeText.ofString name)) changes).runOn host
        = ((course changes host.outside.faults).outcome (some (CodeText.ofString name)), {
            files := host.files
            log := log
            outside := {
              group := some (name, putRules rules (course changes host.outside.faults).made)
              faults := faults
              calls := host.outside.calls
                ++ (course changes host.outside.faults).asked.map NsgRule.ofRule } }) := by
  -- The invariant is that the group is there; each change leaves it there, with one rule put into it.
  induction changes generalizing host rules with
  | nil =>
    obtain ⟨files, log, group, faults, calls⟩ := host
    cases hgroup
    have hcalls : calls ++ [].map NsgRule.ofRule = calls := List.append_nil calls
    refine ⟨log, faults, ?_⟩
    show _ = (_, (⟨files, log, ⟨_, _, calls ++ [].map NsgRule.ofRule⟩⟩ : Host ResourceGroup))
    rw [hcalls]
    rfl
  | cons change changes ih =>
    cases hfault : changeFault? host.outside.faults with
    | some fault =>
      obtain ⟨faults, hstep⟩ := runOn_apply_cons_of_fault hfault others resources
        (some (CodeText.ofString name)) change changes
      refine ⟨host.log, faults, ?_⟩
      rw [course_cons_of_fault hfault, hstep, hgroup]
      rfl
    | none =>
      obtain ⟨log, hstep⟩ := runOn_apply_cons_of_none hfault hgroup others resources change changes
      let middle : ResourceGroup := {
        group := some (name, putRule rules (NsgRule.ofRule change))
        faults := host.outside.faults.tail.tail
        calls := host.outside.calls ++ [NsgRule.ofRule change] }
      obtain ⟨log', faults, hrest⟩ := @ih ⟨host.files, log, middle⟩ _ rfl
      refine ⟨log', faults, ?_⟩
      rw [course_cons_of_none hfault, hstep, hrest, List.append_assoc]
      rfl

/-- **Applying changes to a group shows as applying them by name.** If no change fails, all are made.
If one fails, the failure is reported, nothing is asked for after it, and what shows is what the
changes before it make of the rules. -/
theorem apply_refines_applyByName (others : Client ResourceGroup) (resources : String)
    (hgroup : host.outside.group = some (name, rules))
    (hexpected : ∀ fault, some fault ∈ host.outside.faults → isResponseFault fault = true)
    (hports : ∀ change ∈ changes, change.ports ≠ "")
    (hvisible : ∀ rule ∈ rules, rule.rule? = none → ∀ change ∈ changes, change.name ≠ rule.name) :
    ∃ listed outcome after,
      listing others resources (some (CodeText.ofString name)) host = .ok listed ∧
        (apply (client others) resources (some (CodeText.ofString name)) changes).runOn host
          = (outcome, after) ∧
        match course changes host.outside.faults with
        | ⟨made, none⟩ =>
          made = changes ∧ outcome = .ok () ∧
            after.outside.calls = host.outside.calls ++ changes.map NsgRule.ofRule ∧
            listing others resources (some (CodeText.ofString name)) after
              = .ok (applyByName listed changes)
        | ⟨made, some (change, fault)⟩ =>
          made ++ [change] <+: changes ∧
            outcome = .error (.provider (.ruleUpdate name change.label fault)) ∧
            after.outside.calls
              = host.outside.calls ++ (made ++ [change]).map NsgRule.ofRule ∧
            listing others resources (some (CodeText.ofString name)) after
              = .ok (applyByName listed made) := by
  obtain ⟨log, faults, hrun⟩ := runOn_apply others resources hgroup changes
  refine ⟨visible rules, _, _, listing_of_group others resources hgroup, hrun, ?_⟩
  have hasked : (course changes host.outside.faults).asked <+: changes := asked_course_isPrefix _ _
  have hmade : (course changes host.outside.faults).made <+: changes := made_course_isPrefix _ _
  have hshown : visible (putRules rules (course changes host.outside.faults).made)
      = applyByName (visible rules) (course changes host.outside.faults).made :=
    visible_putRules (fun change hchange => hports change (hmade.subset hchange))
      fun rule hrule hhidden change hchange => hvisible rule hrule hhidden change (hmade.subset hchange)
  cases hcourse : course changes host.outside.faults with
  | mk made failed =>
    rw [hcourse] at hasked hshown
    cases failed with
    | none =>
      have hall : (course changes host.outside.faults).made = changes :=
        made_course_of_not_failed (congrArg Course.failed hcourse)
      rw [hcourse] at hall
      cases hall
      refine ⟨rfl, rfl, ?_, ?_⟩
      · show _ ++ (made ++ []).map _ = _
        rw [List.append_nil]
      · rw [listing_of_group others resources rfl, hshown]
    | some failure =>
      obtain ⟨change, fault⟩ := failure
      have hresponse : isResponseFault fault = true :=
        hexpected fault (mem_of_failed_course (congrArg Course.failed hcourse))
      refine ⟨hasked, ?_, rfl, ?_⟩
      · exact congrArg Except.error (if_pos hresponse)
      · rw [listing_of_group others resources rfl, hshown]

/-- A denial. -/
def denial (name ports : String) : NsgRule :=
  { NsgRule.ofRule ⟨some name, .tcp, ["198.51.100.0/24"], ports, some 100⟩ with access := some "Deny" }

/-- A group in which hidden rules stand among the rules for another operator. -/
def interleaved : List NsgRule :=
  [denial "quarantine" "22",
    { NsgRule.ofRule ⟨some "WinRM", .tcp, [], "", some 600⟩ with
      protocol := some "TCP"
      source := some "198.51.100.7/32"
      portRanges := some ["5986"] },
    { denial "outgoing" "*" with direction := some "Outbound" },
    NsgRule.ofRule ⟨some "RDP", .tcp, ["198.51.100.7/32"], "3389", some 601⟩]

/-- Four changes are to be made here, and the second one fails when its end is waited for. -/
theorem apply_stops_at_second_change :
    let changes := reconcile (visible interleaved) azureRules "203.0.113.7" "10.0.0.0/16"
    let fault := OutsideFault.response .general "conflict"
    let host : Host ResourceGroup :=
      ⟨⟨[], []⟩, [], ⟨some ("cluster-nsg", interleaved), [none, none, none, some fault], []⟩⟩
    changes.length = 4 ∧ ∃ after,
      (apply (client locked) "workers" (some (CodeText.ofString "cluster-nsg")) changes).runOn host
          = (.error (.provider (.ruleUpdate "cluster-nsg" "RDP" fault)), after) ∧
        listing locked "workers" (some (CodeText.ofString "cluster-nsg")) after
          = .ok (applyByName (visible interleaved) (changes.take 1)) := by
  intro changes fault host
  have hexpected : ∀ other, some other ∈ host.outside.faults → isResponseFault other = true := by
    intro other hother
    have hsame : other = fault := by simpa [host] using hother
    rw [hsame]
    rfl
  have hports : ∀ change ∈ changes, change.ports ≠ "" := by decide +kernel
  have hvisible : ∀ rule ∈ interleaved, rule.rule? = none →
      ∀ change ∈ changes, change.name ≠ rule.name := by decide +kernel
  have hcourse : ∃ change, change.label = "RDP" ∧
      course changes host.outside.faults = ⟨changes.take 1, some (change, fault)⟩ :=
    ⟨⟨some "RDP", .tcp, ["198.51.100.7/32", "203.0.113.7/32"], "3389", some 601⟩, by decide +kernel⟩
  obtain ⟨change, hlabel, hcourse⟩ := hcourse
  obtain ⟨listed, outcome, after, hlisted, hrun, hend⟩ :=
    apply_refines_applyByName locked "workers" (show host.outside.group = _ from rfl) hexpected hports
      hvisible
  rw [hcourse] at hend
  obtain ⟨-, rfl, -, hafter⟩ := hend
  rw [listing_of_group locked "workers" (show host.outside.group = _ from rfl)] at hlisted
  cases hlisted
  rw [hlabel] at hrun
  exact ⟨by decide +kernel, after, hrun, hafter⟩

end

end NodeLedger.Cloud.Nsg
