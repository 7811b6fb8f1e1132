import NodeLedger.Proofs.Cloud.Terminations

/-!
# Deletions and what was exchanged for them

A deletion of a group comes to its end exactly if the cloud has refused nothing that it takes. On EC2
that is one request, which is made only if no instance holds on to the group; on Azure it is one
request for each rule of the policy, and a rule that is gone already is no refusal.

- `Attempt`: the exchanges of one attempt to delete a group.
- `Nsg.RuleDeletions`: the exchanges of a deletion of rules, up to the first one that is refused.
- `cases_of_runOn_delete`: **a deletion ends well exactly if the group went away**.
-/

namespace NodeLedger.Cloud

open Job Policy

section Delete

variable {σ : Type} {group : CodeText} {new : List Exchange} {host after : Host (Watched σ)}
  {outcome : Except Fault Unit}

/-- The exchanges of one attempt to delete a group are about it, and it went away unless something was
refused. -/
structure Attempt (platform : Platform σ) (group : CodeText) (new : List Exchange) : Prop where
  about : ∀ e ∈ new, e.group? = some (some group)
  tried : platform.GroupTried new group
  gone_iff : platform.GroupGone new group ↔ ¬ platform.GroupRefused new group

/-- A failure that is not explained is one that the operation is not prepared for. -/
theorem isOf_provider_or {isExpected : OutsideFault → Bool} {explain : OutsideFault → ProviderFault}
    (failure : OutsideFault) :
    (if isExpected failure then Fault.provider (explain failure) else .outside failure).isOf
        .provider = true ∨ isExpected failure = false := by
  cases isExpected failure with
  | true => exact .inl rfl
  | false => exact .inr rfl

section Expecting

variable {α : Type} {isExpected : OutsideFault → Bool} {explain : OutsideFault → ProviderFault}
  {note : Except OutsideFault α → List Exchange} {request : Ask σ α}

/-- A request that succeeded had an answer, and the witness has seen it. -/
theorem seen_of_runOn_expecting_watch {a : α}
    (h : (Job.expecting isExpected explain (watch note request)).runOn host = (.ok a, after)) :
    after.outside.seen = host.outside.seen ++ note (.ok a) := by
  obtain ⟨answer, state, hask⟩ := exists_runOn_ask_watch note request host
  rw [Job.expecting, Job.runOn_bind_of_ok hask] at h
  cases answer with
  | ok a => cases h; rfl
  | error failure => cases h

/-- A request that failed was explained, unless the operation is not prepared for the failure. -/
theorem exists_of_runOn_expecting_watch {fault : Fault}
    (h : (Job.expecting isExpected explain (watch note request)).runOn host = (.error fault, after)) :
    ∃ failure, after.outside.seen = host.outside.seen ++ note (.error failure) ∧
      (fault.isOf .provider = true ∨ isExpected failure = false) := by
  obtain ⟨answer, state, hask⟩ := exists_runOn_ask_watch note request host
  rw [Job.expecting, Job.runOn_bind_of_ok hask] at h
  cases answer with
  | ok a => cases h
  | error failure =>
    cases h
    exact ⟨failure, rfl, isOf_provider_or failure⟩

end Expecting

/-! ## Deletions on EC2 -/

namespace Ec2

variable (client : Client σ) (network : Option String)

theorem not_isFree_error (failure : OutsideFault) : ¬ IsFree (.error failure) := by
  rintro ⟨found, hfound, -⟩
  cases hfound

theorem isFree_ok_iff {found : Option InstancesAnswer} : IsFree (.ok found) ↔ holders found = .ok [] :=
  ⟨fun ⟨_, heq, hfree⟩ => Except.ok.inj heq ▸ hfree, fun hfree => ⟨found, rfl, hfree⟩⟩

/-- The one request that tells whether a group is free. -/
theorem cases_of_runOn_isInUse {outcome : Except Fault Bool}
    (h : (isInUse client.watched (some group)).runOn host = (outcome, after)) :
    ∃ answer, after.outside.seen = host.outside.seen ++ [.instances (some group) answer] ∧
      ((outcome = .ok false ∧ IsFree answer) ∨
        ¬ IsFree answer ∧ (outcome = .ok true ∨ ∃ fault, outcome = .error fault ∧
          (fault.isOf .provider = true ∨
            (Exchange.instances (some group) answer).isHandled = false))) := by
  rw [isInUse, Client.watched_describeInstances] at h
  rcases Job.cases_of_runOn_bind h with ⟨fault, hask, rfl⟩ | ⟨found, middle, hask, h⟩
  · obtain ⟨failure, hseen, hreason⟩ := exists_of_runOn_expecting_watch hask
    exact ⟨.error failure, hseen,
      .inr ⟨not_isFree_error failure, .inr ⟨fault, rfl, hreason⟩⟩⟩
  have hseen := seen_of_runOn_expecting_watch hask
  refine ⟨.ok found, ?_⟩
  rw [isFree_ok_iff]
  change (Job.ofExcept (holders found) >>= _).runOn middle = _ at h
  rcases Job.cases_of_runOn_bind h with ⟨fault, hread, rfl⟩ | ⟨machines, middle', hread, h⟩
  · obtain ⟨hholders, rfl⟩ := Prod.mk.inj hread
    refine ⟨hseen, .inr ⟨fun hfree => ?_, .inr ⟨fault, rfl, .inr ?_⟩⟩⟩
    · cases hholders.symm.trans hfree
    · rw [Exchange.isHandled, isReadable, hholders]
  · obtain ⟨hholders, rfl⟩ := Prod.mk.inj hread
    rw [hholders]
    cases machines with
    | nil =>
      cases h
      exact ⟨hseen, .inl ⟨rfl, rfl⟩⟩
    | cons machine machines =>
      have hheld : (Except.ok (machine :: machines) : Except Fault _) ≠ .ok [] := fun heq =>
        List.cons_ne_nil _ _ (Except.ok.inj heq)
      rw [List.isEmpty_cons, if_neg Bool.false_ne_true] at h
      split at h
      · rename_i hnone
        cases h
        refine ⟨hseen, .inr ⟨hheld, .inr ⟨_, rfl, .inr ?_⟩⟩⟩
        rw [Exchange.isHandled, isReadable, hholders]
        exact congrArg Option.isSome hnone
      · cases h
        exact ⟨hseen, .inr ⟨hheld, .inl rfl⟩⟩

/-- A group that is not free is left alone. -/
theorem attempt_of_not_isFree (group : CodeText)
    {listed : Except OutsideFault (Option InstancesAnswer)}
    (hlisted : ¬ IsFree listed) :
    Attempt (.ec2 client network) group [.instances (some group) listed] ∧
      ¬ (Platform.ec2 client network).GroupGone [.instances (some group) listed] group := by
  have hnot : ¬ (Platform.ec2 client network).GroupGone [.instances (some group) listed] group := by
    intro hgone
    cases List.mem_singleton.1 hgone
  constructor
  · constructor
    case about => exact List.forall_mem_singleton.2 rfl
    case tried => exact ⟨listed, List.mem_singleton_self _⟩
    case gone_iff =>
      exact iff_of_false hnot fun hnone => hnone (.inl ⟨listed, List.mem_singleton_self _, hlisted⟩)
  · exact hnot

/-- A free group goes away exactly if its deletion succeeds. -/
theorem attempt_of_isFree (group : CodeText) {listed : Except OutsideFault (Option InstancesAnswer)}
    (hlisted : IsFree listed) (answer : Except OutsideFault Unit) :
    let new := [.instances (some group) listed, .deleteGroup (some group) answer]
    Attempt (.ec2 client network) group new ∧
      ((Platform.ec2 client network).GroupGone new group ↔ answer = .ok ()) := by
  intro new
  have hgone : (Platform.ec2 client network).GroupGone new group ↔ answer = .ok () := by
    show Exchange.deleteGroup (some group) (.ok ()) ∈ new ↔ _
    simp [new, eq_comm]
  constructor
  · constructor
    case about => simp [new, Exchange.group?]
    case tried => exact ⟨listed, List.mem_cons_self⟩
    case gone_iff =>
      rw [hgone]
      constructor
      · rintro rfl (⟨other, hmem, hnot⟩ | ⟨failure, hmem⟩)
        · have heq : other = listed := by simpa [new] using hmem
          exact hnot (heq ▸ hlisted)
        · simp [new] at hmem
      · intro hnone
        cases answer with
        | ok _ => rfl
        | error failure => exact absurd (.inr ⟨failure, by simp [new]⟩) hnone
  · exact hgone

/-- **A group that instances hold on to is left alone**, and the deletion of any other is requested. -/
theorem cases_of_runOn_delete (h : (delete client.watched (some group)).runOn host = (outcome, after)) :
    ∃ new, after.outside.seen = host.outside.seen ++ new ∧
      Attempt (.ec2 client network) group new ∧
        ((outcome = .ok () ∧ (Platform.ec2 client network).GroupGone new group) ∨
          ∃ fault, outcome = .error fault ∧ ¬ (Platform.ec2 client network).GroupGone new group ∧
            (fault.isOf .provider = true ∨ ∃ e ∈ new, e.isHandled = false)) := by
  rw [delete] at h
  rcases Job.cases_of_runOn_bind h with ⟨fault, hlist, rfl⟩ | ⟨inUse, middle, hlist, h⟩
  · obtain ⟨listed, hseen, ⟨hok, -⟩ | ⟨hlisted, hok | ⟨_, hfault, hreason⟩⟩⟩ :=
      cases_of_runOn_isInUse client hlist
    · cases hok
    · cases hok
    · cases hfault
      obtain ⟨hattempt, hnot⟩ := attempt_of_not_isFree client network group hlisted
      exact ⟨_, hseen, hattempt, .inr ⟨fault, rfl, hnot, hreason.imp_right fun hunhandled =>
        ⟨_, List.mem_singleton_self _, hunhandled⟩⟩⟩
  obtain ⟨listed, hseen, ⟨hok, hlisted⟩ | ⟨hlisted, hok | ⟨_, hfault, -⟩⟩⟩ :=
    cases_of_runOn_isInUse client hlist
  · cases hok
    rw [if_neg Bool.false_ne_true, Client.watched_deleteGroup] at h
    -- The deletion is noted, however it ends.
    have hseen' : ∀ {seen : List Exchange} {answer},
        seen = middle.outside.seen ++ [.deleteGroup (some group) answer] →
        seen = host.outside.seen ++ [.instances (some group) listed, .deleteGroup (some group) answer] :=
      fun heq => by rw [heq, hseen, List.append_assoc]; rfl
    rcases Job.cases_of_runOn_bind h with ⟨fault, hdelete, rfl⟩ | ⟨_, middle', hdelete, h⟩
    · obtain ⟨failure, hdeleted, hreason⟩ := exists_of_runOn_expecting_watch hdelete
      obtain ⟨hattempt, hgone⟩ :=
        attempt_of_isFree client network group hlisted (.error failure)
      refine ⟨_, hseen' hdeleted, hattempt, .inr ⟨fault, rfl, fun h => ?_,
        hreason.imp_right fun hunexpected => ?_⟩⟩
      · cases hgone.1 h
      · exact ⟨_, List.mem_cons_of_mem _ (List.mem_singleton_self _), hunexpected⟩
    · obtain ⟨hattempt, hgone⟩ :=
        attempt_of_isFree client network group hlisted (.ok ())
      have hdeleted := seen_of_runOn_expecting_watch hdelete
      cases h
      exact ⟨_, hseen' hdeleted, hattempt, .inl ⟨rfl, hgone.2 rfl⟩⟩
  · cases hok
    cases h
    obtain ⟨hattempt, hnot⟩ := attempt_of_not_isFree client network group hlisted
    exact ⟨_, hseen, hattempt, .inr ⟨_, rfl, hnot, .inl rfl⟩⟩
  · cases hfault

end Ec2

/-! ## Deletions on Azure -/

/-- The exchanges of a deletion of rules, one after the other. Either each rule was taken away or was
gone, or one could neither be deleted nor was gone, and the deletion failed with it. -/
structure Nsg.RuleDeletions (id : GroupId) (rules : List RequiredRule) (outcome : Except Fault Unit)
    (new : List Exchange) : Prop where
  about : ∀ e ∈ new, ∃ rule ∈ rules, ∃ answer, e = .deleteRule id rule.name answer
  tried : rules ≠ [] → new ≠ []
  ends :
    (outcome = .ok () ∧ (∀ rule ∈ rules, ∃ e ∈ new, e.takesRule id rule.name = true) ∧
        ∀ name failure, .deleteRule id name (.error failure) ∈ new → isNotFound failure = true) ∨
      ∃ rule ∈ rules, ∃ failure, Exchange.deleteRule id rule.name (.error failure) ∈ new ∧
        isNotFound failure = false ∧ (∀ e ∈ new, e.takesRule id rule.name = false) ∧
        ∃ fault, outcome = .error fault ∧
          (fault.isOf .provider = true ∨ isResponseFault failure = false)

/-- A rule that was taken away, or was gone, is followed by the other ones. -/
theorem Nsg.RuleDeletions.cons {id : GroupId} {rule : RequiredRule} {rules : List RequiredRule}
    {answer : Except OutsideFault Unit} (h : RuleDeletions id rules outcome new)
    (hname : rule.name ∉ rules.map (·.name))
    (hanswer : ∀ failure, answer = .error failure → isNotFound failure = true) :
    RuleDeletions id (rule :: rules) outcome (.deleteRule id rule.name answer :: new) where
  about := by
    refine List.forall_mem_cons.2 ⟨⟨rule, List.mem_cons_self, answer, rfl⟩, fun e he => ?_⟩
    obtain ⟨other, hmem, heq⟩ := h.about e he
    exact ⟨other, List.mem_cons_of_mem _ hmem, heq⟩
  tried _ := List.cons_ne_nil _ _
  ends := by
    have hother : ∀ other ∈ rules,
        (Exchange.deleteRule id rule.name answer).takesRule id other.name = false := by
      intro other hother
      rw [Bool.eq_false_iff, ne_eq, Exchange.takesRule_deleteRule_iff]
      rintro ⟨-, heq, -⟩
      exact hname (heq ▸ List.mem_map_of_mem hother)
    rcases h.ends with ⟨rfl, htaken, hgone⟩ | ⟨last, hlast, failure, hmem, hfailure, hnot, hfault⟩
    · left
      refine ⟨rfl, List.forall_mem_cons.2 ⟨?_, fun other hmem => ?_⟩, fun name failure hmem => ?_⟩
      · exact ⟨_, List.mem_cons_self, Exchange.takesRule_deleteRule_iff.2 ⟨rfl, rfl, hanswer⟩⟩
      · obtain ⟨e, he, htakes⟩ := htaken other hmem
        exact ⟨e, List.mem_cons_of_mem _ he, htakes⟩
      · rcases List.mem_cons.1 hmem with heq | hmem
        · exact hanswer failure (Exchange.deleteRule.inj heq).2.2.symm
        · exact hgone name failure hmem
    · exact .inr ⟨last, List.mem_cons_of_mem _ hlast, failure, List.mem_cons_of_mem _ hmem, hfailure,
        List.forall_mem_cons.2 ⟨hother last hlast, hnot⟩, hfault⟩

/-- Rules are deleted one after the other, until one can neither be deleted nor is gone. -/
theorem Nsg.exists_of_runOn_deleteRules (client : Client σ) (resources : String) (id : GroupId)
    {rules : List RequiredRule} (hnodup : (rules.map (·.name)).Nodup)
    (h : (deleteRules client.watched resources id rules).runOn host = (outcome, after)) :
    ∃ new, after.outside.seen = host.outside.seen ++ new ∧ RuleDeletions id rules outcome new := by
  induction rules generalizing host with
  | nil =>
    cases h
    refine ⟨[], (List.append_nil _).symm, List.forall_mem_nil _, fun hne => absurd rfl hne, .inl ?_⟩
    exact ⟨rfl, List.forall_mem_nil _, fun _ _ hmem => absurd hmem List.not_mem_nil⟩
  | cons rule rules ih =>
    obtain ⟨hname, hnames⟩ := List.nodup_cons.1 hnodup
    obtain ⟨answer, state, hask⟩ := exists_runOn_ask_watch
      (fun answer => [Exchange.deleteRule id rule.name answer])
      (Ask.finished (client.deleteRule resources id rule.name)) host
    rw [deleteRules, Client.finished_watched_deleteRule, Job.runOn_bind_of_ok hask] at h
    cases answer with
    | ok _ =>
      obtain ⟨new, hseen, hnew⟩ := ih hnames h
      exact ⟨_, by rw [hseen, List.append_assoc]; rfl, hnew.cons hname fun _ heq => by cases heq⟩
    | error failure =>
      dsimp only at h
      split at h
      · rename_i hgone
        rw [Job.runOn_bind_of_ok (Job.runOn_log _ _ _)] at h
        obtain ⟨new, hseen, hnew⟩ := ih hnames h
        refine ⟨_, by rw [hseen, List.append_assoc]; rfl, hnew.cons hname fun other heq => ?_⟩
        cases heq
        exact hgone
      · rename_i hfailure
        cases h
        refine ⟨[.deleteRule id rule.name (.error failure)], rfl, ?_, fun _ => List.cons_ne_nil _ _,
          .inr ⟨rule, List.mem_cons_self, failure, List.mem_singleton_self _,
            Bool.eq_false_iff.2 hfailure, ?_, _, rfl, isOf_provider_or failure⟩⟩
        · exact List.forall_mem_singleton.2 ⟨rule, List.mem_cons_self, _, rfl⟩
        · rw [List.forall_mem_singleton, Bool.eq_false_iff, ne_eq, Exchange.takesRule_deleteRule_iff]
          exact fun htakes => hfailure (htakes.2.2 failure rfl)

theorem Nsg.cases_of_runOn_delete (client : Client σ) (resources : String)
    (location : Option String)
    (h : (delete client.watched resources (some group)).runOn host = (outcome, after)) :
    ∃ new, after.outside.seen = host.outside.seen ++ new ∧
      Attempt (.azure client resources location) group new ∧
        ((outcome = .ok () ∧
            (Platform.azure client resources location).GroupGone new group) ∨
          ∃ fault, outcome = .error fault ∧
            ¬ (Platform.azure client resources location).GroupGone new group ∧
            (fault.isOf .provider = true ∨ ∃ e ∈ new, e.isHandled = false)) := by
  have hnodup : (azureRules.map (·.name)).Nodup := by decide
  have hdelete : ∃ result middle, (deleteRules client.watched resources (some group)
      azureRules).runOn host = (result, middle) ∧ outcome = result ∧
        after.outside = middle.outside := by
    rcases Job.cases_of_runOn_bind h with ⟨fault, hrun, rfl⟩ | ⟨_, middle, hrun, hlog⟩
    · exact ⟨_, _, hrun, rfl, rfl⟩
    · cases hlog
      exact ⟨_, _, hrun, rfl, rfl⟩
  obtain ⟨_, middle, hrun, rfl, houtside⟩ := hdelete
  obtain ⟨new, hseen, hnew⟩ := exists_of_runOn_deleteRules client resources _ hnodup hrun
  rw [← houtside] at hseen
  have htried : (Platform.azure client resources location).GroupTried new group := by
    obtain ⟨e, he⟩ := List.exists_mem_of_ne_nil new (hnew.tried (by decide))
    obtain ⟨rule, -, answer, rfl⟩ := hnew.about e he
    exact ⟨rule.name, answer, he⟩
  have habout : ∀ e ∈ new, e.group? = some (some group) := by
    intro e he
    obtain ⟨rule, -, answer, rfl⟩ := hnew.about e he
    rfl
  rcases hnew.ends with ⟨hok, htaken, hgone⟩ | ⟨rule, hrule, failure, hmem, hfailure, hnot, hend⟩
  · refine ⟨new, hseen, ⟨habout, htried, iff_of_true htaken ?_⟩, .inl ⟨hok, htaken⟩⟩
    rintro ⟨name, failure, hmem, hfailure⟩
    rw [hgone name failure hmem] at hfailure
    cases hfailure
  · have hleft : ¬ (Platform.azure client resources location).GroupGone new group := by
      intro hgone
      obtain ⟨e, he, htakes⟩ := hgone rule hrule
      rw [hnot e he] at htakes
      cases htakes
    obtain ⟨fault, hfault, hreason⟩ := hend
    refine ⟨new, hseen, ⟨habout, htried, iff_of_false hleft fun hnone => ?_⟩,
      .inr ⟨fault, hfault, hleft, hreason.imp_right fun hunexpected => ⟨_, hmem, hunexpected⟩⟩⟩
    exact hnone ⟨rule.name, failure, hmem, hfailure⟩

/-- **A deletion ends well exactly if the group went away.** If it does not, the fault is one of the
provider, or there was an answer that the operation is not prepared for. -/
theorem cases_of_runOn_delete (platform : Platform σ)
    (h : (platform.watched.provider.delete (some group)).runOn host = (outcome, after)) :
    ∃ new, after.outside.seen = host.outside.seen ++ new ∧ Attempt platform group new ∧
      ((outcome = .ok () ∧ platform.GroupGone new group) ∨
        ∃ fault, outcome = .error fault ∧ ¬ platform.GroupGone new group ∧
          (fault.isOf .provider = true ∨ ∃ e ∈ new, e.isHandled = false)) := by
  cases platform with
  | ec2 client network => exact Ec2.cases_of_runOn_delete client network h
  | azure client resources location =>
    exact Nsg.cases_of_runOn_delete client resources location h

/-- An attempt is told by the exchanges about the group alone. -/
theorem Attempt.congr {platform : Platform σ} {seen : List Exchange}
    (h : Attempt platform group new)
    (hseen : ∀ e, e.group? = some (some group) → (e ∈ seen ↔ e ∈ new)) :
    platform.GroupTried seen group ∧ (platform.GroupGone seen group ↔
      ¬ platform.GroupRefused seen group) := by
  rw [Platform.groupTried_congr hseen, Platform.groupGone_congr hseen,
    Platform.groupRefused_congr hseen]
  exact ⟨h.tried, h.gone_iff⟩

end Delete

end NodeLedger.Cloud
