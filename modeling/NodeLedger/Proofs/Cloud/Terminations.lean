import NodeLedger.Proofs.Cloud.Gone
import NodeLedger.Proofs.Cloud.Requests

/-!
# Terminations and what was exchanged for them

The instances that a termination reports are those for which every request succeeded. This is read
off the exchanges of the run, item by item, so it does not matter which of the other items failed: in
particular every accepted termination is waited for, whatever became of the earlier waits.

- `cases_of_runOn_collect`: what is exchanged when there is one request for each item.
- `cases_of_runOn_terminate`: **the instances that are reported are those that went away**.
-/

namespace NodeLedger.Cloud

open Job Policy

/-! ## One request for each item -/

section Collect

variable {σ : Type} {exchange : CodeText → Except OutsideFault Unit → Exchange}
  {request : CodeText → Ask σ Unit} {isExpected : OutsideFault → Bool}
  {wording : CodeText → OutsideFault → CodeText} {item : CodeText} {items : List CodeText}
  {new : List Exchange} {answer : Except OutsideFault Unit} {host after : Host (Watched σ)}

/-- A request that is noted has an answer, and the witness has seen it. -/
theorem exists_runOn_ask_watch {α : Type} (note : Except OutsideFault α → List Exchange)
    (request : Ask σ α) (host : Host (Watched σ)) :
    ∃ answer state, (Job.ask (watch note request)).runOn host =
      (.ok answer, { host with outside := ⟨state, host.outside.seen ++ note answer⟩ }) :=
  ⟨_, _, rfl⟩

/-- The exchange about another item does not matter for the items that succeeded. -/
theorem filter_ok_cons
    (hinj : ∀ {m a m' a'}, exchange m a = exchange m' a' → m = m' ∧ a = a')
    (hitem : item ∉ items) (hnew : ∀ e ∈ new, ∃ m ∈ items, ∃ a, e = exchange m a) :
    ((item :: items).filter fun m => exchange m (.ok ()) ∈ exchange item answer :: new) =
      if answer = .ok () then item :: items.filter fun m => exchange m (.ok ()) ∈ new
      else items.filter fun m => exchange m (.ok ()) ∈ new := by
  have hrest : (items.filter fun m => exchange m (.ok ()) ∈ exchange item answer :: new)
      = items.filter fun m => exchange m (.ok ()) ∈ new := by
    refine List.filter_congr fun m hm => decide_eq_decide.2 ?_
    rw [List.mem_cons, or_iff_right]
    intro heq
    exact hitem ((hinj heq).1 ▸ hm)
  have hhead : exchange item (.ok ()) ∈ exchange item answer :: new ↔ answer = .ok () := by
    rw [List.mem_cons, or_iff_left]
    · exact ⟨fun heq => (hinj heq).2.symm, fun heq => by rw [heq]⟩
    · intro hmem
      obtain ⟨m, hm, a, heq⟩ := hnew _ hmem
      exact hitem ((hinj heq).1 ▸ hm)
  rw [List.filter_cons, hrest]
  by_cases hok : answer = .ok ()
  · rw [if_pos (decide_eq_true (hhead.2 hok)), if_pos hok]
  · rw [if_neg (by simpa using mt hhead.1 hok), if_neg hok]

/-- The exchange about an item comes before those about the others. -/
theorem forall_mem_cons_about (hnew : ∀ e ∈ new, ∃ m ∈ items, ∃ a, e = exchange m a) :
    ∀ e ∈ exchange item answer :: new, ∃ m ∈ item :: items, ∃ a, e = exchange m a := by
  refine List.forall_mem_cons.2 ⟨⟨item, List.mem_cons_self, answer, rfl⟩, fun e he => ?_⟩
  obtain ⟨m, hm, a, rfl⟩ := hnew e he
  exact ⟨m, List.mem_cons_of_mem _ hm, a, rfl⟩

theorem forall_mem_cons_tried (htried : ∀ m ∈ items, ∃ a, exchange m a ∈ new) :
    ∀ m ∈ item :: items, ∃ a, exchange m a ∈ exchange item answer :: new := by
  refine List.forall_mem_cons.2 ⟨⟨answer, List.mem_cons_self⟩, fun m hm => ?_⟩
  obtain ⟨a, ha⟩ := htried m hm
  exact ⟨a, List.mem_cons_of_mem _ ha⟩

/-- **What is exchanged when there is one request for each item.** If the job ends well, there was an
answer for each item, and the items of the successes are returned; otherwise there was a failure that
is not expected. -/
theorem cases_of_runOn_collect
    (hinj : ∀ {m a m' a'}, exchange m a = exchange m' a' → m = m' ∧ a = a')
    (hnodup : items.Nodup) {outcome : Except Fault (List CodeText)}
    (h : (collect (fun m => watch (fun a => [exchange m a]) (request m)) isExpected wording
      items).runOn host = (outcome, after)) :
    ∃ new, after.outside.seen = host.outside.seen ++ new ∧
      (∀ e ∈ new, ∃ m ∈ items, ∃ a, e = exchange m a) ∧
      ((outcome = .ok (items.filter fun m => exchange m (.ok ()) ∈ new) ∧
          ∀ m ∈ items, ∃ a, exchange m a ∈ new) ∨
        (∃ fault, outcome = .error fault) ∧
          ∃ m fault, exchange m (.error fault) ∈ new ∧ isExpected fault = false) := by
  induction items generalizing host outcome with
  | nil =>
    cases h
    exact ⟨[], (List.append_nil _).symm, List.forall_mem_nil _, .inl ⟨rfl, List.forall_mem_nil _⟩⟩
  | cons item items ih =>
    obtain ⟨hitem, hitems⟩ := List.nodup_cons.1 hnodup
    obtain ⟨answer, state, hask⟩ :=
      exists_runOn_ask_watch (fun a => [exchange item a]) (request item) host
    rw [collect, Job.runOn_bind_of_ok hask] at h
    -- What is exchanged about the rest of the items comes after the exchange about this one.
    have hseen : ∀ {rest : List Exchange},
        after.outside.seen = (host.outside.seen ++ [exchange item answer]) ++ rest →
        after.outside.seen = host.outside.seen ++ exchange item answer :: rest := fun heq => by
      rw [heq, List.append_assoc, List.singleton_append]
    cases answer with
    | ok _ =>
      rcases Job.cases_of_runOn_bind h with ⟨fault, hrun, rfl⟩ | ⟨rest, middle, hrun, hreturn⟩
      · obtain ⟨new, hrest, hnew, ⟨hok, -⟩ | ⟨-, m, failure, hmem, hunexpected⟩⟩ := ih hitems hrun
        · cases hok
        · exact ⟨_, hseen hrest, forall_mem_cons_about hnew,
            .inr ⟨⟨fault, rfl⟩, m, failure, List.mem_cons_of_mem _ hmem, hunexpected⟩⟩
      · cases hreturn
        obtain ⟨new, hrest, hnew, ⟨hok, htried⟩ | ⟨⟨fault, hfault⟩, -⟩⟩ := ih hitems hrun
        · cases hok
          refine ⟨_, hseen hrest, forall_mem_cons_about hnew, .inl ⟨?_, forall_mem_cons_tried htried⟩⟩
          rw [filter_ok_cons hinj hitem hnew, if_pos rfl]
        · cases hfault
    | error failure =>
      dsimp only at h
      split at h
      · -- The failure is expected, and the rest of the items decides how the job ends.
        rw [Job.runOn_bind_of_ok (Job.runOn_log _ _ _)] at h
        obtain ⟨new, hrest, hnew, hend⟩ := ih hitems h
        refine ⟨_, hseen hrest, forall_mem_cons_about hnew, ?_⟩
        rcases hend with ⟨rfl, htried⟩ | ⟨hfault, m, failure', hmem, hunexpected⟩
        · refine .inl ⟨?_, forall_mem_cons_tried htried⟩
          rw [filter_ok_cons hinj hitem hnew, if_neg]
          intro heq
          cases heq
        · exact .inr ⟨hfault, m, failure', List.mem_cons_of_mem _ hmem, hunexpected⟩
      · rename_i hunexpected
        cases h
        exact ⟨_, hseen (List.append_nil _).symm, forall_mem_cons_about (List.forall_mem_nil _),
          .inr ⟨⟨_, rfl⟩, item, failure, List.mem_singleton_self _, Bool.eq_false_iff.2 hunexpected⟩⟩

theorem ok_of_runOn_collect
    (hinj : ∀ {m a m' a'}, exchange m a = exchange m' a' → m = m' ∧ a = a')
    (hnodup : items.Nodup) {result : List CodeText}
    (h : (collect (fun m => watch (fun a => [exchange m a]) (request m)) isExpected wording
      items).runOn host = (.ok result, after)) :
    ∃ new, after.outside.seen = host.outside.seen ++ new ∧
      (∀ e ∈ new, ∃ m ∈ items, ∃ a, e = exchange m a) ∧
      (result = items.filter fun m => exchange m (.ok ()) ∈ new) ∧
        ∀ m ∈ items, ∃ a, exchange m a ∈ new := by
  obtain ⟨new, hseen, hnew, ⟨hok, htried⟩ | ⟨⟨fault, hfault⟩, -⟩⟩ :=
    cases_of_runOn_collect hinj hnodup h
  · exact ⟨new, hseen, hnew, Except.ok.inj hok, htried⟩
  · cases hfault

theorem error_of_runOn_collect
    (hinj : ∀ {m a m' a'}, exchange m a = exchange m' a' → m = m' ∧ a = a')
    (hnodup : items.Nodup) {fault : Fault}
    (h : (collect (fun m => watch (fun a => [exchange m a]) (request m)) isExpected wording
      items).runOn host = (.error fault, after)) :
    ∃ new, after.outside.seen = host.outside.seen ++ new ∧
      (∀ e ∈ new, ∃ m ∈ items, ∃ a, e = exchange m a) ∧
        ∃ m fault, exchange m (.error fault) ∈ new ∧ isExpected fault = false := by
  obtain ⟨new, hseen, hnew, ⟨hok, -⟩ | ⟨-, hfailed⟩⟩ := cases_of_runOn_collect hinj hnodup h
  · cases hok
  · exact ⟨new, hseen, hnew, hfailed⟩

end Collect

/-! ## Instances -/

section Terminate

variable {σ : Type} {machines : List CodeText} {host after : Host (Watched σ)}
  {outcome : Except Fault (List CodeText)}

/-- A request whose failure is a fault has an answer, and the witness has seen it. -/
theorem cases_of_runOn_demand_watch {α : Type} {note : Except OutsideFault α → List Exchange}
    {request : Ask σ α} {outcome : Except Fault α}
    (h : (Job.demand (watch note request)).runOn host = (outcome, after)) :
    ∃ answer, after.outside.seen = host.outside.seen ++ note answer ∧
      ((∃ a, answer = .ok a ∧ outcome = .ok a) ∨
        ∃ failure, answer = .error failure ∧ ∃ fault, outcome = .error fault) := by
  obtain ⟨answer, state, hask⟩ := exists_runOn_ask_watch note request host
  rw [Job.demand, Job.runOn_bind_of_ok hask] at h
  cases answer with
  | ok a =>
    cases h
    exact ⟨.ok a, rfl, .inl ⟨a, rfl, rfl⟩⟩
  | error failure =>
    cases h
    exact ⟨.error failure, rfl, .inr ⟨failure, rfl, _, rfl⟩⟩

section Stages

/-! The exchanges of a termination on EC2 are the requests, getting ready to wait, and the waits. -/

variable {asked waited : List Exchange} {ready : Except OutsideFault Unit} {awaited : List CodeText}

theorem Ec2.group?_of_mem_stages (hasked : ∀ e ∈ asked, ∃ m ∈ machines, ∃ a, e = .terminate m a)
    (hwaited : ∀ e ∈ waited, ∃ m ∈ awaited, ∃ a, e = .wait m a) :
    ∀ e ∈ asked ++ .waiter ready :: waited, e.group? = none := by
  intro e he
  rcases List.mem_append.1 he with he | he
  · obtain ⟨m, -, a, rfl⟩ := hasked e he
    rfl
  · rcases List.mem_cons.1 he with rfl | he
    · rfl
    · obtain ⟨m, -, a, rfl⟩ := hwaited e he
      rfl

theorem Ec2.terminate_mem_stages_iff {machine : CodeText} {answer : Except OutsideFault Unit}
    (hwaited : ∀ e ∈ waited, ∃ m ∈ awaited, ∃ a, e = .wait m a) :
    Exchange.terminate machine answer ∈ asked ++ .waiter ready :: waited ↔
      Exchange.terminate machine answer ∈ asked := by
  rw [List.mem_append, List.mem_cons, or_iff_left]
  rintro (heq | he)
  · cases heq
  · obtain ⟨_, -, _, heq⟩ := hwaited _ he
    cases heq

theorem Ec2.wait_mem_stages_iff {machine : CodeText} {answer : Except OutsideFault Unit}
    (hasked : ∀ e ∈ asked, ∃ m ∈ machines, ∃ a, e = .terminate m a) :
    Exchange.wait machine answer ∈ asked ++ .waiter ready :: waited ↔
      Exchange.wait machine answer ∈ waited := by
  rw [List.mem_append, List.mem_cons, or_iff_right, or_iff_right]
  · intro heq
    cases heq
  · intro he
    obtain ⟨_, -, _, heq⟩ := hasked _ he
    cases heq

/-- If everything that was requested was waited for, the instances whose wait succeeded are those that
went away, and each was tried. -/
theorem Ec2.gone_of_stages (client : Client σ) (network : Option String)
    (ready : Except OutsideFault Unit)
    (hasked : ∀ e ∈ asked, ∃ m ∈ machines, ∃ a, e = .terminate m a)
    (htried : ∀ m ∈ machines, ∃ a, .terminate m a ∈ asked)
    (hwaited : ∀ e ∈ waited, ∃ m ∈ awaited, ∃ a, e = .wait m a)
    (hawaited : ∀ m ∈ machines.filter fun m => Exchange.terminate m (.ok ()) ∈ asked,
      ∃ a, .wait m a ∈ waited) :
    (machines.filter fun m => Exchange.terminate m (.ok ()) ∈ asked).filter
          (fun m => Exchange.wait m (.ok ()) ∈ waited)
        = machines.filter (fun m =>
            (Platform.ec2 client network).InstanceGone (asked ++ .waiter ready :: waited) m) ∧
      ∀ m ∈ machines,
        (Platform.ec2 client network).InstanceTried (asked ++ .waiter ready :: waited) m := by
  constructor
  · rw [List.filter_filter]
    refine List.filter_congr fun m _ => ?_
    rw [← Bool.decide_and, decide_eq_decide]
    show _ ↔ Exchange.terminate m (.ok ()) ∈ _ ∧ Exchange.wait m (.ok ()) ∈ _
    rw [terminate_mem_stages_iff hwaited, wait_mem_stages_iff hasked, and_comm]
  · intro m hm
    constructor
    · obtain ⟨a, ha⟩ := htried m hm
      exact ⟨a, (terminate_mem_stages_iff hwaited).2 ha⟩
    · intro haccepted
      rw [terminate_mem_stages_iff hwaited] at haccepted
      obtain ⟨a, ha⟩ := hawaited m (List.mem_filter.2 ⟨hm, decide_eq_true haccepted⟩)
      exact ⟨a, (wait_mem_stages_iff hasked).2 ha⟩

end Stages

theorem Ec2.cases_of_runOn_terminate (client : Client σ) (network : Option String)
    (hnodup : machines.Nodup)
    (h : (terminate client.watched machines).runOn host = (outcome, after)) :
    ∃ new, after.outside.seen = host.outside.seen ++ new ∧ (∀ e ∈ new, e.group? = none) ∧
      ((outcome = .ok (machines.filter fun m => (Platform.ec2 client network).InstanceGone new m) ∧
          ∀ m ∈ machines, (Platform.ec2 client network).InstanceTried new m) ∨
        (∃ fault, outcome = .error fault) ∧ ∃ e ∈ new, e.isHandled = false) := by
  have hterminate : ∀ {m a m' a'}, Exchange.terminate m a = .terminate m' a' → m = m' ∧ a = a' :=
    fun heq => Exchange.terminate.inj heq
  have hwait : ∀ {m a m' a'}, Exchange.wait m a = .wait m' a' → m = m' ∧ a = a' :=
    fun heq => Exchange.wait.inj heq
  rw [terminate, requestTermination_eq, Client.watched_terminate] at h
  rcases Job.cases_of_runOn_bind h with ⟨fault, hrequest, rfl⟩ | ⟨requested, middle, hrequest, h⟩
  · -- A termination could not be requested.
    obtain ⟨asked, hseen, hasked, m, failure, hmem, hunexpected⟩ :=
      error_of_runOn_collect hterminate hnodup hrequest
    refine ⟨asked, hseen, fun e he => ?_, .inr ⟨⟨fault, rfl⟩, _, hmem, hunexpected⟩⟩
    obtain ⟨m, -, a, rfl⟩ := hasked e he
    rfl
  obtain ⟨asked, hseenAsked, hasked, rfl, htried⟩ := ok_of_runOn_collect hterminate hnodup hrequest
  rw [Client.watched_waiter] at h
  rcases Job.cases_of_runOn_bind h with ⟨fault, hready, rfl⟩ | ⟨_, middle', hready, h⟩
  · -- Getting ready to wait failed.
    obtain ⟨ready, hseen, ⟨a, -, hok⟩ | ⟨failure, rfl, -⟩⟩ := cases_of_runOn_demand_watch hready
    · cases hok
    · have hnone : ∀ e ∈ ([] : List Exchange), ∃ m ∈ machines, ∃ a, e = .wait m a :=
        List.forall_mem_nil _
      exact ⟨_, by rw [hseen, hseenAsked, List.append_assoc], group?_of_mem_stages hasked hnone,
        .inr ⟨⟨fault, rfl⟩, _, List.mem_append_right _ (List.mem_singleton_self _), rfl⟩⟩
  obtain ⟨ready, hseenReady, -⟩ := cases_of_runOn_demand_watch hready
  rw [awaitTermination_eq, Client.watched_wait] at h
  have hnodup' := hnodup.filter fun m => Exchange.terminate m (.ok ()) ∈ asked
  have hseen : ∀ {waited}, after.outside.seen = middle'.outside.seen ++ waited →
      after.outside.seen = host.outside.seen ++ (asked ++ .waiter ready :: waited) := by
    intro waited hwaited
    rw [hwaited, hseenReady, hseenAsked, List.append_assoc, List.append_assoc]
    rfl
  cases outcome with
  | error fault =>
    obtain ⟨waited, hseenWaited, hwaited, m, failure, hmem, hunexpected⟩ :=
      error_of_runOn_collect hwait hnodup' h
    exact ⟨_, hseen hseenWaited, group?_of_mem_stages hasked hwaited, .inr ⟨⟨fault, rfl⟩, _,
      List.mem_append_right _ (List.mem_cons_of_mem _ hmem), hunexpected⟩⟩
  | ok result =>
    obtain ⟨waited, hseenWaited, hwaited, rfl, hawaited⟩ := ok_of_runOn_collect hwait hnodup' h
    obtain ⟨hgone, hall⟩ := gone_of_stages client network ready hasked htried hwaited hawaited
    exact ⟨_, hseen hseenWaited, group?_of_mem_stages hasked hwaited,
      .inl ⟨congrArg Except.ok hgone, hall⟩⟩

theorem Nsg.cases_of_runOn_terminate (client : Client σ) (resources : String)
    (location : Option String) (hnodup : machines.Nodup)
    (h : (terminate client.watched resources machines).runOn host = (outcome, after)) :
    ∃ new, after.outside.seen = host.outside.seen ++ new ∧ (∀ e ∈ new, e.group? = none) ∧
      ((outcome = .ok (machines.filter fun m =>
            (Platform.azure client resources location).InstanceGone new m) ∧
          ∀ m ∈ machines, (Platform.azure client resources location).InstanceTried new m) ∨
        (∃ fault, outcome = .error fault) ∧ ∃ e ∈ new, e.isHandled = false) := by
  have hdelete : ∀ {m a m' a'}, Exchange.deleteMachine m a = .deleteMachine m' a' →
      m = m' ∧ a = a' := fun heq => Exchange.deleteMachine.inj heq
  rw [terminate_eq] at h
  simp only [Client.finished_watched_deleteMachine] at h
  obtain ⟨new, hseen, hnew, hend⟩ := cases_of_runOn_collect hdelete hnodup h
  refine ⟨new, hseen, fun e he => ?_, ?_⟩
  · obtain ⟨m, -, a, rfl⟩ := hnew e he
    rfl
  rcases hend with ⟨hok, htried⟩ | ⟨hfault, m, failure, hmem, hunexpected⟩
  · exact .inl ⟨hok, htried⟩
  · exact .inr ⟨hfault, _, hmem, hunexpected⟩

/-- **The instances that are reported are those that went away.** If their termination ends well, each
of them was tried; otherwise there was an answer that the operation is not prepared for. -/
theorem cases_of_runOn_terminate (platform : Platform σ) (hnodup : machines.Nodup)
    (h : (platform.watched.provider.terminate machines).runOn host = (outcome, after)) :
    ∃ new, after.outside.seen = host.outside.seen ++ new ∧ (∀ e ∈ new, e.group? = none) ∧
      ((outcome = .ok (machines.filter fun m => platform.InstanceGone new m) ∧
          ∀ m ∈ machines, platform.InstanceTried new m) ∨
        (∃ fault, outcome = .error fault) ∧ ∃ e ∈ new, e.isHandled = false) := by
  cases platform with
  | ec2 client network => exact Ec2.cases_of_runOn_terminate client network hnodup h
  | azure client resources location =>
    exact Nsg.cases_of_runOn_terminate client resources location hnodup h

end Terminate

end NodeLedger.Cloud
