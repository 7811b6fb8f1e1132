import NodeLedger.Proofs.Cloud.Gone

/-!
# Rules that are taken away on Azure

A deletion of a group takes the rules of the policy away one by one, and it stops at the first one
that the service refuses to take away. So a group may be left with some of the rules, and the next
deletion meets rules that are gone already. What holds in between is told by the exchanges: whatever
was taken away, or found to be gone, is not there any more.

- `Removes`: what is known of the service. A rule that is absent is not found; one that is present is
  taken away, or the request fails and nothing changes.
- `Sound`: what the exchanges tell of the rules of a group.
- `sound_deleteRule`: **one request keeps it so**.
- `maintains_delete`, `maintains_terminate`: **so do the operations**.
- `OneGroup`: a service with one group, some of whose deletions are refused.
-/

namespace NodeLedger.Cloud.Nsg

open Policy

section Removal

variable {σ : Type} {client : Client σ} {resources name : String} {rules : σ → CodeText → List NsgRule}
  {group other : CodeText} {others : List NsgRule}

/-- What is known of a service whose states have groups with rules. A rule that is absent is not found;
one that is present is taken away, or the request fails and nothing changes. No other group has a part
in it. A machine that is deleted changes no rule, whether its deletion succeeds or fails. -/
structure Removes (client : Client σ) (resources : String) (rules : σ → CodeText → List NsgRule) :
    Prop where
  absent : ∀ group name state, (∀ rule ∈ rules state group, rule.name ≠ some name) →
    ∃ fault after, Ask.finished (client.deleteRule resources (some group) name) state
        = (.error fault, after) ∧ isNotFound fault = true ∧ rules after = rules state
  present : ∀ group name state, (∃ rule ∈ rules state group, rule.name = some name) →
    ∃ answer after, Ask.finished (client.deleteRule resources (some group) name) state
        = (answer, after) ∧
      ((answer = .ok () ∧
          rules after group = (rules state group).filter (fun rule => rule.name ≠ some name) ∧
          ∀ other, other ≠ group → rules after other = rules state other) ∨
        ∃ fault, answer = .error fault ∧ isResponseFault fault = true ∧ isNotFound fault = false ∧
          rules after = rules state)
  machine : ∀ machine state, ∃ answer after,
    Ask.finished (client.deleteMachine resources machine) state = (answer, after) ∧
      rules after = rules state ∧ ∀ fault, answer = .error fault → isResponseFault fault = true

theorem isResponseFault_of_isNotFound {fault : OutsideFault} (h : isNotFound fault = true) :
    isResponseFault fault = true := by
  cases fault with
  | response kind detail => rfl
  | _ => simp [isNotFound] at h

/-- **What one request does**: it fails with an answer of the service at most, it changes a group only
by taking the rule away, and the rule is not there after it was taken away or found to be gone. -/
theorem Removes.step (h : Removes client resources rules) (group : CodeText) (name : String)
    (state : σ) :
    let result := Ask.finished (client.deleteRule resources (some group) name) state
    (∀ fault, result.1 = .error fault → isResponseFault fault = true) ∧
      (∀ other, rules result.2 other = rules state other ∨ other = group ∧
        rules result.2 other = (rules state other).filter (fun rule => rule.name ≠ some name)) ∧
      ((∀ fault, result.1 = .error fault → isNotFound fault = true) →
        ∀ rule ∈ rules result.2 group, rule.name ≠ some name) := by
  by_cases hpresent : ∃ rule ∈ rules state group, rule.name = some name
  · obtain ⟨answer, after, heq, ⟨rfl, htaken, hother⟩ | ⟨fault, rfl, hresponse, hfound, hsame⟩⟩ :=
      h.present group name state hpresent
    · rw [heq]
      refine ⟨fun fault hfault => ?_, fun other => ?_, fun _ rule hrule => ?_⟩
      · cases hfault
      · by_cases hgroup : other = group
        · exact .inr ⟨hgroup, hgroup ▸ htaken⟩
        · exact .inl (hother other hgroup)
      · rw [htaken, List.mem_filter, decide_eq_true_eq] at hrule
        exact hrule.2
    · rw [heq]
      refine ⟨fun other hfault => ?_, fun other => .inl (congrFun hsame other), fun hgone => ?_⟩
      · cases hfault
        exact hresponse
      · rw [hgone fault rfl] at hfound
        cases hfound
  · have habsent : ∀ rule ∈ rules state group, rule.name ≠ some name := fun rule hrule hname =>
      hpresent ⟨rule, hrule, hname⟩
    obtain ⟨fault, after, heq, hfound, hsame⟩ := h.absent group name state habsent
    rw [heq]
    refine ⟨fun other hfault => ?_, fun other => .inl (congrFun hsame other), fun _ rule hrule => ?_⟩
    · cases hfault
      exact isResponseFault_of_isNotFound hfound
    · rw [hsame] at hrule
      exact habsent rule hrule

/-! ## What the exchanges tell -/

/-- The rule goes by the name of one of the policy. -/
def isOfPolicy (rule : NsgRule) : Bool :=
  azureRules.any fun required => rule.name == some required.name

/-- What the exchanges tell of a group: the operations are prepared for all answers, the rules that are
not of the policy are those that it had, and what was taken away or gone is not there. -/
structure Sound (rules : σ → CodeText → List NsgRule) (group : CodeText) (others : List NsgRule)
    (watched : Watched σ) : Prop where
  handled : ∀ e ∈ watched.seen, e.isHandled = true
  others : ((rules watched.state group).filter fun rule => !isOfPolicy rule) = others
  taken : ∀ name, (∃ e ∈ watched.seen, e.takesRule (some group) name = true) →
    ∀ rule ∈ rules watched.state group, rule.name ≠ some name

theorem filter_filter_of_isOfPolicy {required : RequiredRule} (hrequired : required ∈ azureRules)
    (all : List NsgRule) :
    ((all.filter fun rule => rule.name ≠ some required.name).filter fun rule => !isOfPolicy rule)
      = all.filter fun rule => !isOfPolicy rule := by
  rw [List.filter_filter]
  refine List.filter_congr fun rule _ => ?_
  by_cases hname : rule.name = some required.name
  · have hpolicy : isOfPolicy rule = true :=
      List.any_eq_true.2 ⟨required, hrequired, by rw [hname, beq_self_eq_true]⟩
    simp [hpolicy]
  · simp [hname]

/-- **One request keeps it so.** -/
theorem sound_deleteRule (h : Removes client resources rules) {required : RequiredRule}
    (hrequired : required ∈ azureRules) {watched : Watched σ} (hsound : Sound rules group others watched) :
    Sound rules group others (watch (fun answer => [.deleteRule (some other) required.name answer])
      (Ask.finished (client.deleteRule resources (some other) required.name)) watched).2 := by
  obtain ⟨hresponse, hrules, hgone⟩ := h.step other required.name watched.state
  rw [watch]
  generalize Ask.finished (client.deleteRule resources (some other) required.name) watched.state
    = result at hresponse hrules hgone
  have hsubset : ∀ rule ∈ rules result.2 group, rule ∈ rules watched.state group := by
    intro rule hrule
    rcases hrules group with heq | ⟨-, heq⟩
    · rwa [heq] at hrule
    · rw [heq] at hrule
      exact (List.mem_filter.1 hrule).1
  constructor
  case handled =>
    intro e he
    rcases List.mem_append.1 he with he | he
    · exact hsound.handled e he
    · cases List.mem_singleton.1 he
      cases hanswer : result.1 with
      | ok _ => rfl
      | error fault => exact hresponse fault hanswer
  case others =>
    rcases hrules group with heq | ⟨-, heq⟩
    · exact (congrArg _ heq).trans hsound.others
    · exact (congrArg _ heq).trans ((filter_filter_of_isOfPolicy hrequired _).trans hsound.others)
  case taken =>
    rintro name ⟨e, he, htakes⟩ rule hrule
    rcases List.mem_append.1 he with he | he
    · exact hsound.taken name ⟨e, he, htakes⟩ rule (hsubset rule hrule)
    · cases List.mem_singleton.1 he
      obtain ⟨hgroup, rfl, hfound⟩ := Exchange.takesRule_deleteRule_iff.1 htakes
      cases hgroup
      exact hgone hfound rule hrule

theorem sound_deleteMachine (h : Removes client resources rules) {machine : CodeText}
    {watched : Watched σ} (hsound : Sound rules group others watched) :
    Sound rules group others (watch (fun answer => [.deleteMachine machine answer])
      (Ask.finished (client.deleteMachine resources machine)) watched).2 := by
  obtain ⟨answer, after, heq, hsame, hresponse⟩ := h.machine machine watched.state
  rw [watch, heq]
  constructor
  case handled =>
    intro e he
    rcases List.mem_append.1 he with he | he
    · exact hsound.handled e he
    · cases List.mem_singleton.1 he
      cases answer with
      | ok _ => rfl
      | error fault => exact hresponse fault rfl
  case others => exact (congrArg _ (congrFun hsame group)).trans hsound.others
  case taken =>
    rintro name ⟨e, he, htakes⟩ rule hrule
    rcases List.mem_append.1 he with he | he
    · exact hsound.taken name ⟨e, he, htakes⟩ rule (by rwa [← hsame])
    · cases List.mem_singleton.1 he
      cases htakes

/-- **A deletion of rules keeps it so**, wherever it stops. -/
theorem maintains_deleteRules (h : Removes client resources rules) {required : List RequiredRule}
    (hrequired : ∀ rule ∈ required, rule ∈ azureRules) :
    (deleteRules client.watched resources (some other) required).Maintains
      (Sound rules group others) := by
  induction required with
  | nil => exact (Job.keeps_pure _).maintains
  | cons first required ih =>
    obtain ⟨hfirst, hrest⟩ := List.forall_mem_cons.1 hrequired
    rw [deleteRules, Client.finished_watched_deleteRule]
    refine Job.maintains_ask_bind (fun watched => sound_deleteRule h hfirst) (fun _ => ih hrest)
      fun fault => Job.maintains_ite ?_ (Job.keeps_throw _).maintains
    exact Job.maintains_bind (Job.keepsOutside_log _ _).maintains fun _ => ih hrest

/-- **Deleting a group keeps it so.** -/
theorem maintains_delete (h : Removes client resources rules) (location : Option String) :
    ((Platform.azure client resources location).watched.provider.delete (some other)).Maintains
      (Sound rules group others) :=
  Job.maintains_bind (maintains_deleteRules h fun _ hrule => hrule) fun _ =>
    (Job.keepsOutside_log _ _).maintains

/-- **Terminating instances keeps it so.** -/
theorem maintains_terminate (h : Removes client resources rules) (location : Option String)
    (machines : List CodeText) :
    ((Platform.azure client resources location).watched.provider.terminate machines).Maintains
      (Sound rules group others) := by
  show (terminate client.watched resources machines).Maintains _
  rw [terminate_eq]
  simp only [Client.finished_watched_deleteMachine]
  induction machines with
  | nil => exact (Job.keeps_pure _).maintains
  | cons machine machines ih =>
    refine Job.maintains_ask_bind (fun watched => sound_deleteMachine h)
      (fun _ => Job.maintains_bind ih fun _ => (Job.keeps_pure _).maintains)
      fun fault => Job.maintains_ite ?_ (Job.keeps_throw _).maintains
    exact Job.maintains_bind (Job.keepsOutside_log _ _).maintains fun _ => ih

/-- A group that went away has no rule of the policy. -/
theorem Sound.isOfPolicy_eq_false {watched : Watched σ} (h : Sound rules group others watched)
    {location : Option String}
    (hgone : (Platform.azure client resources location).GroupGone watched.seen group) :
    ∀ rule ∈ rules watched.state group, isOfPolicy rule = false := by
  intro rule hrule
  rw [Bool.eq_false_iff]
  intro hpolicy
  obtain ⟨required, hrequired, hname⟩ := List.any_eq_true.1 hpolicy
  exact h.taken required.name (hgone required hrequired) rule hrule (beq_iff_eq.1 hname)

end Removal

/-! ## A service with one group -/

/-- A group of rules, and which of the next deletions are refused. -/
structure OneGroup where
  rules : List NsgRule
  refusals : List Bool
  deriving DecidableEq

namespace OneGroup

/-- The rules of a group, if it is the one that there is. -/
def rulesOf (group : CodeText) (state : OneGroup) (other : CodeText) : List NsgRule :=
  if other = group then state.rules else []

/-- Take a rule away, unless that is refused. -/
def takeRule (group : CodeText) (identifier : GroupId) (name : String) : Ask OneGroup Unit := fun state =>
  if identifier = some group ∧ ∃ rule ∈ state.rules, rule.name = some name then
    if state.refusals.head? = some true then
      (.error (.response .general "conflict"), ⟨state.rules, state.refusals.tail⟩)
    else (.ok (), ⟨state.rules.filter fun rule => rule.name ≠ some name, state.refusals.tail⟩)
  else (.error (.response .notFound "the rule does not exist"), state)

/-- The requests that take something away. The service answers nothing else. -/
def client (group : CodeText) : Client OneGroup where
  getGroup _ _ state := (.error (.response .notAuthenticated "no identity"), state)
  createGroup _ _ _ state := (.error (.response .notAuthenticated "no identity"), state)
  updateRule _ _ _ _ state := (.error (.response .notAuthenticated "no identity"), state)
  deleteRule _ identifier name state := (.ok (takeRule group identifier name), state)
  deleteMachine _ _ state := (.ok fun last => (.ok (), last), state)

theorem removes (group : CodeText) (resources : String) :
    Removes (client group) resources (rulesOf group) where
  absent other name state habsent := by
    refine ⟨_, state, if_neg ?_, rfl, rfl⟩
    rintro ⟨hgroup, rule, hrule, hname⟩
    cases hgroup
    exact habsent rule (by rwa [rulesOf, if_pos rfl]) hname
  present other name state hpresent := by
    obtain ⟨rule, hrule, hname⟩ := hpresent
    obtain rfl : other = group := by
      by_contra hgroup
      rw [rulesOf, if_neg hgroup] at hrule
      exact List.not_mem_nil hrule
    rw [rulesOf, if_pos rfl] at hrule
    have htake : takeRule other (some other) name state
        = if state.refusals.head? = some true then
            (.error (.response .general "conflict"), ⟨state.rules, state.refusals.tail⟩)
          else (.ok (), ⟨state.rules.filter fun rule => rule.name ≠ some name, state.refusals.tail⟩) :=
      if_pos ⟨rfl, rule, hrule, hname⟩
    by_cases hrefused : state.refusals.head? = some true
    · rw [if_pos hrefused] at htake
      exact ⟨_, _, htake, .inr ⟨_, rfl, rfl, rfl, rfl⟩⟩
    · rw [if_neg hrefused] at htake
      refine ⟨_, _, htake, .inl ⟨rfl, ?_, fun group hgroup => ?_⟩⟩
      · rw [rulesOf, rulesOf, if_pos rfl, if_pos rfl]
      · rw [rulesOf, rulesOf, if_neg hgroup, if_neg hgroup]
  machine machine state := by
    refine ⟨.ok (), state, rfl, rfl, fun fault hfault => ?_⟩
    cases hfault

end OneGroup

end NodeLedger.Cloud.Nsg
