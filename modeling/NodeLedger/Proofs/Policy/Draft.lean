import NodeLedger.Policy.Draft
import NodeLedger.Proofs.Json.Layout
import NodeLedger.Proofs.Policy.Relevance
import NodeLedger.Proofs.Sequence

/-!
# Plans for drafts

A file of rules holds drafts, whose sources may be anything. A draft of a rule behaves like the rule:
a policy asks of drafts of rules what it asks of the rules. Other drafts can stop a plan. They do so
only if a source that is no text has to be compared, and that is decided by what stands before it: the
first match ends a comparison.

- `ofDocument_document`, `readable_document`: drafts come back from their document.
- `plan_ofRule`: **a plan for drafts of rules is what the rules lack**.
- `reconcile_reconcile_nil`: **what is planned for no rules leaves nothing to plan**.
- `HaltsFor`, `plan_eq_error_iff`: **the drafts that stop a plan**; `not_haltsFor_of_texts`: drafts whose
  sources are texts do not.
-/

namespace NodeLedger.Policy

/-! ## Plans on plans -/

section Again

variable {policy : List RequiredRule} (requester network : String)

/-- For no rules a plan makes a new rule of every required rule. -/
theorem reconcile_nil (policy : List RequiredRule) :
    reconcile [] policy requester network
      = policy.map fun required => required.newRule (required.source requester network) := by
  rw [reconcile, ← List.filterMap_eq_map']
  refine List.filterMap_congr fun required _ => ?_
  rw [changeFor, List.any_nil, Bool.and_false]
  rfl

/-- **What is planned for no rules leaves nothing to plan**, if the names of the policy are
distinct. -/
theorem reconcile_reconcile_nil (h : (policy.map (·.name)).Nodup) :
    reconcile (reconcile [] policy requester network) policy requester network = [] := by
  have hnames : ((reconcile [] policy requester network).map (·.name)).Nodup :=
    nodup_names_reconcile h
  refine reconcile_eq_nil_iff.2 fun required hmem => .inr ?_
  refine ⟨required.newRule (required.source requester network), ?_,
    required.isSatisfiedBy_newRule _⟩
  refine (findByName_eq_some_iff_of_nodup hnames).2 ⟨?_, rfl⟩
  rw [reconcile_nil]
  exact List.mem_map.2 ⟨required, hmem, rfl⟩

end Again

namespace DraftRule

open Text

/-! ## Drafts as documents -/

section Documents

/-- A draft comes back from its JSON value. -/
theorem ofJson_json (draft : DraftRule) : ofJson (json draft) = .ok draft := by
  have hprotocol : protocolOf (.str draft.protocol.word) = .ok draft.protocol := by
    cases draft.protocol <;> rfl
  simp [json, ofJson, ofMembers, hprotocol, itemsOf, Json.plainText]
  rfl

/-- Drafts come back from their document. -/
theorem ofDocument_document (drafts : List DraftRule) : ofDocument (document drafts) = .ok drafts := by
  have hitems : (drafts.map json).mapM ofJson = .ok drafts := by
    induction drafts with
    | nil => rfl
    | cons draft drafts ih =>
      rw [List.map_cons, List.mapM_cons, ofJson_json, ih]
      rfl
  exact hitems

theorem optionalText_injective : Function.Injective optionalText := by
  intro s t h
  cases s <;> cases t <;> simp_all [optionalText]

theorem optionalInt_injective : Function.Injective optionalInt := by
  intro m n h
  cases m <;> cases n <;> simp_all [optionalInt]

/-- Different rules have different drafts. -/
theorem ofRule_injective : Function.Injective ofRule := by
  intro rule other h
  obtain ⟨hname, hprotocol, hsources, hports, hpriority⟩ := DraftRule.mk.inj h
  have htexts : Function.Injective fun s : String => Json.str (.ofString s) := fun s t heq =>
    CodeText.ofString_inj.1 (Json.str.inj heq)
  cases rule
  cases other
  rw [SecurityRule.mk.injEq]
  exact ⟨optionalText_injective hname, hprotocol, htexts.list_map hsources,
    CodeText.ofString_inj.1 hports, optionalInt_injective hpriority⟩

/-- The parts of the draft come back from their text, at the depth where they stand in a document. -/
structure Readable [Json.Nesting] (draft : DraftRule) : Prop where
  name : Json.Readable (Json.Nesting.limit - 2) draft.name
  sources : ∀ source ∈ draft.sources, Json.Readable (Json.Nesting.limit - 3) source
  ports : draft.ports.Unsplit
  priority : Json.Readable (Json.Nesting.limit - 2) draft.priority

theorem readable_text (depth : Nat) (s : String) : Json.Readable depth (.str s) :=
  .scalar (.str s (CodeText.unsplit_ofString s))

/-- The draft of a rule is readable if the priority is not too long. -/
theorem readable_ofRule [Json.Nesting] {rule : SecurityRule}
    (h : ∀ n ∈ rule.priority, (decimal n.natAbs).length ≤ digitLimit) : (ofRule rule).Readable where
  name := by
    cases hname : rule.name with
    | none => simpa [ofRule, hname, optionalText] using Json.Readable.scalar .null
    | some name => simpa [ofRule, hname, optionalText] using readable_text _ name
  sources source hsource := by
    obtain ⟨s, -, rfl⟩ := List.mem_map.1 hsource
    exact readable_text _ s
  ports := CodeText.unsplit_ofString _
  priority := by
    cases hpriority : rule.priority with
    | none => simpa [ofRule, hpriority, optionalInt] using Json.Readable.scalar .null
    | some n =>
      simpa [ofRule, hpriority, optionalInt] using Json.Readable.scalar (.int n (h n hpriority))

/-- A document of readable drafts can be read back. -/
theorem readable_document [Json.Nesting] {drafts : List DraftRule}
    (h : ∀ draft ∈ drafts, draft.Readable) :
    Json.Readable Json.Nesting.limit (document drafts) := by
  have hnames : ([CodeText.ofString "name", "protocol", "source_addresses", "destination_port_range",
      "priority"] : List CodeText).Nodup := by decide
  -- The document has three levels: the list, its drafts, and their sources.
  have henough : 3 ≤ Json.Nesting.limit := Json.Nesting.enough
  have hdrafts : Json.Nesting.limit - 2 = Json.Nesting.limit - 3 + 1 := by omega
  have hlimit : Json.Nesting.limit = Json.Nesting.limit - 2 + 1 + 1 := by omega
  rw [hlimit]
  refine .arr fun item hitem => ?_
  obtain ⟨draft, hdraft, rfl⟩ := List.mem_map.1 hitem
  refine .obj hnames (fun member hmember => ?_) fun member hmember => ?_
  · simp only [List.mem_cons, List.not_mem_nil, or_false] at hmember
    rcases hmember with rfl | rfl | rfl | rfl | rfl <;> exact CodeText.unsplit_ofString _
  · simp only [List.mem_cons, List.not_mem_nil, or_false] at hmember
    rcases hmember with rfl | rfl | rfl | rfl | rfl
    · exact (h draft hdraft).name
    · exact readable_text _ _
    · rw [hdrafts]
      exact .arr (h draft hdraft).sources
    · exact .scalar (.str _ (h draft hdraft).ports)
    · exact (h draft hdraft).priority

end Documents

/-! ## The two questions of a required rule -/

/-- Whether the network of a required rule is open; for any other required rule it is not. -/
def networkOpen (current : List DraftRule) (source : String) (required : RequiredRule) :
    Except SourceFault Bool :=
  if required.scope == .network then admitsNetwork source current else .ok false

/-- The change that the first draft of its name lacks for a required rule. -/
def changeByName (current : List DraftRule) (source : String) (required : RequiredRule) :
    Except SourceFault (Option DraftRule) := do
  match current.find? (·.isNamed required.name) with
  | none => return some (ofRule (required.newRule source))
  | some draft =>
    if ← draft.satisfies required source then return none
    else return some (← draft.updated required source)

/-- A required rule asks for its network first, and for its name only if the network is not open. -/
theorem changeFor_eq (current : List DraftRule) (requester network : String)
    (required : RequiredRule) :
    changeFor current requester network required
      = (do
        if ← networkOpen current (required.source requester network) required then return none
        else changeByName current (required.source requester network) required) := by
  rw [changeFor, networkOpen]
  split <;> rfl

/-! ## Drafts of rules -/

section Rules

variable (rule : SecurityRule) (rules : List SecurityRule) (required : RequiredRule)
  (source requester network : String)

theorem anyMatches_texts (sources : List String) :
    anyMatches source (sources.map (.str <| .ofString ·))
      = .ok (sources.any fun s => Address.canonical s == Address.canonical source) := by
  induction sources with
  | nil => rfl
  | cons s sources ih =>
    rw [List.map_cons, anyMatches, spells_ofString, List.any_cons]
    split
    · rename_i hmatch
      rw [hmatch, Bool.true_or]
    · rename_i hmatch
      rw [ih, Bool.eq_false_iff.2 hmatch, Bool.false_or]

theorem allows_ofRule : (ofRule rule).allows source = .ok (rule.allows source) :=
  anyMatches_texts source rule.sources

theorem anyAllows_ofRule :
    anyAllows source (rules.map ofRule) = .ok (rules.any (·.allows source)) := by
  induction rules with
  | nil => rfl
  | cons rule rules ih =>
    rw [List.map_cons, anyAllows, allows_ofRule, ih, List.any_cons]
    cases rule.allows source <;> rfl

theorem admitsNetwork_ofRule :
    admitsNetwork network (rules.map ofRule) = .ok (rules.any (·.admitsNetwork network)) := by
  have hfilter : (rules.map ofRule).filter (·.protocol == .all)
      = (rules.filter (·.protocol == .all)).map ofRule := List.filter_map
  rw [admitsNetwork, hfilter, anyAllows_ofRule, List.any_filter]
  rfl

theorem isNamed_ofRule (name : String) : (ofRule rule).isNamed name = (rule.name == some name) := by
  cases hname : rule.name with
  | none => simp [isNamed, ofRule, hname, optionalText, Json.str?]
  | some own => simp [isNamed, ofRule, hname, optionalText, Json.str?]

theorem find?_ofRule (name : String) :
    (rules.map ofRule).find? (·.isNamed name) = (findByName rules name).map ofRule := by
  rw [List.find?_map, findByName]
  congr 2
  funext rule
  exact isNamed_ofRule rule name

theorem satisfies_ofRule :
    (ofRule rule).satisfies required source = .ok (required.isSatisfiedBy rule source) := by
  have hprotocol : (ofRule rule).protocol = rule.protocol := rfl
  have hports : (ofRule rule).hasPorts required.ports = samePorts rule.ports required.ports := by
    simp [hasPorts, ofRule]
  rw [satisfies, isNamed_ofRule, hprotocol, hports, allows_ofRule, RequiredRule.isSatisfiedBy]
  cases rule.name == some required.name && rule.protocol == required.protocol
      && samePorts rule.ports required.ports <;> rfl

theorem updated_ofRule :
    (ofRule rule).updated required source = .ok (ofRule (required.updatedRule rule source)) := by
  rw [updated, allows_ofRule, RequiredRule.updatedRule, SecurityRule.withSource]
  cases hallows : rule.allows source <;> cases hpriority : rule.priority <;>
    simp [ofRule, hpriority, optionalInt]

theorem networkOpen_ofRule :
    networkOpen (rules.map ofRule) source required
      = .ok (required.scope == .network && rules.any (·.admitsNetwork source)) := by
  rw [networkOpen, admitsNetwork_ofRule]
  cases required.scope == .network <;> rfl

theorem changeByName_ofRule :
    changeByName (rules.map ofRule) source required
      = .ok ((match findByName rules required.name with
          | none => some (required.newRule source)
          | some rule =>
            if required.isSatisfiedBy rule source then none
            else some (required.updatedRule rule source)).map ofRule) := by
  rw [changeByName, find?_ofRule]
  cases findByName rules required.name with
  | none => rfl
  | some rule =>
    dsimp only [Option.map_some]
    rw [satisfies_ofRule, updated_ofRule]
    cases required.isSatisfiedBy rule source <;> rfl

/-- A required rule asks of drafts of rules what it asks of the rules. -/
theorem changeFor_ofRule :
    changeFor (rules.map ofRule) requester network required
      = .ok ((Policy.changeFor rules requester network required).map ofRule) := by
  rw [changeFor_eq, networkOpen_ofRule, changeByName_ofRule, Policy.changeFor]
  cases required.scope == .network &&
    rules.any (·.admitsNetwork (required.source requester network)) <;> rfl

/-- **A plan for drafts of rules is what the rules lack.** -/
theorem plan_ofRule (policy : List RequiredRule) :
    plan (rules.map ofRule) requester network policy
      = .ok ((reconcile rules policy requester network).map ofRule) := by
  induction policy with
  | nil => rfl
  | cons required policy ih =>
    rw [plan, changeFor_ofRule, ih]
    simp only [reconcile, List.filterMap_cons]
    cases Policy.changeFor rules requester network required <;> rfl

end Rules

/-! ## The first answer -/

section FirstAnswer

variable {ε α : Type} {ask : α → Except ε Bool} {list : List α}

/-- Nothing is found if every answer says no. -/
theorem anyM_eq_false_iff : list.anyM ask = .ok false ↔ ∀ a ∈ list, ask a = .ok false := by
  induction list with
  | nil => exact iff_of_true rfl (List.forall_mem_nil _)
  | cons a list ih =>
    rw [List.anyM_cons, List.forall_mem_cons, ← ih]
    cases ask a with
    | error fault => exact iff_of_false (by rintro ⟨⟩) (by rintro ⟨⟨⟩, -⟩)
    | ok found =>
      cases found with
      | true => exact iff_of_false (by rintro ⟨⟩) (by rintro ⟨⟨⟩, -⟩)
      | false => exact (and_iff_right rfl).symm

/-- The first answer that does not say no is a fault. -/
theorem anyM_eq_error_iff {fault : ε} :
    list.anyM ask = .error fault ↔
      ∃ before a after, list = before ++ a :: after ∧ (∀ b ∈ before, ask b = .ok false) ∧
        ask a = .error fault := by
  induction list with
  | nil =>
    refine iff_of_false (by rintro ⟨⟩) ?_
    rintro ⟨before, a, after, heq, -⟩
    exact List.append_ne_nil_of_right_ne_nil before (List.cons_ne_nil a after) heq.symm
  | cons a list ih =>
    rw [List.anyM_cons]
    constructor
    · intro h
      cases hask : ask a with
      | error other =>
        rw [hask] at h
        exact ⟨[], a, list, rfl, List.forall_mem_nil _, hask.trans h⟩
      | ok found =>
        rw [hask] at h
        cases found with
        | true => cases h
        | false =>
          obtain ⟨before, b, after, rfl, hbefore, hb⟩ := ih.1 h
          exact ⟨a :: before, b, after, rfl, List.forall_mem_cons.2 ⟨hask, hbefore⟩, hb⟩
    · rintro ⟨before, b, after, heq, hbefore, hb⟩
      cases before with
      | nil =>
        obtain ⟨rfl, -⟩ := List.cons.inj heq
        rw [hb]
        rfl
      | cons first before =>
        obtain ⟨rfl, rfl⟩ := List.cons.inj heq
        obtain ⟨hfirst, hrest⟩ := List.forall_mem_cons.1 hbefore
        rw [hfirst]
        exact ih.2 ⟨before, b, after, rfl, hrest, hb⟩

end FirstAnswer

/-! ## Comparisons that stop -/

section Halts

variable {source requester network : String} {sources : List Json} {current : List DraftRule}
  {required : RequiredRule} {draft : DraftRule}

/-- The value is a text that does not spell the source. -/
def Denies (source : String) (value : Json) : Prop :=
  ∃ text, value = .str text ∧ spells text source = false

/-- All sources of the draft are texts, and none spells the source. -/
def Refuses (draft : DraftRule) (source : String) : Prop :=
  ∀ value ∈ draft.sources, Denies source value

/-- A source of the draft that is no text is compared: what stands before it is no match. -/
def Halts (draft : DraftRule) (source : String) : Prop :=
  ∃ before value after, draft.sources = before ++ value :: after ∧
    (∀ earlier ∈ before, Denies source earlier) ∧ value.str? = none

/-- One value is compared with a source. -/
def matchesValue (source : String) (value : Json) : Except SourceFault Bool :=
  match value.str? with
  | some text => .ok (spells text source)
  | none => .error .notText

theorem matchesValue_eq_false_iff {value : Json} :
    matchesValue source value = .ok false ↔ Denies source value := by
  cases value <;> simp [matchesValue, Json.str?, Denies]

theorem matchesValue_eq_error_iff {value : Json} :
    matchesValue source value = .error .notText ↔ value.str? = none := by
  unfold matchesValue
  cases value.str? <;> simp

theorem anyMatches_eq_anyM (source : String) (sources : List Json) :
    anyMatches source sources = sources.anyM (matchesValue source) := by
  induction sources with
  | nil => rfl
  | cons value sources ih =>
    rw [List.anyM_cons, ← ih]
    cases value with
    | str text =>
      have hvalue : matchesValue source (.str text) = .ok (spells text source) := rfl
      rw [anyMatches, hvalue]
      cases spells text source <;> rfl
    | null => rfl
    | bool flag => rfl
    | int n => rfl
    | float x => rfl
    | arr items => rfl
    | obj members => rfl

theorem anyAllows_eq_anyM (source : String) (drafts : List DraftRule) :
    anyAllows source drafts = drafts.anyM (·.allows source) := by
  induction drafts with
  | nil => rfl
  | cons draft drafts ih =>
    rw [List.anyM_cons, ← ih, anyAllows]

theorem allows_eq_false_iff : draft.allows source = .ok false ↔ draft.Refuses source := by
  rw [allows, anyMatches_eq_anyM, anyM_eq_false_iff]
  exact forall₂_congr fun _ _ => matchesValue_eq_false_iff

theorem allows_eq_error_iff : draft.allows source = .error .notText ↔ draft.Halts source := by
  rw [allows, anyMatches_eq_anyM, anyM_eq_error_iff]
  simp only [matchesValue_eq_false_iff, matchesValue_eq_error_iff, Halts]

/-- The drafts for every protocol stop the comparison with a network: the first that does not refuse
it halts. -/
def NetworkHalts (current : List DraftRule) (network : String) : Prop :=
  ∃ before draft after, current.filter (·.protocol == .all) = before ++ draft :: after ∧
    (∀ earlier ∈ before, earlier.Refuses network) ∧ draft.Halts network

/-- No draft for every protocol admits the network. -/
def NetworkRefused (current : List DraftRule) (network : String) : Prop :=
  ∀ draft ∈ current, draft.protocol = .all → draft.Refuses network

theorem admitsNetwork_eq_false_iff :
    admitsNetwork network current = .ok false ↔ NetworkRefused current network := by
  rw [admitsNetwork, anyAllows_eq_anyM, anyM_eq_false_iff]
  simp only [List.mem_filter, beq_iff_eq, and_imp, allows_eq_false_iff, NetworkRefused]

theorem admitsNetwork_eq_error_iff :
    admitsNetwork network current = .error .notText ↔ NetworkHalts current network := by
  rw [admitsNetwork, anyAllows_eq_anyM, anyM_eq_error_iff]
  simp only [allows_eq_false_iff, allows_eq_error_iff, NetworkHalts]

/-- A required rule stops a plan: the comparison with its network halts, or the network is not open
and the first draft of its name halts. -/
def HaltsFor (current : List DraftRule) (requester network : String) (required : RequiredRule) :
    Prop :=
  (required.scope = .network ∧ NetworkHalts current (required.source requester network)) ∨
    ((required.scope = .network → NetworkRefused current (required.source requester network)) ∧
      ∃ draft, current.find? (·.isNamed required.name) = some draft ∧
        draft.Halts (required.source requester network))

theorem networkOpen_eq_error_iff :
    networkOpen current source required = .error .notText ↔
      required.scope = .network ∧ NetworkHalts current source := by
  rw [networkOpen, ← admitsNetwork_eq_error_iff]
  split
  · rename_i hscope
    rw [and_iff_right (beq_iff_eq.1 hscope)]
  · rename_i hscope
    exact iff_of_false (by rintro ⟨⟩) fun h => hscope (beq_iff_eq.2 h.1)

theorem networkOpen_eq_false_iff :
    networkOpen current source required = .ok false ↔
      (required.scope = .network → NetworkRefused current source) := by
  rw [networkOpen, ← admitsNetwork_eq_false_iff]
  split
  · rename_i hscope
    rw [forall_prop_of_true (beq_iff_eq.1 hscope)]
  · rename_i hscope
    exact iff_of_true rfl fun h => absurd (beq_iff_eq.2 h) hscope

/-- The first draft of a name stops a plan exactly if it halts: its sources are compared whether or not
it is as required otherwise. -/
theorem changeByName_eq_error_iff :
    changeByName current source required = .error .notText ↔
      ∃ draft, current.find? (·.isNamed required.name) = some draft ∧ draft.Halts source := by
  rw [changeByName]
  cases current.find? (·.isNamed required.name) with
  | none =>
    refine iff_of_false (by rintro ⟨⟩) ?_
    rintro ⟨draft, ⟨⟩, -⟩
  | some draft =>
    have hsome : (∃ other, some draft = some other ∧ other.Halts source) ↔ draft.Halts source := by
      simp
    rw [hsome, ← allows_eq_error_iff]
    dsimp only
    rw [satisfies, updated]
    cases draft.allows source with
    | error fault => split <;> exact iff_of_true rfl rfl
    | ok found =>
      refine iff_of_false ?_ (by rintro ⟨⟩)
      split
      · cases found <;> rintro ⟨⟩
      · rintro ⟨⟩

theorem changeFor_eq_error_iff :
    changeFor current requester network required = .error .notText ↔
      HaltsFor current requester network required := by
  rw [changeFor_eq, bind_eq_error_iff, HaltsFor, ← networkOpen_eq_error_iff,
    ← networkOpen_eq_false_iff, ← changeByName_eq_error_iff]
  refine or_congr_right ⟨?_, fun h => ⟨false, h⟩⟩
  rintro ⟨_ | _, hopen, hchange⟩
  · exact ⟨hopen, hchange⟩
  · cases hchange

/-- **The drafts that stop a plan**: one of the required rules stops it. -/
theorem plan_eq_error_iff {policy : List RequiredRule} :
    plan current requester network policy = .error .notText ↔
      ∃ required ∈ policy, HaltsFor current requester network required := by
  induction policy with
  | nil => exact iff_of_false (by rintro ⟨⟩) (by rintro ⟨_, ⟨⟩, -⟩)
  | cons required policy ih =>
    rw [plan, List.exists_mem_cons_iff, ← ih, ← changeFor_eq_error_iff, bind_eq_error_iff]
    constructor
    · rintro (hchange | ⟨change, -, hrest⟩)
      · exact .inl hchange
      · rcases bind_eq_error_iff.1 hrest with hplan | ⟨_, -, ⟨⟩⟩
        exact .inr hplan
    · rintro (hchange | hplan)
      · exact .inl hchange
      · cases hchange : changeFor current requester network required with
        | error fault => exact .inl rfl
        | ok change => exact .inr ⟨change, rfl, bind_eq_error_iff.2 (.inl hplan)⟩

/-- Texts stop nothing. -/
theorem not_haltsFor_of_texts
    (h : ∀ draft ∈ current, ∀ value ∈ draft.sources, (value.str?).isSome = true) :
    ¬ HaltsFor current requester network required := by
  have hdraft : ∀ draft ∈ current, ∀ source, ¬ draft.Halts source := by
    rintro draft hmem source ⟨before, value, after, heq, -, hnone⟩
    have hsome := h draft hmem value (by rw [heq]; simp)
    rw [hnone] at hsome
    cases hsome
  rintro (⟨-, before, draft, after, heq, -, hhalts⟩ | ⟨-, draft, hfind, hhalts⟩)
  · have hmem : draft ∈ current.filter (·.protocol == .all) := by
      rw [heq]
      exact List.mem_append_right _ List.mem_cons_self
    exact hdraft draft (List.mem_of_mem_filter hmem) _ hhalts
  · exact hdraft draft (List.mem_of_find?_eq_some hfind) _ hhalts

end Halts

end DraftRule

end NodeLedger.Policy
