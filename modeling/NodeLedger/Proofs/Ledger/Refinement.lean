import NodeLedger.Proofs.Ledger.Sets
import NodeLedger.Proofs.Ledger.Storage
import NodeLedger.Proofs.Ledger.Update

/-!
# The ledger file is a pair of sets

Whoever only appends to a ledger file and removes from it, beginning without a file, sees two sets:
the outcome of every call, and every byte of the file after it, are determined by the sets that the
earlier calls have made.

- `Tracked`: what a ledger file stands for; `Tracked.step` is what a call does to it.
- `Holds`: the invariant. The file holds the ledger of the sets, the rest of the tree is as it was,
  and the entries split no character into halves.
- `step_of_holds`: one call keeps the invariant and ends as the sets say.
- `agrees_runs`: **every run of calls agrees with the sets**, call by call.
-/

namespace NodeLedger

open Text FileTree

/-- What a ledger file stands for: nothing, or the sets of its instances and groups. -/
inductive Tracked where
  | absent
  | present (instances groups : Finset CodeText)

/-- A call that updates the ledger file. -/
inductive LedgerCall where
  | append (instances groups : List CodeText)
  | remove (instances groups : List CodeText)

namespace Tracked

/-- The instances; without a file there are none. -/
def instances : Tracked → Finset CodeText
  | absent => ∅
  | present instances _ => instances

/-- The groups; without a file there are none. -/
def groups : Tracked → Finset CodeText
  | absent => ∅
  | present _ groups => groups

/-- The ledger that the file holds, if there is a file. -/
def ledger? : Tracked → Option Ledger
  | absent => none
  | present instances groups => some (Ledger.ofSets instances groups)

/-- The file in the tree, if there is one. -/
def node? (state : Tracked) : Option Node :=
  state.ledger?.map fun ledger => .file (encode ledger.text.toList) plainMode

/-- Two sets, or nothing in the place of empty ones. -/
def remaining (instances groups : Finset CodeText) : Tracked :=
  if instances = ∅ ∧ groups = ∅ then absent else present instances groups

/-- What a call does to the sets: the family of the fault that ends it, if one does, and the sets
after it. -/
def step : Tracked → LedgerCall → Option FaultClass × Tracked
  | state, .append instances groups =>
    if Ledger.Joins state.instances instances ∧ Ledger.Joins state.groups groups then
      (none, present (state.instances ∪ Ledger.entrySet instances)
        (state.groups ∪ Ledger.entrySet groups))
    else (some .duplicate, state)
  | absent, .remove _ _ => (some .notFound, absent)
  | present I G, .remove instances groups =>
    if Ledger.Leaves I instances ∧ Ledger.Leaves G groups then
      (none, remaining (I \ Ledger.entrySet instances) (G \ Ledger.entrySet groups))
    else (some .notFound, present I G)

/-- Calls one after the other, with what each of them does. -/
def runs : List LedgerCall → Tracked → List (Option FaultClass × Tracked)
  | [], _ => []
  | call :: calls, state => state.step call :: runs calls (state.step call).2

end Tracked

namespace LedgerCall

variable {σ : Type}

/-- The job of a call. -/
def job [Json.Nesting] (path : CodeText) : LedgerCall → Job σ Unit
  | append instances groups => Ledger.append instances groups path
  | remove instances groups => Ledger.remove instances groups path

/-- Calls one after the other, each with its outcome and the host after it. -/
def runs [Json.Nesting] (path : CodeText) :
    List LedgerCall → Host σ → List (Except Fault Unit × Host σ)
  | [], _ => []
  | call :: calls, host =>
    (call.job path).runOn host :: runs path calls ((call.job path).runOn host).2

/-- No entry that the call adds splits a character into halves. -/
def Unsplit : LedgerCall → Prop
  | append instances groups => Ledger.Unsplit ⟨instances, groups⟩
  | remove _ _ => True

instance : (call : LedgerCall) → Decidable call.Unsplit
  | append instances groups => inferInstanceAs (Decidable (Ledger.Unsplit ⟨instances, groups⟩))
  | remove _ _ => inferInstanceAs (Decidable True)

end LedgerCall

namespace Tracked

@[simp] theorem instances_remaining (I G : Finset CodeText) : (remaining I G).instances = I := by
  rw [remaining]
  split
  · rename_i hempty
    exact hempty.1.symm
  · rfl

@[simp] theorem groups_remaining (I G : Finset CodeText) : (remaining I G).groups = G := by
  rw [remaining]
  split
  · rename_i hempty
    exact hempty.2.symm
  · rfl

/-! ## The invariant -/

/-- The later tree holds the state at the location, and is otherwise the tree. -/
structure Holds (location : Location) (tree later : FileTree) (state : Tracked) : Prop where
  filled : FilledAt location tree later
  node : later.node? location = state.node?
  instances : ∀ e ∈ state.instances, e.Unsplit
  groups : ∀ e ∈ state.groups, e.Unsplit

section Holds

variable {tree later : FileTree} {path name : CodeText} {directory : Location} {state : Tracked}
  {I G : Finset CodeText}

theorem holds_absent (hvacancy : tree.Vacancy path directory name) :
    Holds (directory ++ [name]) tree tree absent where
  filled := FilledAt.refl hvacancy.vacant
  node := hvacancy.vacant
  instances e he := absurd he (Finset.notMem_empty e)
  groups e he := absurd he (Finset.notMem_empty e)

theorem Holds.unsplit (h : Holds (directory ++ [name]) tree later (present I G)) :
    (Ledger.ofSets I G).Unsplit :=
  ⟨fun e he => h.instances e (Ledger.mem_ascending.1 he),
    fun e he => h.groups e (Ledger.mem_ascending.1 he)⟩

theorem Holds.load_present [Json.Nesting] (h : Holds (directory ++ [name]) tree later (present I G))
    (hvacancy : tree.Vacancy path directory name) :
    Ledger.load later path = .ok (Ledger.ofSets I G) := by
  rw [Ledger.load_of_file hvacancy h.filled h.unsplit h.node]
  exact congrArg Except.ok (congrArg₂ Ledger.mk (Ledger.sortEntries_ascending I)
    (Ledger.sortEntries_ascending G))

theorem Holds.load_absent [Json.Nesting] (h : Holds (directory ++ [name]) tree later absent)
    (hvacancy : tree.Vacancy path directory name) :
    Ledger.load later path = .error (.ledger (.noFile path)) :=
  Ledger.load_of_none hvacancy h.filled h.node

theorem Holds.present_eq (h : Holds (directory ++ [name]) tree later state)
    (hvacancy : tree.Vacancy path directory name) :
    later.present path = state.ledger?.isSome := by
  rw [hvacancy.present h.filled, h.node, node?, Option.isSome_map]

/-- Without a file, entries are added to the ledger of two empty sets. -/
theorem Holds.loadOrEmpty [Json.Nesting] (h : Holds (directory ++ [name]) tree later state)
    (hvacancy : tree.Vacancy path directory name) :
    Ledger.loadOrEmpty later path = .ok (Ledger.ofSets state.instances state.groups) := by
  rw [Ledger.loadOrEmpty, h.present_eq hvacancy]
  cases state with
  | absent =>
    show Except.ok Ledger.empty = .ok (Ledger.ofSets ∅ ∅)
    rw [Ledger.ofSets_empty]
  | present I G => exact h.load_present hvacancy

/-- Saving two sets makes the tree hold them. -/
theorem Holds.exists_save (h : Holds (directory ++ [name]) tree later state)
    (hvacancy : tree.Vacancy path directory name) (hI : ∀ e ∈ I, e.Unsplit)
    (hG : ∀ e ∈ G, e.Unsplit) :
    ∃ saved, (Ledger.ofSets I G).save path later = (.ok (), saved) ∧
      Holds (directory ++ [name]) tree saved (present I G) := by
  obtain ⟨saved, hsave, hfilled, hnode⟩ := Ledger.exists_save hvacancy h.filled (Ledger.ofSets I G)
  exact ⟨saved, hsave, hfilled, hnode, hI, hG⟩

/-- Deleting the file makes the tree hold nothing. -/
theorem Holds.exists_delete (h : Holds (directory ++ [name]) tree later (present I G))
    (hvacancy : tree.Vacancy path directory name) :
    ∃ rest, Ledger.deleteFile path later = (.ok (), rest) ∧
      Holds (directory ++ [name]) tree rest absent :=
  ⟨later.erase (directory ++ [name]), Ledger.deleteFile_of_file hvacancy h.filled h.node,
    h.filled.erase, node?_erase_self h.filled.ne_nil,
    fun e he => absurd he (Finset.notMem_empty e), fun e he => absurd he (Finset.notMem_empty e)⟩

end Holds

/-! ## One call -/

/-- The outcome of a call is success, or a fault of the family that is expected. -/
def EndsAs : Except Fault Unit → Option FaultClass → Prop
  | .ok (), none => True
  | .error fault, some family => fault.class? = some family
  | _, _ => False

instance : (outcome : Except Fault Unit) → (expected : Option FaultClass) →
    Decidable (EndsAs outcome expected)
  | .ok (), none => inferInstanceAs (Decidable True)
  | .error fault, some family => inferInstanceAs (Decidable (fault.class? = some family))
  | .ok (), some _ => inferInstanceAs (Decidable False)
  | .error _, none => inferInstanceAs (Decidable False)

theorem eq_ok_of_endsAs {outcome : Except Fault Unit} (h : EndsAs outcome none) :
    outcome = .ok () := by
  cases outcome with
  | error fault => exact h.elim
  | ok _ => rfl

theorem exists_of_endsAs {outcome : Except Fault Unit} {family : FaultClass}
    (h : EndsAs outcome (some family)) : ∃ fault, outcome = .error fault ∧ fault.class? = some family := by
  cases outcome with
  | error fault => exact ⟨fault, rfl, h⟩
  | ok _ => exact h.elim

section Step

variable {σ : Type} {tree : FileTree} {path name : CodeText} {directory : Location} {state : Tracked}
  {host : Host σ} {instances groups : List CodeText}

/-- Entries of a call that are in no state yet are unsplit if the call is. -/
theorem unsplit_of_mem_entrySet {entries : List CodeText} (h : ∀ e ∈ entries, e.Unsplit) :
    ∀ e ∈ Ledger.entrySet entries, e.Unsplit :=
  fun e he => h e (List.mem_of_mem_filter (Ledger.mem_entrySet.1 he))

theorem step_append_of_holds [Json.Nesting] (hvacancy : tree.Vacancy path directory name)
    (h : Holds (directory ++ [name]) tree host.files state)
    (hunsplit : Ledger.Unsplit ⟨instances, groups⟩) :
    EndsAs ((Ledger.append instances groups path).runOn host).1
        (state.step (.append instances groups)).1 ∧
      Holds (directory ++ [name]) tree ((Ledger.append instances groups path).runOn host).2.files
        (state.step (.append instances groups)).2 := by
  have hload := h.loadOrEmpty hvacancy
  by_cases hjoins : Ledger.Joins state.instances instances ∧ Ledger.Joins state.groups groups
  · rw [step, if_pos hjoins]
    have hI : ∀ e ∈ state.instances ∪ Ledger.entrySet instances, e.Unsplit := by
      intro e he
      rcases Finset.mem_union.1 he with he | he
      · exact h.instances e he
      · exact unsplit_of_mem_entrySet hunsplit.1 e he
    have hG : ∀ e ∈ state.groups ∪ Ledger.entrySet groups, e.Unsplit := by
      intro e he
      rcases Finset.mem_union.1 he with he | he
      · exact h.groups e he
      · exact unsplit_of_mem_entrySet hunsplit.2 e he
    obtain ⟨saved, hsave, hholds⟩ := h.exists_save hvacancy hI hG
    obtain ⟨log, hrun⟩ :=
      Ledger.exists_runOn_append hload (Ledger.add_ofSets hjoins.1 hjoins.2) hsave
    rw [hrun]
    exact ⟨trivial, hholds⟩
  · obtain ⟨e, hadd⟩ := Ledger.add_ofSets_of_not hjoins
    rw [step, if_neg hjoins, Ledger.runOn_append_of_error hload hadd]
    exact ⟨rfl, h⟩

theorem step_remove_of_holds [Json.Nesting] (hvacancy : tree.Vacancy path directory name)
    (h : Holds (directory ++ [name]) tree host.files state) :
    EndsAs ((Ledger.remove instances groups path).runOn host).1
        (state.step (.remove instances groups)).1 ∧
      Holds (directory ++ [name]) tree ((Ledger.remove instances groups path).runOn host).2.files
        (state.step (.remove instances groups)).2 := by
  cases state with
  | absent =>
    rw [Ledger.runOn_remove_of_not_loaded (h.load_absent hvacancy)]
    exact ⟨rfl, h⟩
  | present I G =>
    have hload := h.load_present hvacancy
    by_cases hleaves : Ledger.Leaves I instances ∧ Ledger.Leaves G groups
    · have hsubtract := Ledger.subtract_ofSets hleaves.1 hleaves.2
      rw [step, if_pos hleaves, remaining]
      by_cases hempty : I \ Ledger.entrySet instances = ∅ ∧ G \ Ledger.entrySet groups = ∅
      · -- The file goes away together with the last entry.
        rw [if_pos hempty]
        obtain ⟨rest, hdelete, hholds⟩ := h.exists_delete hvacancy
        obtain ⟨log, hrun⟩ := Ledger.exists_runOn_remove_of_isEmpty hload hsubtract
          (Ledger.isEmpty_ofSets_iff.2 hempty) hdelete
        rw [hrun]
        exact ⟨trivial, hholds⟩
      · rw [if_neg hempty]
        obtain ⟨saved, hsave, hholds⟩ := h.exists_save hvacancy
          (fun e he => h.instances e (Finset.mem_sdiff.1 he).1)
          (fun e he => h.groups e (Finset.mem_sdiff.1 he).1)
        rw [Ledger.runOn_remove_of_not_isEmpty hload hsubtract
          (mt Ledger.isEmpty_ofSets_iff.1 hempty) hsave]
        exact ⟨trivial, hholds⟩
    · obtain ⟨e, hsubtract⟩ := Ledger.subtract_ofSets_of_not hleaves
      rw [step, if_neg hleaves, Ledger.runOn_remove_of_error hload hsubtract]
      exact ⟨rfl, h⟩

/-- **One call ends as the sets say, and keeps the invariant.** -/
theorem step_of_holds [Json.Nesting] (hvacancy : tree.Vacancy path directory name)
    (h : Holds (directory ++ [name]) tree host.files state) {call : LedgerCall}
    (hunsplit : call.Unsplit) :
    EndsAs ((call.job path).runOn host).1 (state.step call).1 ∧
      Holds (directory ++ [name]) tree ((call.job path).runOn host).2.files (state.step call).2 := by
  cases call with
  | append instances groups => exact step_append_of_holds hvacancy h hunsplit
  | remove instances groups => exact step_remove_of_holds hvacancy h

end Step

/-! ## Every run -/

/-- A call ends as the sets say, and they say what the tree is after it: the file is missing when
there is nothing, and otherwise it lists the sets in ascending order. Everything else is as it was in
the tree at the beginning. -/
structure Agrees {σ : Type} (path : CodeText) (location : Location) (tree : FileTree)
    (actual : Except Fault Unit × Host σ) (expected : Option FaultClass × Tracked) : Prop where
  outcome : EndsAs actual.1 expected.1
  missing : actual.2.files.present path = false ↔ expected.2 = absent
  file : actual.2.files.node? location = expected.2.node?
  ascending : ∀ ledger ∈ expected.2.ledger?,
    ledger.instances.Pairwise (· < ·) ∧ ledger.groups.Pairwise (· < ·)
  other : ∀ l, l ≠ location → actual.2.files.node? l = tree.node? l

section Run

variable {σ : Type} {tree : FileTree} {path name : CodeText} {directory : Location} {state : Tracked}

theorem isSome_ledger?_eq_false_iff : state.ledger?.isSome = false ↔ state = absent := by
  cases state <;> simp [ledger?]

theorem pairwise_of_mem_ledger? {ledger : Ledger} (h : ledger ∈ state.ledger?) :
    ledger.instances.Pairwise (· < ·) ∧ ledger.groups.Pairwise (· < ·) := by
  cases state with
  | absent => cases h
  | present I G =>
    cases h
    exact ⟨Ledger.pairwise_ascending I, Ledger.pairwise_ascending G⟩

theorem agrees_of_holds {actual : Except Fault Unit × Host σ}
    {expected : Option FaultClass × Tracked} (hvacancy : tree.Vacancy path directory name)
    (houtcome : EndsAs actual.1 expected.1)
    (h : Holds (directory ++ [name]) tree actual.2.files expected.2) :
    Agrees path (directory ++ [name]) tree actual expected where
  outcome := houtcome
  missing := by rw [h.present_eq hvacancy, isSome_ledger?_eq_false_iff]
  file := h.node
  ascending _ := pairwise_of_mem_ledger?
  other := h.filled.other

theorem agrees_runs_of_holds [Json.Nesting] (hvacancy : tree.Vacancy path directory name)
    {host : Host σ} (h : Holds (directory ++ [name]) tree host.files state)
    {calls : List LedgerCall} (hunsplit : ∀ call ∈ calls, call.Unsplit) :
    List.Forall₂ (Agrees path (directory ++ [name]) tree)
      (LedgerCall.runs path calls host) (state.runs calls) := by
  induction calls generalizing host state with
  | nil => exact .nil
  | cons call calls ih =>
    obtain ⟨hcall, hrest⟩ := List.forall_mem_cons.1 hunsplit
    obtain ⟨houtcome, hholds⟩ := step_of_holds hvacancy h hcall
    exact .cons (agrees_of_holds hvacancy houtcome hholds) (ih hholds hrest)

/-- **Every run of calls agrees with the sets**, call by call, if there is no file at the beginning.
The bytes of the file are a function of the sets alone: neither the order of the entries nor the
calls that brought them there can be told from it.

Every string is unsplit. A text that holds a character as two halves is written like the
character, and is read as another text than it was; it may be among the entries to remove, where it is
found in no file. -/
theorem agrees_runs [Json.Nesting] (host : Host σ)
    (hvacancy : host.files.Vacancy path directory name) {calls : List LedgerCall}
    (hunsplit : ∀ call ∈ calls, call.Unsplit) :
    List.Forall₂ (Agrees path (directory ++ [name]) host.files)
      (LedgerCall.runs path calls host) (absent.runs calls) :=
  agrees_runs_of_holds hvacancy (holds_absent hvacancy) hunsplit

attribute [local instance] Json.Nesting.usual

theorem agrees_append_then_remove :
    let tree : FileTree := ⟨[(["srv"], .directory)], ["srv"]⟩
    let calls : List LedgerCall := [.append ["i-2", "", "i-1"] ["sg-1"], .append ["i-3"] ["sg-1"],
      .remove ["i-1", "i-2"] [], .remove [] ["sg-1"]]
    tree.Vacancy "ids.json" ["srv"] "ids.json" ∧ (∀ call ∈ calls, call.Unsplit) ∧
      List.Forall₂ (Agrees "ids.json" ["srv", "ids.json"] tree)
        (LedgerCall.runs "ids.json" calls (⟨tree, [], ()⟩ : Host Unit)) (absent.runs calls) ∧
      (absent.runs calls).map (·.1) = [none, some .duplicate, none, none] := by
  intro tree calls
  have hvacancy : tree.Vacancy "ids.json" ["srv"] "ids.json" :=
    { noFault := by decide +kernel
      place := by decide +kernel
      vacant := by decide +kernel
      beside := ⟨⟨["srv", temporaryName 0], "/srv/" ++ temporaryName 0,
        tree.insert ["srv", temporaryName 0] (.file [] plainMode)⟩, by decide +kernel⟩ }
  have hunsplit : ∀ call ∈ calls, call.Unsplit := by decide +kernel
  refine ⟨hvacancy, hunsplit, ?_, by decide +kernel⟩
  exact agrees_runs ⟨tree, [], ()⟩ hvacancy hunsplit

/-- An entry that splits a character cannot be removed again. And where a link leads to itself, there is
no file, but the fault is another one. -/
theorem not_agrees_beside_halves_or_link :
    let pair : CodeText := ⟨[.half 0x3d, .half 0x600]⟩
    let calls : List LedgerCall := [.append [pair] [], .remove [pair] []]
    let tree : FileTree := ⟨[(["srv"], .directory)], ["srv"]⟩
    let looped := tree.insert ["srv", "ids.json"] (.link "ids.json")
    (tree.Vacancy "ids.json" ["srv"] "ids.json" ∧
        (absent.runs calls).map (·.1) = [none, none] ∧
        ¬ List.Forall₂ (Agrees "ids.json" ["srv", "ids.json"] tree)
          (LedgerCall.runs "ids.json" calls (⟨tree, [], ()⟩ : Host Unit)) (absent.runs calls)) ∧
      looped.present "ids.json" = false ∧
        ¬ List.Forall₂ (Agrees "ids.json" ["srv", "ids.json"] looped)
          (LedgerCall.runs "ids.json" [.remove [] []] (⟨looped, [], ()⟩ : Host Unit))
          (absent.runs [.remove [] []]) := by
  intro pair calls tree looped
  refine ⟨⟨by decide +kernel, by decide +kernel, fun h => ?_⟩, by decide +kernel, fun h => ?_⟩
  · -- The second call cannot remove what the first one has added.
    cases h with
    | cons hfirst hrest =>
      cases hrest with
      | cons hsecond _ => exact absurd hsecond.outcome (by decide +kernel)
  · cases h with
    | cons hfirst _ => exact absurd hfirst.outcome (by decide +kernel)

end Run

end Tracked

end NodeLedger
