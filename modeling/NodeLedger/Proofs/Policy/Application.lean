import NodeLedger.Policy.Reconcile
import NodeLedger.Proofs.Upsert

/-!
# Changes applied by name

What becomes of a list of rules when the changes of a pass are applied to it, stated position by
position. A change goes to the first rule of its name; rules of the same name further down, and
rules of other names, keep their place and their content.

- `firstAt`: the position of the first rule of a name.
- `applyByName_eq`: **the whole of an application at once**, for changes of distinct names: every
  rule stays at its position, replaced there if a change goes to it, and the changes of new names
  come last.
- `getElem?_applyByName`, `mem_applyByName_iff`, `findByName_applyByName`: one position, one rule
  and one name after an application.
- `findByName_applyByName_of_unique`, `mem_of_mem_applyByName`, `mem_applyByName_of_ne`,
  `cases_of_getElem?_applyByName`: the same for changes in any order, with repeats.
-/

namespace NodeLedger.Policy

/-! ## First rules -/

/-- The position of the first rule of a name. -/
def firstAt (rules : List SecurityRule) (name : Option String) : Option Nat :=
  rules.findIdx? fun rule => rule.name = name

theorem findByName_eq_firstAt (rules : List SecurityRule) (name : String) :
    findByName rules name = (firstAt rules (some name)).bind (rules[·]?) := by
  rw [findByName, List.find?_eq_bind_findIdx?_getElem?, firstAt]
  simp only [beq_eq_decide]

theorem firstAt_eq_some_iff {rules : List SecurityRule} {name : Option String} {i : Nat} :
    firstAt rules name = some i ↔
      (∃ rule, rules[i]? = some rule ∧ rule.name = name) ∧
        ∀ j < i, ∀ rule, rules[j]? = some rule → rule.name ≠ name := by
  rw [firstAt, List.findIdx?_eq_some_iff_getElem]
  constructor
  · rintro ⟨hi, hname, hbefore⟩
    refine ⟨⟨rules[i], List.getElem?_eq_getElem hi, of_decide_eq_true hname⟩, ?_⟩
    intro j hj rule hrule
    obtain ⟨hlt, rfl⟩ := List.getElem?_eq_some_iff.1 hrule
    simpa using hbefore j hj
  · rintro ⟨⟨rule, hrule, hname⟩, hbefore⟩
    obtain ⟨hi, rfl⟩ := List.getElem?_eq_some_iff.1 hrule
    refine ⟨hi, decide_eq_true hname, fun j hj => ?_⟩
    simpa using hbefore j hj _ (List.getElem?_eq_getElem (Nat.lt_trans hj hi))

theorem firstAt_eq_none_iff {rules : List SecurityRule} {name : Option String} :
    firstAt rules name = none ↔ ∀ rule ∈ rules, rule.name ≠ name := by
  rw [firstAt, List.findIdx?_eq_none_iff]
  simp

theorem name_of_findByName {rules : List SecurityRule} {name : String} {rule : SecurityRule}
    (h : findByName rules name = some rule) : rule.name = some name := by
  simpa using List.find?_some h

/-- A change in the place of the first rule of its name moves no first rule. -/
theorem firstAt_set {rules : List SecurityRule} {change : SecurityRule} {i : Nat}
    (h : firstAt rules change.name = some i) (name : Option String) :
    firstAt (rules.set i change) name = firstAt rules name := by
  obtain ⟨⟨rule, hrule, hname⟩, -⟩ := firstAt_eq_some_iff.1 h
  clear h
  induction rules generalizing i with
  | nil => rfl
  | cons first rules ih =>
    cases i with
    | zero =>
      obtain rfl : first = rule := by simpa using hrule
      simp [firstAt, List.findIdx?_cons, hname]
    | succ i =>
      have htail := ih (i := i) (by simpa using hrule)
      rw [firstAt, firstAt] at htail
      simp only [firstAt, List.set_cons_succ, List.findIdx?_cons, htail]

/-- A change at the end is the first rule of its own name only. -/
theorem firstAt_concat_of_ne {change : SecurityRule} {name : Option String}
    (h : change.name ≠ name) (rules : List SecurityRule) :
    firstAt (rules ++ [change]) name = firstAt rules name := by
  simp [firstAt, List.findIdx?_append, List.findIdx?_cons, h]

/-! ## Application -/

theorem applyChange_of_firstAt {rules : List SecurityRule} {change : SecurityRule} {i : Nat}
    (h : firstAt rules change.name = some i) : applyChange rules change = rules.set i change := by
  induction rules generalizing i with
  | nil => simp [firstAt] at h
  | cons rule rules ih =>
    rw [applyChange]
    by_cases hname : rule.name = change.name
    · obtain rfl : 0 = i := by simpa [firstAt, List.findIdx?_cons, hname] using h
      rw [if_pos hname, List.set_cons_zero]
    · rw [firstAt, List.findIdx?_cons] at h
      obtain ⟨j, hj, rfl⟩ := Option.map_eq_some_iff.1 (by simpa [hname] using h)
      rw [if_neg hname, List.set_cons_succ, ih hj]

theorem applyChange_of_firstAt_none {rules : List SecurityRule} {change : SecurityRule}
    (h : firstAt rules change.name = none) : applyChange rules change = rules ++ [change] := by
  induction rules with
  | nil => rfl
  | cons rule rules ih =>
    have hnone := firstAt_eq_none_iff.1 h
    have hname : rule.name ≠ change.name := hnone rule (List.mem_cons_self ..)
    have htail := firstAt_eq_none_iff.2 fun r hr => hnone r (List.mem_cons_of_mem _ hr)
    rw [applyChange, if_neg hname, ih htail, List.cons_append]

/-- The change that goes to a position. -/
def changeAt (rules changes : List SecurityRule) (i : Nat) : Option SecurityRule :=
  changes.find? fun change => firstAt rules change.name = some i

section Step

variable {rules changes : List SecurityRule} {change : SecurityRule}

/-- Once a change has taken the place of a rule, no other change goes there. -/
theorem mapIdx_changeAt_set {k : Nat} (hfirst : firstAt rules change.name = some k)
    (hne : ∀ c ∈ changes, change.name ≠ c.name) :
    (rules.set k change).mapIdx
        (fun i rule => (changeAt (rules.set k change) changes i).getD rule)
      = rules.mapIdx fun i rule => (changeAt rules (change :: changes) i).getD rule := by
  obtain ⟨⟨rule, hrule, hname⟩, -⟩ := firstAt_eq_some_iff.1 hfirst
  have hsame : ∀ i, changeAt (rules.set k change) changes i = changeAt rules changes i := by
    intro i
    simp only [changeAt, firstAt_set hfirst]
  have hfree : changeAt rules changes k = none := by
    refine List.find?_eq_none.2 fun c hc hk => ?_
    obtain ⟨⟨other, hother, hcname⟩, -⟩ := firstAt_eq_some_iff.1 (of_decide_eq_true hk)
    rw [hrule] at hother
    cases hother
    exact hne c hc (hname.symm.trans hcname)
  refine List.ext_getElem? fun i => ?_
  rw [List.getElem?_mapIdx, List.getElem?_mapIdx, List.getElem?_set, hsame]
  by_cases hik : k = i
  · subst hik
    obtain ⟨hlt, -⟩ := List.getElem?_eq_some_iff.1 hrule
    have hthere : changeAt rules (change :: changes) k = some change :=
      List.find?_cons_of_pos (decide_eq_true hfirst)
    rw [if_pos rfl, if_pos hlt, hfree, hrule, hthere]
    rfl
  · have hskip : changeAt rules (change :: changes) i = changeAt rules changes i :=
      List.find?_cons_of_neg (by simpa [hfirst] using hik)
    rw [if_neg hik, hskip]

/-- Once a change has come last, the other changes go where they went before. -/
theorem mapIdx_changeAt_concat (hfirst : firstAt rules change.name = none)
    (hne : ∀ c ∈ changes, change.name ≠ c.name) :
    (rules ++ [change]).mapIdx
        (fun i rule => (changeAt (rules ++ [change]) changes i).getD rule)
      = rules.mapIdx (fun i rule => (changeAt rules (change :: changes) i).getD rule)
        ++ [change] := by
  have hsame : ∀ i, changeAt (rules ++ [change]) changes i = changeAt rules changes i := by
    intro i
    rw [changeAt, changeAt, ← List.head?_filter, ← List.head?_filter]
    refine congrArg List.head? (List.filter_congr fun c hc => ?_)
    rw [firstAt_concat_of_ne (hne c hc)]
  have hskip : ∀ i, changeAt rules (change :: changes) i = changeAt rules changes i := by
    intro i
    exact List.find?_cons_of_neg (by simp [hfirst])
  have hlast : changeAt rules changes rules.length = none := by
    refine List.find?_eq_none.2 fun c _ hc => ?_
    obtain ⟨⟨rule, hrule, -⟩, -⟩ := firstAt_eq_some_iff.1 (of_decide_eq_true hc)
    simp at hrule
  simp only [hsame, hskip, List.mapIdx_append, List.mapIdx_cons, List.mapIdx_nil, Nat.zero_add,
    hlast, Option.getD_none]

end Step

/-- **The whole of an application at once**: changes of distinct names go each to the first rule of
its name, or to the end in their order. -/
theorem applyByName_eq {rules changes : List SecurityRule} (h : (changes.map (·.name)).Nodup) :
    applyByName rules changes
      = rules.mapIdx (fun i rule => (changeAt rules changes i).getD rule)
        ++ changes.filter fun change => firstAt rules change.name = none := by
  induction changes generalizing rules with
  | nil =>
    have hid : rules.mapIdx (fun _ rule => rule) = rules := by simp [List.mapIdx_eq_iff]
    simpa [applyByName, changeAt] using hid.symm
  | cons change changes ih =>
    obtain ⟨hnotin, hrest⟩ := List.nodup_cons.1 h
    have hne : ∀ c ∈ changes, change.name ≠ c.name := fun c hc heq =>
      hnotin (List.mem_map.2 ⟨c, hc, heq.symm⟩)
    have hfold : applyByName rules (change :: changes)
        = applyByName (applyChange rules change) changes := rfl
    rw [hfold, ih hrest]
    cases hfirst : firstAt rules change.name with
    | some k =>
      rw [applyChange_of_firstAt hfirst, mapIdx_changeAt_set hfirst hne,
        List.filter_cons_of_neg (by simp [hfirst])]
      simp only [firstAt_set hfirst]
    | none =>
      have hfilter : changes.filter (fun c => firstAt (rules ++ [change]) c.name = none)
          = changes.filter (fun c => firstAt rules c.name = none) :=
        List.filter_congr fun c hc => by rw [firstAt_concat_of_ne (hne c hc)]
      rw [applyChange_of_firstAt_none hfirst, mapIdx_changeAt_concat hfirst hne, hfilter,
        List.filter_cons_of_pos (by simp [hfirst]), List.append_assoc, List.singleton_append]

/-! ## One position, one name -/

theorem eq_of_firstAt_eq {rules : List SecurityRule} {name other : Option String} {i : Nat}
    (h : firstAt rules name = some i) (hother : firstAt rules other = some i) : name = other := by
  obtain ⟨⟨rule, hrule, rfl⟩, -⟩ := firstAt_eq_some_iff.1 h
  obtain ⟨⟨same, hsame, rfl⟩, -⟩ := firstAt_eq_some_iff.1 hother
  rw [hrule] at hsame
  cases hsame
  rfl

theorem changeAt_eq_some_iff {rules changes : List SecurityRule}
    (h : (changes.map (·.name)).Nodup) {i : Nat} {change : SecurityRule} :
    changeAt rules changes i = some change ↔
      change ∈ changes ∧ firstAt rules change.name = some i := by
  constructor
  · intro hfind
    exact ⟨List.mem_of_find?_eq_some hfind, by simpa using List.find?_some hfind⟩
  · rintro ⟨hmem, hfirst⟩
    have hsome : (changeAt rules changes i).isSome :=
      List.find?_isSome.2 ⟨change, hmem, decide_eq_true hfirst⟩
    obtain ⟨found, hfound⟩ := Option.isSome_iff_exists.1 hsome
    have hat : firstAt rules found.name = some i := by simpa using List.find?_some hfound
    have hname : found.name = change.name := eq_of_firstAt_eq hat hfirst
    rw [hfound, List.inj_on_of_nodup_map h (List.mem_of_find?_eq_some hfound) hmem hname]

/-- A rule that was there is at its position afterwards, or what changed it is. -/
theorem getElem?_applyByName {rules changes : List SecurityRule}
    (h : (changes.map (·.name)).Nodup) {i : Nat} {rule : SecurityRule}
    (hi : rules[i]? = some rule) :
    (applyByName rules changes)[i]? = some ((changeAt rules changes i).getD rule) := by
  obtain ⟨hlt, -⟩ := List.getElem?_eq_some_iff.1 hi
  rw [applyByName_eq h, List.getElem?_append_left (by simpa using hlt), List.getElem?_mapIdx, hi]
  rfl

/-- The rules after an application are the changes and the rules that no change went to. -/
theorem mem_applyByName_iff {rules changes : List SecurityRule}
    (h : (changes.map (·.name)).Nodup) {rule : SecurityRule} :
    rule ∈ applyByName rules changes ↔
      rule ∈ changes ∨ ∃ i, rules[i]? = some rule ∧ changeAt rules changes i = none := by
  constructor
  · intro hmem
    rw [applyByName_eq h, List.mem_append] at hmem
    rcases hmem with hmem | hmem
    · obtain ⟨i, hi, rfl⟩ := List.mem_mapIdx.1 hmem
      cases hchange : changeAt rules changes i with
      | some change => exact .inl ((changeAt_eq_some_iff h).1 hchange).1
      | none => exact .inr ⟨i, List.getElem?_eq_getElem hi, hchange⟩
    · exact .inl (List.mem_filter.1 hmem).1
  · rintro (hmem | ⟨i, hi, hchange⟩)
    · cases hfirst : firstAt rules rule.name with
      | some i =>
        obtain ⟨⟨old, hold, -⟩, -⟩ := firstAt_eq_some_iff.1 hfirst
        have hat := getElem?_applyByName h hold
        rw [(changeAt_eq_some_iff h).2 ⟨hmem, hfirst⟩] at hat
        exact List.mem_of_getElem? hat
      | none =>
        rw [applyByName_eq h]
        exact List.mem_append_right _ (List.mem_filter.2 ⟨hmem, decide_eq_true hfirst⟩)
    · have hat := getElem?_applyByName h hi
      rw [hchange] at hat
      exact List.mem_of_getElem? hat

/-- Changes of other names do not show under a name. -/
theorem findByName_applyByName_of_ne {changes : List SecurityRule} {name : String}
    (h : ∀ change ∈ changes, change.name ≠ some name) (rules : List SecurityRule) :
    findByName (applyByName rules changes) name = findByName rules name := by
  induction changes generalizing rules with
  | nil => rfl
  | cons change changes ih =>
    have hrest := ih (fun c hc => h c (List.mem_cons_of_mem _ hc)) (applyChange rules change)
    exact hrest.trans (findByName_applyChange_of_ne (h change (List.mem_cons_self ..)) rules)

/-- A change that shares its name with no other change is found by it afterwards, however often and
wherever it stands among the changes. -/
theorem findByName_applyByName_of_unique {changes : List SecurityRule} {change : SecurityRule}
    {name : String} (hmem : change ∈ changes) (hname : change.name = some name)
    (h : ∀ other ∈ changes, other.name = some name → other = change) (rules : List SecurityRule) :
    findByName (applyByName rules changes) name = some change := by
  induction changes generalizing rules with
  | nil => cases hmem
  | cons first changes ih =>
    by_cases hlater : change ∈ changes
    · exact ih hlater (fun other hother => h other (List.mem_cons_of_mem _ hother)) _
    · obtain rfl : change = first := (List.mem_cons.1 hmem).resolve_right hlater
      -- Whatever else goes by the name would be the change itself, and come later.
      have hkeep : ∀ other ∈ changes, other.name ≠ some name := by
        intro other hother heq
        exact hlater (h other (List.mem_cons_of_mem _ hother) heq ▸ hother)
      exact (findByName_applyByName_of_ne hkeep _).trans (findByName_applyChange_self hname rules)

/-- Each of several changes of distinct names is found by its name afterwards. -/
theorem findByName_applyByName {changes : List SecurityRule} (h : (changes.map (·.name)).Nodup)
    {change : SecurityRule} (hmem : change ∈ changes) {name : String}
    (hname : change.name = some name) (rules : List SecurityRule) :
    findByName (applyByName rules changes) name = some change := by
  refine findByName_applyByName_of_unique hmem hname (fun other hother heq => ?_) rules
  exact List.inj_on_of_nodup_map h hother hmem (heq.trans hname.symm)

/-! ## Changes in any order -/

/-- A change is taken up in the place of the first rule of its name. -/
theorem applyChange_eq_upsert (rules : List SecurityRule) (change : SecurityRule) :
    applyChange rules change = upsert (·.name) rules change := by
  induction rules with
  | nil => rfl
  | cons rule rules ih => rw [applyChange, upsert, ih]

/-- Whatever is there afterwards was there before or is a change. -/
theorem mem_of_mem_applyByName {rules changes : List SecurityRule} {rule : SecurityRule}
    (h : rule ∈ applyByName rules changes) : rule ∈ rules ∨ rule ∈ changes := by
  induction changes generalizing rules with
  | nil => exact .inl h
  | cons change changes ih =>
    rcases ih h with hearlier | hlater
    · rw [applyChange_eq_upsert] at hearlier
      rcases mem_of_mem_upsert hearlier with hrule | rfl
      · exact .inl hrule
      · exact .inr List.mem_cons_self
    · exact .inr (List.mem_cons_of_mem _ hlater)

/-- A rule whose name no change has stays. -/
theorem mem_applyByName_of_ne {rules changes : List SecurityRule} {rule : SecurityRule}
    (h : rule ∈ rules) (hne : ∀ change ∈ changes, change.name ≠ rule.name) :
    rule ∈ applyByName rules changes := by
  induction changes generalizing rules with
  | nil => exact h
  | cons change changes ih =>
    obtain ⟨hfirst, hrest⟩ := List.forall_mem_cons.1 hne
    have hstays : rule ∈ applyChange rules change := by
      rw [applyChange_eq_upsert]
      exact mem_upsert_of_ne h hfirst.symm
    exact ih hstays hrest

/-- A change of the name may go to the position: the first rule of the name is there, or there is none
and the position is past the end. -/
def GoesTo (rules : List SecurityRule) (name : Option String) (i : Nat) : Prop :=
  firstAt rules name = some i ∨ (firstAt rules name = none ∧ rules.length ≤ i)

/-- What is at a position after a change was there before, or is the change. -/
theorem cases_of_getElem?_applyChange {rules : List SecurityRule} {change rule : SecurityRule} {i : Nat}
    (h : (applyChange rules change)[i]? = some rule) :
    rules[i]? = some rule ∨ (rule = change ∧ GoesTo rules change.name i) := by
  cases hfirst : firstAt rules change.name with
  | some k =>
    rw [applyChange_of_firstAt hfirst, List.getElem?_set] at h
    split at h
    · rename_i hk
      obtain ⟨-, hrule⟩ := Option.ite_none_right_eq_some.1 h
      exact .inr ⟨(Option.some.inj hrule).symm, .inl (hk ▸ hfirst)⟩
    · exact .inl h
  | none =>
    rw [applyChange_of_firstAt_none hfirst] at h
    by_cases hi : i < rules.length
    · rw [List.getElem?_append_left hi] at h
      exact .inl h
    · rw [List.getElem?_append_right (Nat.le_of_not_lt hi)] at h
      have hlast := List.mem_singleton.1 (List.mem_of_getElem? h)
      exact .inr ⟨hlast, .inr ⟨hfirst, Nat.le_of_not_lt hi⟩⟩

/-- Where a change may go after another one, it may go before. -/
theorem GoesTo.of_applyChange {rules : List SecurityRule} {change : SecurityRule} {name : Option String}
    {i : Nat} (h : GoesTo (applyChange rules change) name i) : GoesTo rules name i := by
  cases hfirst : firstAt rules change.name with
  | some k =>
    rw [GoesTo, applyChange_of_firstAt hfirst, firstAt_set hfirst, List.length_set] at h
    exact h
  | none =>
    rw [applyChange_of_firstAt_none hfirst] at h
    by_cases hname : change.name = name
    · -- The name is new, so the first rule of it is the change at the end.
      subst hname
      refine .inr ⟨hfirst, Nat.le_of_not_lt fun hi => ?_⟩
      rcases h with hthere | ⟨-, hlength⟩
      · obtain ⟨⟨there, hthere, hsame⟩, -⟩ := firstAt_eq_some_iff.1 hthere
        rw [List.getElem?_append_left hi] at hthere
        exact firstAt_eq_none_iff.1 hfirst there (List.mem_of_getElem? hthere) hsame
      · rw [List.length_append] at hlength
        omega
    · rw [GoesTo, firstAt_concat_of_ne hname, List.length_append] at h
      exact h.imp_right fun hnew => ⟨hnew.1, by omega⟩

/-- What is at a position after changes, in any order and with repeats, was there before, or is a change
that may go there. -/
theorem cases_of_getElem?_applyByName {rules changes : List SecurityRule} {i : Nat}
    {rule : SecurityRule} (h : (applyByName rules changes)[i]? = some rule) :
    rules[i]? = some rule ∨ (rule ∈ changes ∧ GoesTo rules rule.name i) := by
  induction changes generalizing rules with
  | nil => exact .inl h
  | cons change changes ih =>
    rcases @ih (applyChange rules change) h with hearlier | ⟨hmem, hplace⟩
    · rcases cases_of_getElem?_applyChange hearlier with hthere | ⟨rfl, hplace⟩
      · exact .inl hthere
      · exact .inr ⟨List.mem_cons_self, hplace⟩
    · exact .inr ⟨List.mem_cons_of_mem _ hmem, hplace.of_applyChange⟩

theorem length_le_applyByName (rules changes : List SecurityRule) :
    rules.length ≤ (applyByName rules changes).length := by
  induction changes generalizing rules with
  | nil => exact Nat.le_refl _
  | cons change changes ih =>
    refine Nat.le_trans ?_ (ih (applyChange rules change))
    cases hfirst : firstAt rules change.name with
    | some k =>
      rw [applyChange_of_firstAt hfirst]
      exact Nat.le_of_eq List.length_set.symm
    | none =>
      rw [applyChange_of_firstAt_none hfirst, List.length_append]
      exact Nat.le_add_right _ _

end NodeLedger.Policy
