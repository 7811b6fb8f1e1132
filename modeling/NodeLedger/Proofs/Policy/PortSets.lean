import NodeLedger.Proofs.Policy.Ports

/-!
# Port texts that ask for the same ports

Port texts are compared by their spelling, and read by their bounds. The spelling drops blanks, names
the two ranges up to the highest port like the wildcard, and a range with equal ends like one port;
apart from that it knows a number by its digits only, so that `80` and `080` are spelled differently.
The comparison is sound all the same, since a text is read like its spelling, and it is complete for
ports as they are printed, which have one spelling for each set of ports.

- `EveryPort`, `SameBounds`: bounds that cover the same ports.
- `cases_of_portSpelling`: **a text is read like its spelling**, unless that covers every port.
- `portSpelling_of_printed`: printed ports are spelled by their bounds.
- `samePorts_agrees_with_bounds`: **texts that ask for the same ports have the same bounds, and
  printed ports with the same bounds ask for the same ports.**
-/

namespace NodeLedger.Policy

open Text

/-- Bounds that cover every port. Port 0 is no port that anything listens on, so that a range may
start at it or behind it. -/
def EveryPort (limits : Option (Int × Int)) : Prop :=
  limits = none ∨ limits = some (0, 65535) ∨ limits = some (1, 65535)

instance : DecidablePred EveryPort := fun _ => inferInstanceAs (Decidable (_ ∨ _ ∨ _))

/-- Bounds that cover the same ports: equal ones, or two that cover every port. -/
def SameBounds (x y : Option (Int × Int)) : Prop :=
  x = y ∨ EveryPort x ∧ EveryPort y

section

variable {a b ports : String} {x y limits : Option (Int × Int)} {low high m n : Nat}

/-! ## Sound -/

/-- The token of a text stands for what the text is read as. -/
theorem eq_of_standsFor (h : bounds ports = .ok limits) (hx : StandsFor (stripChars ports.toList) x) :
    limits = x := by
  rw [bounds_eq_ok_iff.2 hx] at h
  exact (Except.ok.inj h).symm

theorem everyPort_of_token (h : bounds ports = .ok limits)
    (htoken : (stripChars ports.toList == [] || stripChars ports.toList == allPorts.toList
      || stripChars ports.toList == "0-65535".toList
      || stripChars ports.toList == "1-65535".toList) = true) : EveryPort limits := by
  rw [Bool.or_eq_true, Bool.or_eq_true, Bool.or_eq_true, beq_iff_eq, beq_iff_eq, beq_iff_eq,
    beq_iff_eq] at htoken
  rcases htoken with (hevery | hzero) | hone
  · exact .inl (eq_of_standsFor h (.every hevery))
  · refine .inr (.inl (eq_of_standsFor h ?_))
    have hends : "0-65535".toList = ['0'] ++ '-' :: "65535".toList := by decide
    rw [hzero, hends]
    exact .range (by decide) (by decide) (by decide)
  · refine .inr (.inr (eq_of_standsFor h ?_))
    have hends : "1-65535".toList = ['1'] ++ '-' :: "65535".toList := by decide
    rw [hone, hends]
    exact .range (by decide) (by decide) (by decide)

/-- A token with a dash stands for a range. -/
theorem StandsFor.of_cutAt? {token front back : List Char} (h : StandsFor token limits)
    (hcut : cutAt? '-' token = some (front, back)) :
    ∃ m n, readInteger (String.ofList front) = .ok m ∧ readInteger (String.ofList back) = .ok n ∧
      limits = some (m, n) := by
  have hdash : '-' ∈ token := by
    rw [eq_append_of_cutAt? hcut]
    exact List.mem_append_right _ List.mem_cons_self
  cases h with
  | every hevery => exact absurd hevery (ne_every_of_dash hdash)
  | port hnone => exact absurd hdash hnone
  | range hlow hm hn =>
    rw [cutAt?_append_cons hlow] at hcut
    cases hcut
    exact ⟨_, _, hm, hn, rfl⟩

/-- A text is read like its spelling, unless it covers every port and is spelled like that. -/
theorem cases_of_portSpelling (h : bounds ports = .ok limits) :
    (portSpelling ports = allPorts.toList ∧ EveryPort limits) ∨
      (portSpelling ports ≠ allPorts.toList ∧
        bounds (String.ofList (portSpelling ports)) = .ok limits) := by
  rw [portSpelling]
  split
  · rename_i htoken
    exact .inl ⟨rfl, everyPort_of_token h htoken⟩
  rename_i htoken
  have hread := bounds_eq_ok_iff.1 h
  have htrim := stripChars_stripChars ports.toList
  generalize stripChars ports.toList = token at htoken hread htrim
  have hall : token ≠ allPorts.toList := by
    rintro rfl
    exact htoken (by decide)
  have hself : bounds (String.ofList token) = .ok limits := by
    rw [bounds_eq_ok_iff, String.toList_ofList, htrim]
    exact hread
  split
  · rename_i low high hcut
    split
    · rename_i hends
      rw [beq_iff_eq] at hends
      obtain ⟨m, n, hm, hn, rfl⟩ := hread.of_cutAt? hcut
      have hlow := readInteger_stripChars hm
      have hhigh := readInteger_stripChars hn
      rw [← hends, hlow] at hhigh
      cases hhigh
      have hdash : '-' ∉ stripChars low := fun hmem =>
        notMem_of_cutAt? hcut (mem_of_mem_trimBy hmem)
      have hone : bounds (String.ofList (stripChars low)) = .ok (some (m, m)) := by
        rw [bounds_eq_ok_iff, String.toList_ofList, stripChars_stripChars]
        exact .port hdash hlow
      exact .inr ⟨fun heq => ne_every_of_readInteger hlow (.inr heq), hone⟩
    · exact .inr ⟨hall, hself⟩
  · exact .inr ⟨hall, hself⟩

/-- What asks for the same ports has the same bounds. -/
theorem sameBounds_of_samePorts (ha : bounds a = .ok x) (hb : bounds b = .ok y)
    (h : samePorts a b = true) : SameBounds x y := by
  rw [samePorts, beq_iff_eq] at h
  rcases cases_of_portSpelling ha with ⟨hall, hx⟩ | ⟨hne, hx⟩
  · rcases cases_of_portSpelling hb with ⟨-, hy⟩ | ⟨hne, -⟩
    · exact .inr ⟨hx, hy⟩
    · exact absurd (h.symm.trans hall) hne
  · rcases cases_of_portSpelling hb with ⟨hall, -⟩ | ⟨-, hy⟩
    · exact absurd (h.trans hall) hne
    · rw [h, hy] at hx
      exact .inl (Except.ok.inj hx).symm

/-! ## Complete for printed ports -/

/-- Ports as they are printed: the wildcard, one port and a range of two. -/
inductive Printed : String → Prop
  /-- The wildcard. -/
  | every : Printed allPorts
  /-- One port. -/
  | port (n : Nat) : Printed (String.ofList (decimal n))
  /-- Two ports with a dash between them. -/
  | range (low high : Nat) : Printed (portRange low high)

/-- The spelling of bounds: the wildcard for every port, and a range of one port like the port. -/
def boundsSpelling (limits : Option (Int × Int)) : List Char :=
  if EveryPort limits then allPorts.toList
  else
    match limits with
    | none => allPorts.toList
    | some (low, high) =>
      if low = high then decimal low.natAbs else decimal low.natAbs ++ '-' :: decimal high.natAbs

theorem everyPort_some_iff :
    EveryPort (some ((m : Int), (n : Int))) ↔ (m = 0 ∨ m = 1) ∧ n = 65535 := by
  simp only [EveryPort, reduceCtorEq, false_or, Option.some.injEq, Prod.mk.injEq]
  omega

theorem boundsSpelling_of_everyPort (h : EveryPort limits) :
    boundsSpelling limits = allPorts.toList :=
  if_pos h

theorem boundsSpelling_port (n : Nat) : boundsSpelling (some ((n : Int), (n : Int))) = decimal n := by
  have hnot : ¬ EveryPort (some ((n : Int), (n : Int))) := by
    rw [everyPort_some_iff]
    omega
  rw [boundsSpelling, if_neg hnot, if_pos rfl, Int.natAbs_natCast]

theorem eq_of_bounds_decimal (h : bounds (String.ofList (decimal n)) = .ok limits) :
    limits = some ((n : Int), (n : Int)) := by
  rw [bounds_eq_ok_iff, String.toList_ofList, stripChars_decimal] at h
  generalize htext : decimal n = cs at h
  cases h with
  | every hevery =>
    rcases hevery with hnil | hall
    · exact absurd (htext.trans hnil) (decimal_ne_nil n)
    · obtain ⟨c, hc, hdigit⟩ := exists_mem_decimal n
      exact absurd (htext.trans hall) (ne_allPorts_of_mem hdigit hc)
  | port hdash hport =>
    rw [← htext, readInteger_decimal_iff] at hport
    rw [hport.2]
  | range hdash hlow hhigh =>
    refine absurd ?_ (dash_notMem_decimal n)
    rw [htext]
    exact List.mem_append_right _ List.mem_cons_self

theorem eq_of_bounds_portRange (h : bounds (portRange low high) = .ok limits) :
    limits = some ((low : Int), (high : Int)) := by
  rw [bounds_eq_ok_iff, portRange, String.toList_ofList, stripChars_portRange] at h
  obtain ⟨m, n, hm, hn, rfl⟩ := h.of_cutAt? (cutAt?_append_cons (dash_notMem_decimal low) _)
  rw [readInteger_decimal_iff] at hm hn
  rw [hm.2, hn.2]

theorem portSpelling_of_bounds_portRange (h : bounds (portRange low high) = .ok limits) :
    portSpelling (portRange low high) = boundsSpelling limits := by
  have hevery := everyPort_of_token h
  obtain rfl := eq_of_bounds_portRange h
  rw [portRange, String.toList_ofList, stripChars_portRange] at hevery
  rw [portSpelling, portRange, String.toList_ofList, stripChars_portRange, boundsSpelling]
  split
  · rename_i htoken
    exact (if_pos (hevery htoken)).symm
  rename_i htoken
  have hnot : ¬ EveryPort (some ((low : Int), (high : Int))) := by
    rw [everyPort_some_iff]
    rintro ⟨rfl | rfl, rfl⟩
    · exact htoken (by decide)
    · exact htoken (by decide)
  rw [if_neg hnot, cutAt?_append_cons (dash_notMem_decimal low)]
  dsimp only
  rw [stripChars_decimal, stripChars_decimal, Int.natAbs_natCast, Int.natAbs_natCast]
  by_cases hone : low = high
  · rw [hone, if_pos (beq_self_eq_true _), if_pos rfl]
  · have hdecimal : ¬ (decimal low == decimal high) = true := by
      rwa [beq_iff_eq, decimal_inj]
    rw [if_neg hdecimal, if_neg fun heq => hone (Int.ofNat_inj.1 heq)]

/-- **Printed ports are spelled by their bounds.** -/
theorem portSpelling_of_printed (hprinted : Printed ports) (h : bounds ports = .ok limits) :
    portSpelling ports = boundsSpelling limits := by
  cases hprinted with
  | every =>
    cases h
    rfl
  | port n =>
    obtain rfl := eq_of_bounds_decimal h
    rw [portSpelling_decimal, boundsSpelling_port]
  | range low high => exact portSpelling_of_bounds_portRange h

theorem boundsSpelling_congr (h : SameBounds x y) : boundsSpelling x = boundsSpelling y := by
  rcases h with rfl | ⟨hx, hy⟩
  · rfl
  · rw [boundsSpelling_of_everyPort hx, boundsSpelling_of_everyPort hy]

/-- **Texts that ask for the same ports have the same bounds, and printed ports with the same bounds
ask for the same ports.** -/
theorem samePorts_agrees_with_bounds (ha : bounds a = .ok x) (hb : bounds b = .ok y) :
    (samePorts a b = true → SameBounds x y) ∧
      (Printed a → Printed b → SameBounds x y → samePorts a b = true) := by
  constructor
  · exact sameBounds_of_samePorts ha hb
  · intro hpa hpb hsame
    rw [samePorts, beq_iff_eq, portSpelling_of_printed hpa ha, portSpelling_of_printed hpb hb]
    exact boundsSpelling_congr hsame

/-- The range of every port and the wildcard ask for the same ports, with different bounds. -/
theorem samePorts_everyPort :
    bounds "0-65535" = .ok (some (0, 65535)) ∧ bounds "*" = .ok none ∧
      SameBounds (some (0, 65535)) none ∧ samePorts "0-65535" "*" = true := by
  have hrange : bounds "0-65535" = .ok (some (0, 65535)) := by decide
  have hall : bounds "*" = .ok none := by decide
  have hsame : SameBounds (some (0, 65535)) none := .inr ⟨.inr (.inl rfl), .inl rfl⟩
  exact ⟨hrange, hall, hsame,
    (samePorts_agrees_with_bounds hrange hall).2 (.range 0 65535) .every hsame⟩

end

end NodeLedger.Policy
