import NodeLedger.Policy.Ports
import NodeLedger.Proofs.Sequence
import NodeLedger.Proofs.Text.Integer

/-!
# Port texts and what they stand for

A port text stands for every port, for one port or for a range of two, and `bounds` reads it by its
token: by what is left of the text when the blanks at its ends are taken off.

- `StandsFor`: what a port token stands for. `bounds_eq_ok_iff`: **`bounds` reads exactly that**.
- `Legible`: ports that a text can ask for. `bounds_of_legible`: **they are read back when printed**.
- `portRange`: two ports in text.
- `bounds_decimal`, `bounds_portRange`: **printed ports are read back**.
- `samePorts_decimal_iff`, `samePorts_portRange_decimal`: what asks for the same ports as one port.
-/

namespace NodeLedger.Policy

open Text

/-! ## Tokens -/

/-- The token stands for these bounds. The first dash of a token is the one of a range, so that the
lowest port cannot have a minus and the highest one can. -/
inductive StandsFor : List Char → Option (Int × Int) → Prop
  /-- No text and the wildcard stand for every port. -/
  | every {token : List Char} : token = [] ∨ token = allPorts.toList → StandsFor token none
  /-- A number without a minus stands for one port. -/
  | port {token : List Char} {n : Int} : '-' ∉ token →
    readInteger (String.ofList token) = .ok n → StandsFor token (some (n, n))
  /-- Two numbers with a dash between them stand for a range. -/
  | range {low high : List Char} {m n : Int} : '-' ∉ low →
    readInteger (String.ofList low) = .ok m → readInteger (String.ofList high) = .ok n →
    StandsFor (low ++ '-' :: high) (some (m, n))

section

variable {ports : String} {cs : List Char} {limits : Option (Int × Int)} {m n : Int}

/-- Text that holds a number asks for no wildcard. -/
theorem ne_every_of_readInteger (h : readInteger (String.ofList cs) = .ok n) :
    ¬ (cs = [] ∨ cs = allPorts.toList) := by
  rw [readInteger_eq_ok_iff, String.toList_ofList] at h
  rintro (rfl | rfl)
  · exact h.ne_nil rfl
  · exact absurd (h.parts '*' List.mem_cons_self) (by decide)

theorem ne_every_of_dash (h : '-' ∈ cs) : ¬ (cs = [] ∨ cs = allPorts.toList) := by
  rintro (rfl | rfl)
  · exact List.not_mem_nil h
  · exact absurd h (by decide)

theorem standsFor_of_bounds (h : bounds ports = .ok limits) :
    StandsFor (stripChars ports.toList) limits := by
  rw [bounds] at h
  generalize stripChars ports.toList = token at h
  split at h
  · rename_i hevery
    rw [Bool.or_eq_true, beq_iff_eq, beq_iff_eq] at hevery
    cases h
    exact .every hevery
  split at h
  · rename_i low high hcut
    obtain ⟨m, hlow, h⟩ := exists_of_bind_eq_ok h
    obtain ⟨n, hhigh, h⟩ := exists_of_bind_eq_ok h
    cases h
    rw [eq_append_of_cutAt? hcut]
    exact .range (notMem_of_cutAt? hcut) hlow hhigh
  · rename_i hcut
    obtain ⟨n, hport, h⟩ := exists_of_bind_eq_ok h
    cases h
    exact .port (notMem_of_cutAt?_eq_none hcut) hport

theorem bounds_of_standsFor (h : StandsFor (stripChars ports.toList) limits) :
    bounds ports = .ok limits := by
  rw [bounds]
  generalize stripChars ports.toList = token at h
  cases h with
  | every hevery =>
    rw [if_pos]
    rwa [Bool.or_eq_true, beq_iff_eq, beq_iff_eq]
  | port hdash hport =>
    rw [if_neg, cutAt?_of_notMem hdash, hport]
    · rfl
    · rw [Bool.or_eq_true, beq_iff_eq, beq_iff_eq]
      exact ne_every_of_readInteger hport
  | range hdash hlow hhigh =>
    rw [if_neg, cutAt?_append_cons hdash]
    · dsimp only
      rw [hlow, hhigh]
      rfl
    · rw [Bool.or_eq_true, beq_iff_eq, beq_iff_eq]
      exact ne_every_of_dash (List.mem_append_right _ List.mem_cons_self)

/-- **The bounds of a port text are what its token stands for.** -/
theorem bounds_eq_ok_iff : bounds ports = .ok limits ↔ StandsFor (stripChars ports.toList) limits :=
  ⟨standsFor_of_bounds, bounds_of_standsFor⟩

/-! ## Numerals in port text -/

/-- Text without blanks is a token as it stands. -/
theorem stripChars_of_forall (h : ∀ c ∈ cs, isBlank c = false) : stripChars cs = cs :=
  trimBy_of_ends (fun c hc => h c (List.mem_of_head? hc)) fun c hc => h c (List.mem_of_getLast? hc)

theorem isBlank_range {low high : List Char} (hlow : ∀ c ∈ low, isBlank c = false)
    (hhigh : ∀ c ∈ high, isBlank c = false) : ∀ c ∈ low ++ '-' :: high, isBlank c = false := by
  intro c hc
  rcases List.mem_append.1 hc with hc | hc
  · exact hlow c hc
  rcases List.mem_cons.1 hc with rfl | hc
  · decide
  · exact hhigh c hc

theorem readInteger_ofList (h : Numeral cs n) : readInteger (String.ofList cs) = .ok n :=
  readInteger_of_numeral (String.toList_ofList.symm ▸ h)

/-- One numeral is read as the lowest and the highest port. -/
theorem bounds_numeral (hdash : '-' ∉ cs) (h : Numeral cs n) :
    bounds (String.ofList cs) = .ok (some (n, n)) := by
  rw [bounds_eq_ok_iff, String.toList_ofList, stripChars_of_forall h.isBlank_eq_false]
  exact .port hdash (readInteger_ofList h)

/-- Two numerals are read as a range. -/
theorem bounds_numerals {low high : List Char} (hdash : '-' ∉ low) (hlow : Numeral low m)
    (hhigh : Numeral high n) : bounds (String.ofList (low ++ '-' :: high)) = .ok (some (m, n)) := by
  rw [bounds_eq_ok_iff, String.toList_ofList,
    stripChars_of_forall (isBlank_range hlow.isBlank_eq_false hhigh.isBlank_eq_false)]
  exact .range hdash (readInteger_ofList hlow) (readInteger_ofList hhigh)

end

/-! ## Integers as ports -/

theorem dash_notMem_decimal (n : Nat) : '-' ∉ decimal n := by
  intro h
  exact absurd (isAsciiDigit_of_mem_decimal h) (by decide)

/-- Ports that a text can ask for. The lowest one has no minus, and either can be printed within the
digit limit, since it was written within that limit before. -/
structure Legible (low high : Int) : Prop where
  nonneg : 0 ≤ low
  low : Numeral (integer low).toList low
  high : Numeral (integer high).toList high

section

variable {ports : String} {cs : List Char} {low high n : Int}

theorem numeral_integer_of_readInteger (h : readInteger (String.ofList cs) = .ok n) :
    Numeral (integer n).toList n :=
  numeral_integer (readInteger_eq_ok_iff.1 h).length_decimal_le

theorem nonneg_of_readInteger (hdash : '-' ∉ cs) (h : readInteger (String.ofList cs) = .ok n) :
    0 ≤ n := by
  rw [readInteger_eq_ok_iff, String.toList_ofList] at h
  exact h.nonneg fun hmem => hdash (mem_of_mem_trimBy hmem)

/-- **What is read from a text can be printed.** -/
theorem legible_of_bounds (h : bounds ports = .ok (some (low, high))) : Legible low high := by
  rw [bounds_eq_ok_iff] at h
  generalize stripChars ports.toList = token at h
  cases h with
  | port hdash hport =>
    have hnumeral := numeral_integer_of_readInteger hport
    exact ⟨nonneg_of_readInteger hdash hport, hnumeral, hnumeral⟩
  | range hdash hlow hhigh =>
    exact ⟨nonneg_of_readInteger hdash hlow, numeral_integer_of_readInteger hlow,
      numeral_integer_of_readInteger hhigh⟩

/-- **Printed bounds are read back**, also with a minus at the highest port. -/
theorem bounds_of_legible (h : Legible low high) :
    bounds (if low = high then integer low else s!"{integer low}-{integer high}")
      = .ok (some (low, high)) := by
  have hdash : '-' ∉ (integer low).toList := by
    rw [toList_integer, if_neg (Int.not_lt.2 h.nonneg)]
    exact dash_notMem_decimal _
  split
  · rename_i heq
    rw [← heq, ← String.ofList_toList (s := integer low)]
    exact bounds_numeral hdash h.low
  · have htext : s!"{integer low}-{integer high}"
        = String.ofList ((integer low).toList ++ '-' :: (integer high).toList) := by
      show integer low ++ "-" ++ integer high = _
      refine String.toList_injective ?_
      rw [String.toList_append, String.toList_append, List.append_assoc]
      exact String.toList_ofList.symm
    rw [htext]
    exact bounds_numerals hdash h.low h.high

end

/-! ## Printed ports -/

/-- A range of ports in text. -/
def portRange (low high : Nat) : String :=
  String.ofList (decimal low ++ '-' :: decimal high)

section

variable {low high n : Nat}

theorem isBlank_decimal (n : Nat) : ∀ c ∈ decimal n, isBlank c = false :=
  fun _ hc => isBlank_of_isAsciiDigit (isAsciiDigit_of_mem_decimal hc)

theorem stripChars_decimal (n : Nat) : stripChars (decimal n) = decimal n :=
  stripChars_of_forall (isBlank_decimal n)

theorem stripChars_portRange (low high : Nat) :
    stripChars (decimal low ++ '-' :: decimal high) = decimal low ++ '-' :: decimal high :=
  stripChars_of_forall (isBlank_range (isBlank_decimal low) (isBlank_decimal high))

/-- Text that holds a digit asks for no wildcard. -/
theorem ne_allPorts_of_mem {cs : List Char} {c : Char} (hc : isAsciiDigit c = true) (h : c ∈ cs) :
    cs ≠ allPorts.toList := by
  rintro rfl
  have hstar : c ∈ ['*'] := h
  rw [List.mem_singleton] at hstar
  subst hstar
  exact absurd hc (by decide)

theorem exists_mem_decimal (n : Nat) : ∃ c ∈ decimal n, isAsciiDigit c = true := by
  obtain ⟨c, hc⟩ := List.exists_mem_of_ne_nil _ (decimal_ne_nil n)
  exact ⟨c, hc, isAsciiDigit_of_mem_decimal hc⟩

theorem beq_nil_decimal (n : Nat) : (decimal n == []) = false :=
  beq_false_of_ne (decimal_ne_nil n)

theorem beq_allPorts_decimal (n : Nat) : (decimal n == allPorts.toList) = false := by
  obtain ⟨c, hc, hdigit⟩ := exists_mem_decimal n
  exact beq_false_of_ne (ne_allPorts_of_mem hdigit hc)

/-- **One port is read back** as the lowest and the highest port. -/
theorem bounds_decimal (h : (decimal n).length ≤ digitLimit) :
    bounds (String.ofList (decimal n)) = .ok (some ((n : Int), (n : Int))) :=
  bounds_numeral (dash_notMem_decimal n) (numeral_decimal h)

/-- **Two ports are read back.** -/
theorem bounds_portRange (hlow : (decimal low).length ≤ digitLimit)
    (hhigh : (decimal high).length ≤ digitLimit) :
    bounds (portRange low high) = .ok (some ((low : Int), (high : Int))) :=
  bounds_numerals (dash_notMem_decimal low) (numeral_decimal hlow) (numeral_decimal hhigh)

/-! ## Same ports -/

/-- One port is spelled as it is printed. -/
theorem portSpelling_decimal (n : Nat) : portSpelling (String.ofList (decimal n)) = decimal n := by
  have hwide : ∀ cs : List Char, '-' ∈ cs → (decimal n == cs) = false := by
    intro cs hcs
    refine beq_false_of_ne ?_
    rintro rfl
    exact dash_notMem_decimal n hcs
  rw [portSpelling, String.toList_ofList, stripChars_decimal]
  simp only [beq_nil_decimal, beq_allPorts_decimal, hwide "0-65535".toList (by decide),
    hwide "1-65535".toList (by decide), Bool.or_self, Bool.false_eq_true, if_false,
    cutAt?_of_notMem (dash_notMem_decimal n)]

/-- A range of two ports is spelled as it is printed, unless it stands for every port. -/
theorem portSpelling_portRange (h : low ≠ high) :
    portSpelling (portRange low high) = allPorts.toList ∨
      portSpelling (portRange low high) = decimal low ++ '-' :: decimal high := by
  have hne : ¬ (stripChars (decimal low) == stripChars (decimal high)) = true := by
    rw [stripChars_decimal, stripChars_decimal, beq_iff_eq, decimal_inj]
    exact h
  rw [portSpelling, portRange, String.toList_ofList, stripChars_portRange]
  split
  · exact .inl rfl
  · rw [cutAt?_append_cons (dash_notMem_decimal low)]
    dsimp only
    rw [if_neg hne]
    exact .inr rfl

theorem samePorts_decimal_iff :
    samePorts (String.ofList (decimal low)) (String.ofList (decimal n)) = true ↔ low = n := by
  rw [samePorts, portSpelling_decimal, portSpelling_decimal, beq_iff_eq, decimal_inj]

/-- No range of two ports asks for the same ports as one port. -/
theorem samePorts_portRange_decimal (h : low ≠ high) (n : Nat) :
    samePorts (portRange low high) (String.ofList (decimal n)) = false := by
  rw [samePorts, portSpelling_decimal]
  refine beq_false_of_ne fun heq => ?_
  rcases portSpelling_portRange h with hall | hrange
  · obtain ⟨c, hc, hdigit⟩ := exists_mem_decimal n
    rw [hall] at heq
    exact ne_allPorts_of_mem hdigit hc heq.symm
  · have hdash : '-' ∈ decimal low ++ '-' :: decimal high :=
      List.mem_append_right _ List.mem_cons_self
    rw [hrange] at heq
    exact dash_notMem_decimal n (heq ▸ hdash)

end

end NodeLedger.Policy
