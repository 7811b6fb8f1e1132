import Mathlib.Data.List.Sort
import NodeLedger.Address.Search
import NodeLedger.Proofs.Address.Host

/-!
# Which address is found in a text

The search tries the octets that a place starts with, the longest first, and goes back to a shorter one
where no dot follows. An octet holds no dot, so at most one of them has a dot behind it: only the last
octet of an address is open, and there the longest one wins. So what is found at a place is the longest
address there, and it is found at the first place where there is one.

- `Dotted`: octets joined by dots, as they are written.
- `mem_octetStarts_iff`: the octets that a text starts with.
- `octetShapes`, `octetStarts_eq_filterMap`: **they are found by trying the shapes of an octet in their
  order**; two shapes of one length exclude each other.
- `LongestStart`, `longestStart_of_startingV4`: **the search at one place finds the longest address
  there**.
- `findV4_leftmost_longest`: **the first place that has an address, and the longest address there**.
-/

namespace NodeLedger.Address

open Text

/-! ## Octets -/

/-- One octet and so many dotted ones after it: decimal numbers up to 255 without leading zeros. -/
def Dotted (dots : Nat) (cs : List Char) : Prop :=
  ∃ octets : List Nat, octets.length = dots + 1 ∧ (∀ n ∈ octets, n ≤ 255) ∧
    cs = joinFields ['.'] (octets.map decimal)

section Octets

variable {cs octet rest : List Char} {dots : Nat}

theorem isSome_octet?_iff : (octet? octet).isSome = true ↔ Dotted 0 octet := by
  constructor
  · intro h
    obtain ⟨n, hn⟩ := Option.isSome_iff_exists.1 h
    exact ⟨[n], rfl, List.forall_mem_singleton.2 (octet?_bound hn), (decimal_of_octet? hn).symm⟩
  · rintro ⟨octets, hlength, hbound, rfl⟩
    obtain ⟨n, rfl⟩ := List.length_eq_one_iff.1 hlength
    rw [List.map_singleton, joinFields, octet?_decimal (hbound n (List.mem_singleton_self n)),
      Option.isSome_some]

/-- An octet comes first, and then the others after a dot. -/
theorem dotted_succ_iff :
    Dotted (dots + 1) cs ↔
      ∃ octet rest, Dotted 0 octet ∧ Dotted dots rest ∧ cs = octet ++ '.' :: rest := by
  constructor
  · rintro ⟨octets, hlength, hbound, rfl⟩
    obtain ⟨n, octets, rfl⟩ := List.exists_cons_of_length_eq_add_one hlength
    obtain ⟨hn, hbound⟩ := List.forall_mem_cons.1 hbound
    have hlength : octets.length = dots + 1 := Nat.succ_inj.1 hlength
    obtain ⟨m, others, rfl⟩ := List.exists_cons_of_length_eq_add_one hlength
    exact ⟨decimal n, _, ⟨[n], rfl, List.forall_mem_singleton.2 hn, rfl⟩,
      ⟨m :: others, hlength, hbound, rfl⟩, List.append_assoc ..⟩
  · rintro ⟨octet, rest, ⟨first, hfirst, hn, rfl⟩, ⟨octets, hlength, hbound, rfl⟩, rfl⟩
    obtain ⟨n, rfl⟩ := List.length_eq_one_iff.1 hfirst
    obtain ⟨m, others, rfl⟩ := List.exists_cons_of_length_eq_add_one hlength
    exact ⟨n :: m :: others, congrArg Nat.succ hlength,
      List.forall_mem_cons.2 ⟨hn n (List.mem_singleton_self n), hbound⟩,
      (List.append_assoc (decimal n) ['.'] _).symm⟩

theorem Dotted.ne_nil (h : Dotted dots cs) : cs ≠ [] := by
  cases dots with
  | zero =>
    rintro rfl
    exact absurd (isSome_octet?_iff.2 h) (by decide)
  | succ dots =>
    obtain ⟨octet, rest, -, -, rfl⟩ := dotted_succ_iff.1 h
    exact List.append_ne_nil_of_right_ne_nil _ (List.cons_ne_nil _ _)

theorem Dotted.dot_notMem (h : Dotted 0 octet) : '.' ∉ octet := by
  intro hdot
  obtain ⟨n, hn⟩ := Option.isSome_iff_exists.1 (isSome_octet?_iff.2 h)
  exact absurd (isAsciiDigit_of_octet? hn hdot) (by decide)

theorem Dotted.length_mem (h : Dotted 0 octet) : octet.length ∈ [3, 2, 1] := by
  have hne : 0 < octet.length := List.length_pos_of_ne_nil h.ne_nil
  obtain ⟨n, hn⟩ := Option.isSome_iff_exists.1 (isSome_octet?_iff.2 h)
  have hshort : octet.length ≤ 3 := by
    rw [← decimal_of_octet? hn]
    exact (length_decimal_le_iff (by decide)).2 (Nat.lt_of_le_of_lt (octet?_bound hn) (by decide))
  simp only [List.mem_cons, List.not_mem_nil, or_false]
  omega

/-! ## The octets that a text starts with -/

/-- An octet of so many characters at the front of a text. -/
theorem octetStart_eq_some_iff {n : Nat} :
    (if (cs.take n).length == n && (octet? (cs.take n)).isSome then some (cs.take n, cs.drop n)
      else none) = some (octet, rest) ↔ octet.length = n ∧ Dotted 0 octet ∧ cs = octet ++ rest := by
  rw [Option.ite_none_right_eq_some, Bool.and_eq_true, beq_iff_eq, isSome_octet?_iff,
    Option.some.injEq, Prod.mk.injEq]
  constructor
  · rintro ⟨⟨hlength, hoctet⟩, rfl, rfl⟩
    exact ⟨hlength, hoctet, (List.take_append_drop n cs).symm⟩
  · rintro ⟨rfl, hoctet, rfl⟩
    rw [List.take_left, List.drop_left]
    exact ⟨⟨rfl, hoctet⟩, rfl, rfl⟩

theorem mem_octetStarts_iff : (octet, rest) ∈ octetStarts cs ↔ Dotted 0 octet ∧ cs = octet ++ rest := by
  rw [octetStarts, List.mem_filterMap]
  constructor
  · rintro ⟨n, -, hstart⟩
    exact (octetStart_eq_some_iff.1 hstart).2
  · rintro ⟨hoctet, heq⟩
    exact ⟨octet.length, hoctet.length_mem, octetStart_eq_some_iff.2 ⟨rfl, hoctet, heq⟩⟩

/-- The longest one comes first. -/
theorem pairwise_octetStarts (cs : List Char) :
    (octetStarts cs).Pairwise fun start other => other.1.length < start.1.length := by
  have hlengths : [3, 2, 1].Pairwise (fun n m : Nat => m < n) := by decide
  refine hlengths.filterMap _ fun n m hlt start hstart other hother => ?_
  rw [(octetStart_eq_some_iff.1 hstart).1, (octetStart_eq_some_iff.1 hother).1]
  exact hlt

end Octets

/-! ## The shapes of an octet -/

/-- The shapes of an octet, each by the first and the last character at its places, in the order in
which they are tried. -/
def octetShapes : List (List (Char × Char)) :=
  [[('2', '2'), ('5', '5'), ('0', '5')], [('2', '2'), ('0', '4'), ('0', '9')],
    [('1', '1'), ('0', '9'), ('0', '9')], [('1', '9'), ('0', '9')], [('0', '9')]]

/-- The text has a character at every place of the shape, and no more. -/
def fits : (shape : List (Char × Char)) → List Char → Bool
  | [], [] => true
  | (first, last) :: shape, c :: cs =>
    (first.toNat ≤ c.toNat && c.toNat ≤ last.toNat) && fits shape cs
  | _, _ => false

/-- The text of a shape at the front of a text, with the rest. -/
def shapeStart? (cs : List Char) (shape : List (Char × Char)) : Option (List Char × List Char) :=
  if fits shape (cs.take shape.length) then some (cs.take shape.length, cs.drop shape.length)
  else none

/-- At some place the shapes have no character in common. -/
def apart : (shape other : List (Char × Char)) → Bool
  | (first, last) :: shape, (first', last') :: other =>
    last.toNat < first'.toNat || last'.toNat < first.toNat || apart shape other
  | _, _ => false

section Shapes

variable {shape other : List (Char × Char)} {cs octet rest : List Char}

theorem length_eq_of_fits (h : fits shape cs = true) : cs.length = shape.length := by
  fun_induction fits shape cs with
  | case1 => rfl
  | case2 first last shape c cs ih => exact congrArg Nat.succ (ih (Bool.and_eq_true_iff.1 h).2)
  | case3 => cases h

theorem fits_eq_false_of_apart (hapart : apart shape other = true) (h : fits shape cs = true) :
    fits other cs = false := by
  fun_induction apart shape other generalizing cs with
  | case1 first last shape first' last' other ih =>
    cases cs with
    | nil => rfl
    | cons c cs =>
      simp only [fits, Bool.and_eq_true, decide_eq_true_eq] at h
      simp only [Bool.or_eq_true, decide_eq_true_eq] at hapart
      rcases hapart with (hbelow | habove) | hlater
      · have hnot : ¬ first'.toNat ≤ c.toNat := by omega
        simp [fits, hnot]
      · have hnot : ¬ c.toNat ≤ last'.toNat := by omega
        simp [fits, hnot]
      · rw [fits, ih hlater h.2, Bool.and_false]
  | case2 => cases hapart

theorem eq_zero_iff_toNat {c : Char} : c = '0' ↔ c.toNat = 48 := by
  rw [← Char.toNat_inj]
  rfl

/-- An octet is a text of one of the shapes. -/
theorem isSome_octet?_eq_any (octet : List Char) :
    (octet? octet).isSome = octetShapes.any (fits · octet) := by
  rw [Bool.eq_iff_iff]
  match octet with
  | [] => decide
  | [a] =>
    simp [octetShapes, octet?, fits, isAsciiDigit, decimalNumber, eq_zero_iff_toNat]
    omega
  | [a, b] =>
    simp [octetShapes, octet?, fits, isAsciiDigit, decimalNumber, eq_zero_iff_toNat]
    omega
  | [a, b, c] =>
    simp [octetShapes, octet?, fits, isAsciiDigit, decimalNumber, eq_zero_iff_toNat]
    omega
  | a :: b :: c :: d :: rest => simp [octetShapes, octet?, fits]

theorem shapeStart?_eq_some_iff :
    shapeStart? cs shape = some (octet, rest) ↔ fits shape octet = true ∧ cs = octet ++ rest := by
  rw [shapeStart?, Option.ite_none_right_eq_some, Option.some.injEq, Prod.mk.injEq]
  constructor
  · rintro ⟨hfits, rfl, rfl⟩
    exact ⟨hfits, (List.take_append_drop _ cs).symm⟩
  · rintro ⟨hfits, rfl⟩
    rw [← length_eq_of_fits hfits, List.take_left, List.drop_left]
    exact ⟨hfits, rfl, rfl⟩

/-- The starts by the shapes, the longest first: two shapes of one length exclude each other. -/
theorem pairwise_shapeStarts (cs : List Char) :
    (octetShapes.filterMap (shapeStart? cs)).Pairwise
      fun start other => other.1.length < start.1.length := by
  have hordered : octetShapes.Pairwise fun shape other =>
      other.length < shape.length ∨ other.length = shape.length ∧ apart shape other = true := by
    decide
  refine hordered.filterMap _ fun shape other hbefore start hstart later hlater => ?_
  obtain ⟨hfits, heq⟩ := shapeStart?_eq_some_iff.1 hstart
  obtain ⟨hfits', heq'⟩ := shapeStart?_eq_some_iff.1 hlater
  rcases hbefore with hshorter | ⟨hlength, hapart⟩
  · rw [length_eq_of_fits hfits, length_eq_of_fits hfits']
    exact hshorter
  · rw [← length_eq_of_fits hfits, ← length_eq_of_fits hfits'] at hlength
    have hsame : later.1 = start.1 := (List.append_inj (heq'.symm.trans heq) hlength).1
    rw [hsame, fits_eq_false_of_apart hapart hfits] at hfits'
    cases hfits'

/-- **The octets that a text starts with are found by trying the shapes in their order.** -/
theorem octetStarts_eq_filterMap (cs : List Char) :
    octetStarts cs = octetShapes.filterMap (shapeStart? cs) := by
  have hasymm : Std.Asymm fun start other : List Char × List Char =>
      other.1.length < start.1.length := ⟨fun _ _ => Nat.lt_asymm⟩
  refine (pairwise_octetStarts cs).eq_of_mem_iff (pairwise_shapeStarts cs) fun start => ?_
  obtain ⟨octet, rest⟩ := start
  rw [mem_octetStarts_iff, ← isSome_octet?_iff, isSome_octet?_eq_any, List.any_eq_true,
    List.mem_filterMap]
  constructor
  · rintro ⟨⟨shape, hshape, hfits⟩, heq⟩
    exact ⟨shape, hshape, shapeStart?_eq_some_iff.2 ⟨hfits, heq⟩⟩
  · rintro ⟨shape, hshape, hstart⟩
    obtain ⟨hfits, heq⟩ := shapeStart?_eq_some_iff.1 hstart
    exact ⟨⟨shape, hshape, hfits⟩, heq⟩

end Shapes

/-! ## One place -/

/-- The longest of the texts of a kind that a text starts with. -/
structure LongestStart (kind : List Char → Prop) (cs found : List Char) : Prop where
  starts : found <+: cs
  isKind : kind found
  longest : ∀ other, other <+: cs → kind other → other.length ≤ found.length

section Place

variable {cs found other : List Char} {dots : Nat}

/-- With a dot behind it, only one octet starts a text. -/
theorem eq_of_dot_behind {octet octet' rest rest' : List Char} (h : Dotted 0 octet)
    (h' : Dotted 0 octet') (heq : octet ++ '.' :: rest = octet' ++ '.' :: rest') :
    octet = octet' ∧ rest = rest' := by
  have hcut : cutAt? '.' (octet ++ '.' :: rest) = some (octet, rest) :=
    cutAt?_append_cons h.dot_notMem rest
  rw [heq, cutAt?_append_cons h'.dot_notMem rest', Option.some.injEq, Prod.mk.injEq] at hcut
  exact ⟨hcut.1.symm, hcut.2.symm⟩

/-- Where an address starts, the search at that place finds one. -/
theorem isSome_startingV4 (hother : other <+: cs) (h : Dotted dots other) :
    (startingV4 dots cs).isSome = true := by
  induction dots generalizing cs other with
  | zero =>
    obtain ⟨rest, rfl⟩ := hother
    have hmem : (other, rest) ∈ octetStarts (other ++ rest) := mem_octetStarts_iff.2 ⟨h, rfl⟩
    rw [startingV4, Option.isSome_map, List.isSome_head?]
    exact List.ne_nil_of_mem hmem
  | succ dots ih =>
    obtain ⟨octet, rest, hoctet, hrest, rfl⟩ := dotted_succ_iff.1 h
    obtain ⟨behind, rfl⟩ := hother
    have hmem : (octet, '.' :: (rest ++ behind)) ∈ octetStarts (octet ++ '.' :: rest ++ behind) :=
      mem_octetStarts_iff.2 ⟨hoctet, List.append_assoc ..⟩
    rw [startingV4, List.findSome?_isSome_iff]
    refine ⟨_, hmem, ?_⟩
    show ((startingV4 dots (rest ++ behind)).map _).isSome = true
    rw [Option.isSome_map]
    exact ih (List.prefix_append rest behind) hrest

/-- **The search at one place finds the longest address there.** -/
theorem longestStart_of_startingV4 (h : startingV4 dots cs = some found) :
    LongestStart (Dotted dots) cs found := by
  induction dots generalizing cs found with
  | zero =>
    obtain ⟨⟨octet, rest⟩, hhead, rfl⟩ := Option.map_eq_some_iff.1 h
    obtain ⟨starts, hstarts⟩ := List.head?_eq_some_iff.1 hhead
    have hfirst : (octet, rest) ∈ octetStarts cs := List.mem_of_head? hhead
    obtain ⟨hoctet, heq⟩ := mem_octetStarts_iff.1 hfirst
    refine ⟨⟨rest, heq.symm⟩, hoctet, fun other hother hdotted => ?_⟩
    obtain ⟨behind, hbehind⟩ := hother
    have hmem : (other, behind) ∈ octetStarts cs := mem_octetStarts_iff.2 ⟨hdotted, hbehind.symm⟩
    have hsorted := pairwise_octetStarts cs
    rw [hstarts] at hmem hsorted
    rcases List.mem_cons.1 hmem with hsame | hlater
    · exact Nat.le_of_eq (congrArg (fun start => start.1.length) hsame)
    · exact Nat.le_of_lt ((List.pairwise_cons.1 hsorted).1 _ hlater)
  | succ dots ih =>
    obtain ⟨⟨octet, rest⟩, hmem, hstep⟩ := List.exists_of_findSome?_eq_some h
    obtain ⟨hoctet, rfl⟩ := mem_octetStarts_iff.1 hmem
    dsimp only at hstep
    split at hstep
    · rename_i tail
      obtain ⟨last, hlast, rfl⟩ := Option.map_eq_some_iff.1 hstep
      obtain ⟨hstarts, hdotted, hlongest⟩ := ih hlast
      refine ⟨(List.prefix_append_right_inj octet).2 (List.prefix_cons_inj '.' |>.2 hstarts),
        dotted_succ_iff.2 ⟨octet, last, hoctet, hdotted, rfl⟩, fun other hother hkind => ?_⟩
      obtain ⟨octet', rest', hoctet', hrest', rfl⟩ := dotted_succ_iff.1 hkind
      obtain ⟨behind, hbehind⟩ := hother
      rw [List.append_assoc, List.cons_append] at hbehind
      obtain ⟨rfl, rfl⟩ := eq_of_dot_behind hoctet' hoctet hbehind
      have hle := hlongest rest' (List.prefix_append rest' behind) hrest'
      rw [List.length_append, List.length_append, List.length_cons, List.length_cons]
      omega
    · cases hstep

end Place

/-! ## Every place -/

section Search

variable {cs found other : List Char} {place : Nat}

/-- Wherever an address stands, an address is found. -/
theorem isSome_findV4Chars (hother : other <+: cs.drop place) (h : Dotted 3 other) :
    (findV4Chars cs).isSome = true := by
  induction cs generalizing place with
  | nil =>
    rw [List.drop_nil, List.prefix_nil] at hother
    exact absurd hother h.ne_nil
  | cons c cs ih =>
    rw [findV4Chars, Option.orElse_apply, Option.orElse_eq_or, Option.isSome_or]
    cases place with
    | zero =>
      rw [List.drop_zero] at hother
      rw [isSome_startingV4 hother h, Bool.true_or]
    | succ place => rw [ih hother, Bool.or_true]

/-- What is found is the longest address at the first place that has one. -/
theorem exists_place_of_findV4Chars (h : findV4Chars cs = some found) :
    ∃ place, LongestStart (Dotted 3) (cs.drop place) found ∧
      ∀ place' other, other <+: cs.drop place' → Dotted 3 other → place ≤ place' := by
  induction cs with
  | nil => cases h
  | cons c cs ih =>
    rw [findV4Chars, Option.orElse_apply, Option.orElse_eq_or, Option.or_eq_some_iff] at h
    rcases h with hhere | ⟨hnone, hlater⟩
    · exact ⟨0, longestStart_of_startingV4 hhere, fun _ _ _ _ => Nat.zero_le _⟩
    · obtain ⟨place, hlongest, hfirst⟩ := ih hlater
      refine ⟨place + 1, hlongest, fun place' other hother hdotted => ?_⟩
      cases place' with
      | zero =>
        rw [List.drop_zero] at hother
        have hsome := isSome_startingV4 hother hdotted
        rw [hnone] at hsome
        cases hsome
      | succ place' => exact Nat.succ_le_succ (hfirst place' other hother hdotted)

end Search

theorem exists_readV4?_of_dotted {cs : List Char} (h : Dotted 3 cs) :
    ∃ address, readV4? cs = some address := by
  obtain ⟨a, rest, ha, hrest, rfl⟩ := dotted_succ_iff.1 h
  obtain ⟨b, tail, hb, htail, rfl⟩ := dotted_succ_iff.1 hrest
  obtain ⟨c, d, hc, hd, rfl⟩ := dotted_succ_iff.1 htail
  obtain ⟨w, hw⟩ := Option.isSome_iff_exists.1 (isSome_octet?_iff.2 ha)
  obtain ⟨x, hx⟩ := Option.isSome_iff_exists.1 (isSome_octet?_iff.2 hb)
  obtain ⟨y, hy⟩ := Option.isSome_iff_exists.1 (isSome_octet?_iff.2 hc)
  obtain ⟨z, hz⟩ := Option.isSome_iff_exists.1 (isSome_octet?_iff.2 hd)
  refine ⟨ofOctets w x y z, readV4?_eq_some_iff.2 ⟨a, b, c, d, ?_, w, x, y, z, hw, hx, hy, hz, rfl⟩⟩
  rw [fields_append_cons ha.dot_notMem, fields_append_cons hb.dot_notMem,
    fields_append_cons hc.dot_notMem, fields_of_notMem hd.dot_notMem]

/-- The part stands in the text, with so many characters before it. -/
def StandsAt (text : String) (place : Nat) (part : String) : Prop :=
  part.toList <+: text.toList.drop place

/-- The text is an IPv4 address: four octets joined by dots. -/
def IsDottedQuad (s : String) : Prop :=
  Dotted 3 s.toList

/-- **The first place that has an address, and the longest address there.** Nothing is found exactly if
no part of the text is an address. What is found is an address; no address stands at an earlier place,
and none at its place is longer. It can be used as a source: it is read as the block of one host. The
octets at each place are found by trying the shapes of an octet in their order. -/
theorem findV4_leftmost_longest (text : String) :
    (findV4 text = none ↔ ∀ place part, StandsAt text place part → ¬ IsDottedQuad part) ∧
      (∀ found, findV4 text = some found →
        IsDottedQuad found ∧ canonical found = found ++ "/32" ∧
          ∃ place, StandsAt text place found ∧
            ∀ place' part, StandsAt text place' part → IsDottedQuad part →
              place < place' ∨ place = place' ∧ part.length ≤ found.length) ∧
      ∀ place, octetStarts (text.toList.drop place)
        = octetShapes.filterMap (shapeStart? (text.toList.drop place)) := by
  refine ⟨?_, ?_, fun place => octetStarts_eq_filterMap _⟩
  · rw [findV4, Option.map_eq_none_iff]
    constructor
    · intro hnone place part hpart hquad
      have hsome := isSome_findV4Chars hpart hquad
      rw [hnone] at hsome
      cases hsome
    · intro hnone
      refine Option.eq_none_iff_forall_ne_some.2 fun found hfound => ?_
      obtain ⟨place, hlongest, -⟩ := exists_place_of_findV4Chars hfound
      refine hnone place (String.ofList found) ?_ ?_
      · rw [StandsAt, String.toList_ofList]
        exact hlongest.starts
      · rw [IsDottedQuad, String.toList_ofList]
        exact hlongest.isKind
  · intro found h
    obtain ⟨cs, hfound, rfl⟩ := Option.map_eq_some_iff.1 h
    obtain ⟨place, hlongest, hfirst⟩ := exists_place_of_findV4Chars hfound
    obtain ⟨address, hread⟩ := exists_readV4?_of_dotted hlongest.isKind
    rw [IsDottedQuad, String.toList_ofList]
    refine ⟨hlongest.isKind, ?_, place, ?_, fun place' part hpart hquad => ?_⟩
    · exact canonical_of_readV4? (by rw [String.toList_ofList]; exact hread)
    · rw [StandsAt, String.toList_ofList]
      exact hlongest.starts
    · rcases Nat.lt_or_eq_of_le (hfirst place' part.toList hpart hquad) with hlt | rfl
      · exact .inl hlt
      · refine .inr ⟨rfl, ?_⟩
        rw [← String.length_toList, String.length_ofList]
        exact hlongest.longest part.toList hpart hquad

/-- Digits before and after an address do not matter; an octet is as long as it can be. -/
theorem found_between_digits :
    findV4 "at 300.2.3.2567!" = some "0.2.3.25" ∧
      canonical "0.2.3.25" = "0.2.3.25/32" ∧
      ∃ place, StandsAt "at 300.2.3.2567!" place "0.2.3.25" ∧
        ∀ place' part, StandsAt "at 300.2.3.2567!" place' part → IsDottedQuad part →
          place < place' ∨ place = place' ∧ part.length ≤ 8 := by
  have hfound : findV4 "at 300.2.3.2567!" = some "0.2.3.25" := by decide
  obtain ⟨-, hcanonical, hplace⟩ := (findV4_leftmost_longest "at 300.2.3.2567!").2.1 _ hfound
  exact ⟨hfound, hcanonical, hplace⟩

end NodeLedger.Address
