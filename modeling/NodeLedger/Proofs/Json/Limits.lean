import Mathlib.Data.List.TakeDrop
import NodeLedger.Json.Document
import NodeLedger.Proofs.Json.Document
import NodeLedger.Proofs.Sequence
import NodeLedger.Proofs.Text.Integer

/-!
# What stops the reader

A text is malformed, or it goes beyond what the reader can do: an integer has too many digits, or
values are nested too deep. A text that has no long row of digits and no more brackets than values may
be nested is never beyond it. The fuel of the reader is no limit of its own: everything that is read
takes a character off the front of the text, so there is always fuel left.

- `Behind`: the rest of a text when something was taken off its front.
- `Proceeds`: **reading takes something off the front of a text, or finds it malformed**. It is closed
  under sequences (`Proceeds.bind`), and the reader does so, function by function.
- `Modest`: no long row of digits, and no more than so many opening brackets.
- `proceeds_of_modest`: **the reader proceeds on a modest text**, with fuel for twice its length.
- `exists_malformed_of_read`: **a modest text is refused as malformed only**.
- `Beyond`: bytes that are beyond the reader, for these limits or because they are no UTF-8.
  `not_beyond_of_modest`: no modest text is; `beyond_of_decode`, `beyond_of_decimal` and
  `beyond_of_brackets`: **each of the three happens**.
-/

namespace NodeLedger.Json

open Text

/-! ## Progress -/

/-- The rest of a text when something was taken off its front. -/
def Behind (rest cs : List Char) : Prop :=
  rest <:+ cs ∧ rest.length < cs.length

/-- The text is malformed, and not beyond what the reader can do. -/
def Stop.IsMalformed : Stop → Prop
  | .malformed .. => True
  | _ => False

/-- Reading has taken something off the front of the text, or has found it malformed. -/
def Proceeds {α : Type} (cs : List Char) : Except Stop (α × List Char) → Prop
  | .ok (_, rest) => Behind rest cs
  | .error stop => stop.IsMalformed

section Progress

variable {α β : Type} {cs rest middle : List Char} {c : Char}

theorem behind_cons (c : Char) (cs : List Char) : Behind cs (c :: cs) :=
  ⟨List.suffix_cons c cs, Nat.lt_succ_self _⟩

theorem Behind.of_suffix (h : Behind rest middle) (hmiddle : middle <:+ cs) : Behind rest cs :=
  ⟨h.1.trans hmiddle, Nat.lt_of_lt_of_le h.2 hmiddle.length_le⟩

theorem Behind.suffix (h : Behind middle cs) (hrest : rest <:+ middle) : Behind rest cs :=
  ⟨hrest.trans h.1, Nat.lt_of_le_of_lt hrest.length_le h.2⟩

theorem Proceeds.of_suffix {result : Except Stop (α × List Char)} (h : Proceeds middle result)
    (hmiddle : middle <:+ cs) : Proceeds cs result := by
  cases result with
  | ok read => exact Behind.of_suffix h hmiddle
  | error stop => exact h

/-- **A sequence proceeds** if both of its steps do. -/
theorem Proceeds.bind {result : Except Stop (α × List Char)}
    {next : α × List Char → Except Stop (β × List Char)} (h : Proceeds cs result)
    (hnext : ∀ a rest, Behind rest cs → Proceeds cs (next (a, rest))) :
    Proceeds cs (result >>= next) := by
  cases result with
  | ok read => exact hnext read.1 read.2 h
  | error stop => exact h

theorem Proceeds.map {result : Except Stop (α × List Char)} (h : Proceeds cs result) (f : α → β) :
    Proceeds cs (result.map fun read => (f read.1, read.2)) := by
  cases result with
  | ok read => exact h
  | error stop => exact h

end Progress

/-! ## Strings -/

section Strings

variable {cs rest : List Char}

theorem skipSpace_suffix (cs : List Char) : skipSpace cs <:+ cs :=
  List.dropWhile_suffix isSpace

theorem proceeds_readUnit (cs : List Char) : Proceeds cs (readUnit cs) := by
  unfold readUnit
  split
  · split
    · split
      · trivial
      · exact (((behind_cons _ _).of_suffix (List.suffix_cons _ _)).of_suffix
          (List.suffix_cons _ _)).of_suffix (List.suffix_cons _ _)
    · trivial
  · trivial

theorem proceeds_readUnicodeEscape (cs : List Char) : Proceeds cs (readUnicodeEscape cs) := by
  refine (proceeds_readUnit cs).bind fun n rest hrest => ?_
  dsimp only
  split
  · rename_i next _
    have hnext : next <:+ cs :=
      (List.suffix_cons 'u' next).trans ((List.suffix_cons '\\' _).trans hrest.1)
    refine ((proceeds_readUnit next).of_suffix hnext).bind fun m after hafter => ?_
    dsimp only
    split
    · exact hafter
    · exact hrest
  · exact hrest

theorem proceeds_readStringPoint (opened : Nat) (cs : List Char) :
    Proceeds cs (readStringPoint opened cs) := by
  unfold readStringPoint
  split
  · trivial
  · exact behind_cons _ _
  · trivial
  · rename_i escape
    exact ((proceeds_readUnicodeEscape escape).map some).of_suffix
      ((List.suffix_cons _ _).trans (List.suffix_cons _ _))
  · split
    · exact (behind_cons _ _).of_suffix (List.suffix_cons _ _)
    · trivial
  · split
    · trivial
    · exact behind_cons _ _

/-- Every point takes a character, so there is fuel for all of them. -/
theorem proceeds_readStringPoints (opened : Nat) {fuel : Nat} (hfuel : cs.length < fuel) :
    Proceeds cs (readStringPoints opened fuel cs) := by
  induction fuel generalizing cs with
  | zero => exact absurd hfuel (Nat.not_lt_zero _)
  | succ fuel ih =>
    refine (proceeds_readStringPoint opened cs).bind fun point rest hrest => ?_
    cases point with
    | none => exact hrest
    | some point =>
      have hmore := (ih (Nat.lt_of_lt_of_le hrest.2 (Nat.le_of_lt_succ hfuel))).of_suffix hrest.1
      exact hmore.bind fun more last hlast => hlast

theorem proceeds_readString (cs : List Char) : Proceeds cs (readString cs) :=
  (proceeds_readStringPoints (cs.length + 1) (Nat.lt_succ_self _)).bind fun _ _ hrest => hrest

end Strings

/-! ## Numbers and words -/

/-- A bracket that opens an array or an object. -/
def isOpening (c : Char) : Bool :=
  c == '[' || c == '\x7b'

/-- No long row of digits, and no more than so many opening brackets. -/
structure Modest (depth : Nat) (cs : List Char) : Prop where
  brackets : cs.countP isOpening ≤ depth
  digits : ∀ row, row <:+: cs → (∀ c ∈ row, isAsciiDigit c = true) → row.length ≤ digitLimit

section Scalars

variable {cs rest digits whole : List Char} {depth : Nat} {value : Json} {power : Int}

theorem Modest.of_suffix (h : Modest depth cs) (hrest : rest <:+ cs) : Modest depth rest where
  brackets := Nat.le_trans hrest.sublist.countP_le h.brackets
  digits row hrow := h.digits row (hrow.trans hrest.isInfix)

/-- An opening bracket takes one of those that are left. -/
theorem Modest.of_cons {c : Char} (hc : isOpening c = true)
    (h : Modest depth (c :: cs)) : ∃ left, depth = left + 1 ∧ Modest left cs := by
  have hcount := h.brackets
  rw [List.countP_cons_of_pos hc] at hcount
  obtain ⟨left, rfl⟩ : ∃ left, depth = left + 1 := ⟨depth - 1, by omega⟩
  exact ⟨left, rfl, Nat.le_of_succ_le_succ hcount, (h.of_suffix (List.suffix_cons c cs)).digits⟩

theorem span_suffix (p : Char → Bool) (cs : List Char) : (cs.span p).2 <:+ cs := by
  rw [List.span_eq_takeWhile_dropWhile]
  exact List.dropWhile_suffix p

/-- The whole part of a number is a row of digits, and not empty. -/
theorem exists_of_readWhole? (h : readWhole? cs = some (whole, rest)) :
    whole <:+: cs ∧ (∀ c ∈ whole, isAsciiDigit c = true) ∧ Behind rest cs := by
  unfold readWhole? at h
  split at h
  · cases h
    refine ⟨⟨[], _, rfl⟩, ?_, behind_cons _ _⟩
    exact List.forall_mem_singleton.2 (by decide)
  · rename_i c cs _
    split at h
    · rename_i hc
      have hspan := Option.some.inj h
      rw [List.span_eq_takeWhile_dropWhile, Prod.mk.injEq] at hspan
      obtain ⟨rfl, rfl⟩ := hspan
      refine ⟨(List.takeWhile_prefix _).isInfix, List.all_eq_true.1 List.all_takeWhile, ?_⟩
      rw [List.dropWhile_cons_of_pos hc]
      exact (behind_cons c cs).suffix (List.dropWhile_suffix _)
    · cases h
  · cases h

theorem suffix_of_readFraction? (h : readFraction? cs = some (digits, rest)) : rest <:+ cs := by
  unfold readFraction? at h
  split at h
  · dsimp only at h
    split at h
    · cases h
    · cases h
      exact (span_suffix _ _).trans (List.suffix_cons _ _)
  · cases h

theorem splitSign_suffix (cs : List Char) : (splitSign cs).2 <:+ cs := by
  unfold splitSign
  split
  · exact List.suffix_cons _ _
  · exact List.suffix_cons _ _
  · exact List.suffix_refl _

theorem suffix_of_readExponent? (h : readExponent? cs = some (power, rest)) : rest <:+ cs := by
  unfold readExponent? at h
  split at h
  · split at h
    · dsimp only at h
      split at h
      · cases h
      · cases h
        exact ((span_suffix _ _).trans (splitSign_suffix _)).trans (List.suffix_cons _ _)
    · cases h
  · cases h

theorem proceeds_readNumber (h : Modest depth cs) : Proceeds cs (readNumber cs) := by
  unfold readNumber
  split
  rename_i negative body hsigned
  have hbody : body <:+ cs := by
    split at hsigned
    · cases hsigned
      exact List.suffix_cons _ _
    · cases hsigned
      exact List.suffix_refl _
  split
  · trivial
  rename_i whole rest hwhole
  obtain ⟨hrow, hdigits, hrest⟩ := exists_of_readWhole? hwhole
  have hshort := h.digits whole (hrow.trans hbody.isInfix) hdigits
  have hfraction : ((readFraction? rest).getD ([], rest)).2 <:+ rest := by
    cases hread : readFraction? rest with
    | none => exact List.suffix_refl _
    | some fraction => exact suffix_of_readFraction? hread
  split
  rename_i fraction afterFraction hread
  rw [hread] at hfraction
  dsimp only at hfraction ⊢
  split
  · rw [if_neg (Nat.not_lt.2 hshort)]
    exact hrest.of_suffix hbody
  · have hexponent : ((readExponent? afterFraction).getD (0, afterFraction)).2 <:+ afterFraction := by
      cases hread : readExponent? afterFraction with
      | none => exact List.suffix_refl _
      | some exponent => exact suffix_of_readExponent? hread
    exact (hrest.suffix (hexponent.trans hfraction)).of_suffix hbody

theorem behind_of_readWord? (h : readWord? cs = some (value, rest)) : Behind rest cs := by
  obtain ⟨⟨word, read⟩, hword, hafter⟩ := List.exists_of_findSome?_eq_some h
  obtain ⟨tail, htail, heq⟩ := Option.map_eq_some_iff.1 hafter
  cases heq
  unfold afterWord? at htail
  split at htail
  · rename_i hstart
    cases htail
    have hlength := (List.isPrefixOf_iff_prefix.1 hstart).length_le
    have hne : 0 < word.length := by
      simp only [List.mem_cons, List.not_mem_nil, or_false, Prod.mk.injEq] at hword
      rcases hword with ⟨rfl, -⟩ | ⟨rfl, -⟩ | ⟨rfl, -⟩ | ⟨rfl, -⟩ | ⟨rfl, -⟩ | ⟨rfl, -⟩ <;> decide
    rw [String.length_toList] at hlength
    exact ⟨List.drop_suffix _ _, by rw [List.length_drop]; omega⟩
  · cases htail

theorem proceeds_readScalar (h : Modest depth cs) : Proceeds cs (readScalar cs) := by
  unfold readScalar
  split
  · rename_i rest
    exact ((proceeds_readString rest).map Json.str).of_suffix (List.suffix_cons _ _)
  · split
    · rename_i word hword
      exact behind_of_readWord? hword
    · exact proceeds_readNumber h

end Scalars

/-! ## Values -/

section Values

variable {cs : List Char} {depth fuel : Nat}

theorem proceeds_readName (cs : List Char) : Proceeds cs (readName cs) := by
  unfold readName
  split
  · rename_i rest
    refine ((proceeds_readString rest).of_suffix (List.suffix_cons _ _)).bind fun name after hafter => ?_
    dsimp only
    have hspace := hafter.suffix (skipSpace_suffix after)
    split
    · rename_i value heq
      rw [heq] at hspace
      exact hspace.suffix ((skipSpace_suffix value).trans (List.suffix_cons _ _))
    · trivial
  · trivial

theorem proceeds_afterItem (closing : Char) (cs : List Char) :
    Proceeds cs (afterItem closing cs) := by
  unfold afterItem
  have hspace := skipSpace_suffix cs
  split
  · rename_i c rest heq
    rw [heq] at hspace
    have hrest := (behind_cons c rest).of_suffix hspace
    split
    · exact hrest
    · split
      · exact hrest.suffix (skipSpace_suffix rest)
      · trivial
  · trivial

/-- **The reader proceeds on a modest text**: a value on fuel for twice its length, items and members
on one more, since they begin with the value of the same text. -/
theorem proceeds_of_modest (fuel : Nat) :
    (∀ depth cs, Modest depth cs → 2 * cs.length < fuel → Proceeds cs (readValue depth fuel cs)) ∧
      (∀ depth cs, Modest depth cs → 2 * cs.length + 1 < fuel →
        Proceeds cs (readItems depth fuel cs)) ∧
      ∀ depth members cs, Modest depth cs → 2 * cs.length + 1 < fuel →
        Proceeds cs (readMembers depth fuel members cs) := by
  induction fuel with
  | zero =>
    exact ⟨fun _ _ _ h => absurd h (Nat.not_lt_zero _), fun _ _ _ h => absurd h (Nat.not_lt_zero _),
      fun _ _ _ _ h => absurd h (Nat.not_lt_zero _)⟩
  | succ fuel ih =>
    obtain ⟨ihValue, ihItems, ihMembers⟩ := ih
    refine ⟨fun depth cs h hfuel => ?_, fun depth cs h hfuel => ?_, fun depth members cs h hfuel => ?_⟩
    -- A value that opens uses up a level and a character, and the character pays for two of the fuel.
    · rw [readValue.eq_def]
      dsimp only
      split
      · rename_i rest
        obtain ⟨left, rfl, hleft⟩ := h.of_cons rfl
        dsimp only
        have hspace := skipSpace_suffix rest
        split
        · rename_i closed heq
          rw [heq] at hspace
          exact (behind_cons _ _).of_suffix (hspace.trans (List.suffix_cons _ _))
        · have hlength := hspace.length_le
          rw [List.length_cons] at hfuel
          exact ((ihItems left _ (hleft.of_suffix hspace) (by omega)).map Json.arr).of_suffix
            (hspace.trans (List.suffix_cons _ _))
      · rename_i rest
        obtain ⟨left, rfl, hleft⟩ := h.of_cons rfl
        dsimp only
        have hspace := skipSpace_suffix rest
        split
        · rename_i closed heq
          rw [heq] at hspace
          exact (behind_cons _ _).of_suffix (hspace.trans (List.suffix_cons _ _))
        · have hlength := hspace.length_le
          rw [List.length_cons] at hfuel
          exact ((ihMembers left [] _ (hleft.of_suffix hspace) (by omega)).map Json.obj).of_suffix
            (hspace.trans (List.suffix_cons _ _))
      · exact proceeds_readScalar h
    · refine (ihValue depth cs h (by omega)).bind fun item rest hrest => ?_
      refine ((proceeds_afterItem ']' rest).of_suffix hrest.1).bind fun goesOn after hafter => ?_
      cases goesOn with
      | false => exact hafter
      | true =>
        have hlength := hafter.2
        have hmore := ihItems depth after (h.of_suffix hafter.1) (by omega)
        exact (hmore.of_suffix hafter.1).bind fun items last hlast => hlast
    · refine (proceeds_readName cs).bind fun name rest hrest => ?_
      have hname := hrest.2
      have hvalue := ihValue depth rest (h.of_suffix hrest.1) (by omega)
      refine (hvalue.of_suffix hrest.1).bind fun value tail htail => ?_
      dsimp only
      refine ((proceeds_afterItem '\x7d' tail).of_suffix htail.1).bind fun goesOn after hafter => ?_
      cases goesOn with
      | false => exact hafter
      | true =>
        have hlength := hafter.2
        exact (ihMembers depth _ after (h.of_suffix hafter.1) (by omega)).of_suffix hafter.1

theorem isMalformed_of_readWhole [Nesting] {stop : Stop} (h : Modest Nesting.limit cs)
    (hread : readWhole cs = .error stop) : stop.IsMalformed := by
  unfold readWhole at hread
  split at hread
  · cases hread
    trivial
  have hspace := skipSpace_suffix cs
  have hlength := hspace.length_le
  have hvalue := (proceeds_of_modest (2 * cs.length + 2)).1 Nesting.limit (skipSpace cs)
    (h.of_suffix hspace) (by omega)
  cases hresult : readValue Nesting.limit (2 * cs.length + 2) (skipSpace cs) with
  | error early =>
    rw [hresult] at hread hvalue
    cases hread
    exact hvalue
  | ok read =>
    rw [hresult] at hread
    obtain ⟨value, rest⟩ := read
    change (if (skipSpace rest).isEmpty = true then _ else _) = _ at hread
    split at hread
    · cases hread
    · cases hread
      trivial

/-- **A modest text is refused as malformed only.** -/
theorem exists_malformed_of_read [Nesting] {fault : ReadFault} (h : Modest Nesting.limit cs)
    (hread : read cs = .error fault) :
    ∃ what line column position, fault = .malformed what line column position := by
  unfold read at hread
  split at hread
  · cases hread
  · cases hread
    exact ⟨_, _, _, _, rfl⟩
  · rename_i hwhole
    exact (isMalformed_of_readWhole h hwhole).elim
  · rename_i hwhole
    exact (isMalformed_of_readWhole h hwhole).elim

end Values

/-! ## Documents -/

/-- A document is not malformed, but beyond the reader: it is no UTF-8, an integer has too many digits,
or values are nested too deep. -/
def DocumentFault.isBeyond : DocumentFault → Bool
  | encoding _ => true
  | text (.tooManyDigits _) => true
  | text .tooDeep => true
  | _ => false

/-- The bytes are beyond the reader. -/
def Beyond [Nesting] (bytes : List UInt8) : Prop :=
  ∃ fault, readBytes bytes = .error fault ∧ fault.isBeyond = true

section Documents

variable [Nesting] {bytes : List UInt8}

/-- A document whose text is modest is not beyond the reader. -/
theorem not_beyond_of_modest {text : List Char} (hdecode : decode bytes = .ok text)
    (h : Modest Nesting.limit (unifyNewlines text)) : ¬ Beyond bytes := by
  rintro ⟨fault, hfault, hbeyond⟩
  rw [readBytes, hdecode] at hfault
  dsimp only at hfault
  cases hread : read (unifyNewlines text) with
  | ok value =>
    rw [hread] at hfault
    cases hfault
  | error early =>
    obtain ⟨what, line, column, position, rfl⟩ := exists_malformed_of_read h hread
    rw [hread] at hfault
    cases hfault
    cases hbeyond

/-- Bytes that are no UTF-8 are beyond the reader. -/
theorem beyond_of_decode {fault : Utf8Fault} (h : decode bytes = .error fault) : Beyond bytes :=
  ⟨.encoding fault, by rw [readBytes, h], rfl⟩

end Documents

/-! ## The limits -/

section Reached

variable {bytes : List UInt8} {text : List Char} {stop : Stop}

theorem readWhole_of_error [Nesting] (htext : StartsValue text)
    (h : readValue Nesting.limit (2 * text.length + 2) text = .error stop) :
    readWhole text = .error stop := by
  have hskip := skipSpace_of_startsValue htext
  obtain ⟨c, cs, rfl, -, hmark, -⟩ := htext
  have hhead : ((c :: cs).head? == some '\ufeff') = false :=
    beq_false_of_ne fun heq => hmark (Option.some.inj heq)
  rw [readWhole, hhead, hskip, h]
  rfl

/-- More arrays within each other than values may be nested, with any fuel and whatever follows. -/
theorem readValue_brackets {depth n : Nat} (h : depth < n) (fuel : Nat) (rest : List Char) :
    readValue depth fuel (List.replicate n '[' ++ rest) = .error .tooDeep := by
  induction depth generalizing n fuel with
  | zero =>
    obtain ⟨n, rfl⟩ := Nat.exists_eq_add_one_of_ne_zero (Nat.ne_of_gt h)
    cases fuel <;> rfl
  | succ depth ih =>
    obtain ⟨n, rfl⟩ := Nat.exists_eq_add_one_of_ne_zero (Nat.ne_of_gt (Nat.zero_lt_of_lt h))
    have hinner : depth < n := Nat.lt_of_succ_lt_succ h
    have hopen : ∃ cs, List.replicate n '[' ++ rest = '[' :: cs := by
      obtain ⟨n, rfl⟩ := Nat.exists_eq_add_one_of_ne_zero (Nat.ne_of_gt (Nat.zero_lt_of_lt hinner))
      exact ⟨_, rfl⟩
    obtain ⟨cs, hcs⟩ := hopen
    have hvalue := fun fuel => ih hinner fuel
    rw [hcs] at hvalue
    rw [List.replicate_succ, List.cons_append, hcs]
    rcases fuel with _ | _ | fuel
    · rfl
    · rfl
    · show Except.map _ (readItems depth (fuel + 1) ('[' :: cs)) = _
      rw [readItems, hvalue]
      rfl

/-- Arrays that are nested too deep are beyond the reader, whatever follows. -/
theorem beyond_of_brackets [Nesting] {n : Nat} {rest : List Char} (h : Nesting.limit < n)
    (hdecode : decode bytes = .ok (List.replicate n '[' ++ rest)) : Beyond bytes := by
  have hunify : ∀ n, unifyNewlines (List.replicate n '[' ++ rest)
      = List.replicate n '[' ++ unifyNewlines rest := by
    intro n
    induction n with
    | zero => rfl
    | succ n ih =>
      rw [List.replicate_succ, List.cons_append, List.cons_append, ← ih]
      rfl
  obtain ⟨k, rfl⟩ := Nat.exists_eq_add_one_of_ne_zero (Nat.ne_of_gt (Nat.zero_lt_of_lt h))
  refine ⟨.text .tooDeep, ?_, rfl⟩
  rw [readBytes, hdecode]
  dsimp only
  have hstarts : StartsValue (List.replicate (k + 1) '[' ++ unifyNewlines rest) :=
    ⟨'[', _, rfl, by decide, by decide, by decide, by decide⟩
  rw [hunify, read, readWhole_of_error hstarts (readValue_brackets h _ _)]
  rfl

theorem exists_cons_decimal (n : Nat) : ∃ c cs, decimal n = c :: cs ∧ isAsciiDigit c = true := by
  obtain ⟨c, cs, htext⟩ := List.exists_cons_of_ne_nil (decimal_ne_nil n)
  exact ⟨c, cs, htext, isAsciiDigit_of_mem_decimal (htext ▸ List.mem_cons_self)⟩

/-- An integer with too many digits is not read. -/
theorem readValue_decimal {n : Nat} (h : digitLimit < (decimal n).length) (depth fuel : Nat) :
    readValue depth (fuel + 1) (decimal n) = .error (.tooManyDigits (decimal n).length) := by
  have hwhole := readWhole?_decimal n (fun c hc => nomatch hc : EndsNumber [])
  have hword := readWord?_integer n []
  rw [toList_integer, if_neg (Int.not_lt.2 (Int.natCast_nonneg n))] at hword
  rw [List.append_nil] at hwhole hword
  -- The text starts with a digit, so neither a bracket, nor a quote, nor a sign is taken off.
  obtain ⟨c, cs, htext, hdigit⟩ := exists_cons_decimal n
  rw [List.nil_append, Int.natAbs_natCast, htext] at hword
  rw [htext] at hwhole h ⊢
  have hnumber : readNumber (c :: cs) = .error (.tooManyDigits (c :: cs).length) := by
    unfold readNumber
    split
    rename_i negative body heq
    split at heq
    · rename_i hminus
      exact absurd (List.cons.inj hminus).1 (ne_of_isAsciiDigit hdigit (by decide))
    · cases heq
      rw [hwhole]
      exact if_pos h
  have hscalar : readScalar (c :: cs) = .error (.tooManyDigits (c :: cs).length) := by
    unfold readScalar
    split
    · rename_i heq
      exact absurd (List.cons.inj heq).1 (ne_of_isAsciiDigit hdigit (by decide))
    · rw [hword, hnumber]
  unfold readValue
  split
  · rename_i heq
    exact absurd (List.cons.inj heq).1 (ne_of_isAsciiDigit hdigit (by decide))
  · rename_i heq
    exact absurd (List.cons.inj heq).1 (ne_of_isAsciiDigit hdigit (by decide))
  · exact hscalar

theorem startsValue_decimal (n : Nat) : StartsValue (decimal n) := by
  obtain ⟨c, cs, htext, hdigit⟩ := exists_cons_decimal n
  have hspace : isSpace c = false := by
    simp only [isSpace, Bool.or_eq_false_iff]
    exact ⟨⟨⟨beq_false_of_ne (ne_of_isAsciiDigit hdigit (by decide)),
      beq_false_of_ne (ne_of_isAsciiDigit hdigit (by decide))⟩,
      beq_false_of_ne (ne_of_isAsciiDigit hdigit (by decide))⟩,
      beq_false_of_ne (ne_of_isAsciiDigit hdigit (by decide))⟩
  exact ⟨c, cs, htext, hspace, ne_of_isAsciiDigit hdigit (by decide),
    ne_of_isAsciiDigit hdigit (by decide), ne_of_isAsciiDigit hdigit (by decide)⟩

/-- An integer with too many digits is beyond the reader. -/
theorem beyond_of_decimal [Nesting] {n : Nat} (h : digitLimit < (decimal n).length)
    (hdecode : decode bytes = .ok (decimal n)) : Beyond bytes := by
  have hreturn : '\r' ∉ decimal n := fun hmem => by
    have hdigit := isAsciiDigit_of_mem_decimal hmem
    revert hdigit
    decide
  refine ⟨.text (.tooManyDigits (decimal n).length), ?_, rfl⟩
  rw [readBytes, hdecode]
  dsimp only
  rw [unifyNewlines_of_notMem hreturn, read,
    readWhole_of_error (startsValue_decimal n) (readValue_decimal h Nesting.limit _)]
  rfl

end Reached

end NodeLedger.Json
