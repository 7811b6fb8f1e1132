import NodeLedger.Json.Document
import NodeLedger.Proofs.Json.Layout

/-!
# JSON documents read back from files

A file holds bytes, and reading it unifies line ends. A compact document is printable ASCII on one
line, so neither the bytes nor the line ends change it.

- `forall_mem_spell`: the characters of a value in a layout.
- `printable_of_mem_compact`: **a compact document is printable ASCII**.
- `readBytes_compact`: **a compact document is read back from its bytes**.
-/

namespace NodeLedger

open Text

theorem Text.unifyNewlines_of_notMem {cs : List Char} (h : '\r' ∉ cs) : unifyNewlines cs = cs := by
  induction cs with
  | nil => rfl
  | cons c cs ih =>
    obtain ⟨hne, hrest⟩ := List.ne_and_not_mem_of_not_mem_cons h
    rw [unifyNewlines]
    · rw [ih hrest]
    · rintro _ rfl
      exact absurd rfl hne
    · rintro rfl
      exact absurd rfl hne

namespace Json

section Characters

variable {layout : Layout} {P : Char → Prop}

theorem forall_mem_showString (hprintable : ∀ c, Printable c → P c) (text : CodeText) :
    ∀ c ∈ (showString text).toList, P c := by
  intro c hc
  rw [showString, String.toList_ofList] at hc
  refine hprintable c ?_
  rcases List.mem_append.1 hc with hc | hc
  · rcases List.mem_cons.1 hc with rfl | hc
    · exact ⟨by decide, by decide⟩
    · obtain ⟨p, -, hp⟩ := List.mem_flatMap.1 hc
      exact printable_of_mem_escapePoint hp
  · obtain rfl := List.mem_singleton.1 hc
    exact ⟨by decide, by decide⟩

theorem printable_of_isAsciiDigit {c : Char} (h : isAsciiDigit c = true) : Printable c := by
  rw [isAsciiDigit, Bool.and_eq_true, decide_eq_true_iff, decide_eq_true_iff] at h
  exact ⟨by omega, by omega⟩

/-- The characters of a printed number: its digits, zeros, and the marks between them. -/
theorem printable_of_mem_number {digits : List Char} {point : Int}
    (hdigits : ∀ c ∈ digits, Printable c) : ∀ c ∈ Binary64.spell digits point, Printable c := by
  have hmarks : ∀ c ∈ ['0', '.', 'e', '+', '-'], Printable c := by
    simp only [Printable, List.forall_mem_cons, List.not_mem_nil, false_imp_iff, implies_true, and_true]
    decide
  have hzeros : ∀ n, ∀ c ∈ List.replicate n '0', Printable c := fun n c hc => by
    rw [List.eq_of_mem_replicate hc]
    exact hmarks '0' (by decide)
  have htake : ∀ n, ∀ c ∈ digits.take n, Printable c := fun n c hc => hdigits c (List.mem_of_mem_take hc)
  have hdrop : ∀ n, ∀ c ∈ digits.drop n, Printable c := fun n c hc => hdigits c (List.mem_of_mem_drop hc)
  have hstart : ∀ c ∈ ['0', '.'], Printable c := fun c hc => hmarks c (List.mem_append_left _ hc)
  unfold Binary64.spell
  split
  · split
    · split
      · exact List.forall_mem_append.2 ⟨hstart, hdigits⟩
      · refine List.forall_mem_append.2 ⟨List.forall_mem_append.2 ⟨htake _, hzeros _⟩,
          List.forall_mem_cons.2 ⟨hmarks '.' (by decide), ?_⟩⟩
        split
        · exact hzeros 1
        · exact hdrop _
    · exact List.forall_mem_append.2 ⟨List.forall_mem_append.2 ⟨hstart, hzeros _⟩, hdigits⟩
  · refine List.forall_mem_append.2 ⟨List.forall_mem_append.2 ⟨htake 1, ?_⟩,
      List.forall_mem_cons.2 ⟨hmarks 'e' (by decide), List.forall_mem_cons.2 ⟨?_,
        List.forall_mem_append.2 ⟨hzeros _, fun c hc => ?_⟩⟩⟩⟩
    · split
      · exact List.forall_mem_nil _
      · exact List.forall_mem_cons.2 ⟨hmarks '.' (by decide), hdrop 1⟩
    · split
      · exact hmarks '-' (by decide)
      · exact hmarks '+' (by decide)
    · exact printable_of_isAsciiDigit (isAsciiDigit_of_mem_decimal hc)

theorem printable_of_mem_word {word : String}
    (h : word ∈ ["null", "true", "false", "NaN", "Infinity", "-Infinity"]) :
    ∀ c ∈ word.toList, Printable c := by
  have hall : ∀ word ∈ ["null", "true", "false", "NaN", "Infinity", "-Infinity"],
      word.toList.all (fun c => 0x20 ≤ c.toNat && c.toNat < 0x7f) = true := by decide
  intro c hc
  simpa [Printable] using List.all_eq_true.1 (hall word h) c hc

theorem printable_of_mem_float {value : Binary64} :
    ∀ c ∈ (value.textWith "Infinity" "NaN").toList, Printable c := by
  have hminus : Printable '-' := ⟨by decide, by decide⟩
  cases value with
  | finite negative significand exponent =>
    have hmagnitude : ∀ c ∈ (if significand = 0 then ['0', '.', '0']
        else Binary64.spell
          (Binary64.trimZeros (Nat.toDigits 10 (Binary64.shortest significand exponent).digits))
          ((Binary64.shortest significand exponent).exponent
            + Int.ofNat (Nat.toDigits 10 (Binary64.shortest significand exponent).digits).length)),
        Printable c := by
      split
      · simp only [Printable, List.forall_mem_cons, List.not_mem_nil, false_imp_iff, implies_true,
          and_true]
        decide
      · refine printable_of_mem_number fun c hc => ?_
        rw [Binary64.trimZeros, List.mem_reverse] at hc
        have hdigit := (List.dropWhile_suffix _).subset hc
        exact printable_of_isAsciiDigit (isAsciiDigit_of_mem_decimal (List.mem_reverse.1 hdigit))
    show ∀ c ∈ (String.ofList _).toList, Printable c
    rw [String.toList_ofList]
    split
    · exact List.forall_mem_cons.2 ⟨hminus, hmagnitude⟩
    · exact hmagnitude
  | infinite negative =>
    cases negative with
    | false => exact printable_of_mem_word (by decide)
    | true =>
      have hword : "-Infinity" ∈ ["null", "true", "false", "NaN", "Infinity", "-Infinity"] := by decide
      exact printable_of_mem_word hword
  | nan => exact printable_of_mem_word (by decide)

theorem forall_mem_showScalar (hprintable : ∀ c, Printable c → P c) (value : Json) :
    ∀ c ∈ (showScalar value).toList, P c := by
  cases value with
  | null => exact fun c hc => hprintable c (printable_of_mem_word (by decide) c hc)
  | bool value =>
    cases value with
    | false => exact fun c hc => hprintable c (printable_of_mem_word (by decide) c hc)
    | true => exact fun c hc => hprintable c (printable_of_mem_word (by decide) c hc)
  | int n =>
    intro c hc
    rw [showScalar, toList_integer] at hc
    refine hprintable c ?_
    rcases List.mem_append.1 hc with hc | hc
    · split at hc
      · obtain rfl := List.mem_singleton.1 hc
        exact ⟨by decide, by decide⟩
      · exact absurd hc List.not_mem_nil
    · exact printable_of_isAsciiDigit (isAsciiDigit_of_mem_decimal hc)
  | float value => exact fun c hc => hprintable c (printable_of_mem_float c hc)
  | str text => exact forall_mem_showString hprintable text
  | arr items => exact List.forall_mem_nil _
  | obj members => exact List.forall_mem_nil _

mutual

/-- **The characters of a value** are printable ASCII and the blanks of the layout. -/
theorem forall_mem_spell (hprintable : ∀ c, Printable c → P c)
    (hgap : ∀ level, ∀ c ∈ layout.gap level, P c) (hcolon : ∀ c ∈ layout.colon, P c) (level : Nat) :
    (value : Json) → ∀ c ∈ spell layout level value, P c
  | null => forall_mem_showScalar hprintable null
  | bool value => forall_mem_showScalar hprintable (bool value)
  | int value => forall_mem_showScalar hprintable (int value)
  | float value => forall_mem_showScalar hprintable (float value)
  | str text => forall_mem_showScalar hprintable (str text)
  | arr items => by
    have hopen : P '[' := hprintable _ ⟨by decide, by decide⟩
    have hclose : ∀ c ∈ [']'], P c := List.forall_mem_singleton.2 (hprintable _ ⟨by decide, by decide⟩)
    cases items with
    | nil => exact List.forall_mem_cons.2 ⟨hopen, hclose⟩
    | cons item items =>
      rw [spell_arr_cons]
      exact List.forall_mem_cons.2 ⟨hopen, List.forall_mem_append.2 ⟨List.forall_mem_append.2
        ⟨forall_mem_spellItems hprintable hgap hcolon (level + 1) (item :: items), hgap level⟩, hclose⟩⟩
  | obj members => by
    have hopen : P '\x7b' := hprintable _ ⟨by decide, by decide⟩
    have hclose : ∀ c ∈ ['\x7d'], P c :=
      List.forall_mem_singleton.2 (hprintable _ ⟨by decide, by decide⟩)
    cases members with
    | nil => exact List.forall_mem_cons.2 ⟨hopen, hclose⟩
    | cons member members =>
      rw [spell_obj_cons]
      exact List.forall_mem_cons.2 ⟨hopen, List.forall_mem_append.2 ⟨List.forall_mem_append.2
        ⟨forall_mem_spellMembers hprintable hgap hcolon (level + 1) (member :: members), hgap level⟩,
        hclose⟩⟩

theorem forall_mem_spellItems (hprintable : ∀ c, Printable c → P c)
    (hgap : ∀ level, ∀ c ∈ layout.gap level, P c) (hcolon : ∀ c ∈ layout.colon, P c) (level : Nat) :
    (items : List Json) → ∀ c ∈ spellItems layout level items, P c
  | [] => List.forall_mem_nil _
  | item :: items => by
    have hitem : ∀ c ∈ layout.gap level ++ spell layout level item, P c :=
      List.forall_mem_append.2 ⟨hgap level, forall_mem_spell hprintable hgap hcolon level item⟩
    have hitems := forall_mem_spellItems hprintable hgap hcolon level items
    cases items with
    | nil =>
      rw [spellItems]
      exact hitem
    | cons item' items =>
      rw [spellItems_cons_cons]
      exact List.forall_mem_append.2
        ⟨hitem, List.forall_mem_cons.2 ⟨hprintable _ ⟨by decide, by decide⟩, hitems⟩⟩

theorem forall_mem_spellMembers (hprintable : ∀ c, Printable c → P c)
    (hgap : ∀ level, ∀ c ∈ layout.gap level, P c) (hcolon : ∀ c ∈ layout.colon, P c) (level : Nat) :
    (members : List (CodeText × Json)) → ∀ c ∈ spellMembers layout level members, P c
  | [] => List.forall_mem_nil _
  | (name, value) :: members => by
    have hmember : ∀ c ∈ layout.gap level ++ (showString name).toList
        ++ ':' :: (layout.colon ++ spell layout level value), P c :=
      List.forall_mem_append.2
        ⟨List.forall_mem_append.2 ⟨hgap level, forall_mem_showString hprintable name⟩,
          List.forall_mem_cons.2 ⟨hprintable _ ⟨by decide, by decide⟩, List.forall_mem_append.2
            ⟨hcolon, forall_mem_spell hprintable hgap hcolon level value⟩⟩⟩
    have hmembers := forall_mem_spellMembers hprintable hgap hcolon level members
    cases members with
    | nil =>
      rw [spellMembers]
      exact hmember
    | cons member' members =>
      rw [spellMembers_cons_cons]
      exact List.forall_mem_append.2
        ⟨hmember, List.forall_mem_cons.2 ⟨hprintable _ ⟨by decide, by decide⟩, hmembers⟩⟩

end

end Characters

variable {value : Json}

/-- **A compact document is printable ASCII.** -/
theorem printable_of_mem_compact {c : Char} (hc : c ∈ value.compact.toList) : Printable c := by
  rw [toList_compact 0] at hc
  refine forall_mem_spell (fun _ h => h) (fun _ _ hc => ?_) (fun _ hc => ?_) 0 value c hc
  · exact absurd hc List.not_mem_nil
  · exact absurd hc List.not_mem_nil

/-- **A compact document is read back from its bytes.** -/
theorem readBytes_compact [Nesting] (h : Readable Nesting.limit value) :
    readBytes (encode value.compact.toList) = .ok value := by
  have hreturn : '\r' ∉ value.compact.toList := by
    intro hc
    exact absurd (printable_of_mem_compact hc).1 (by decide)
  rw [readBytes, decode_encode]
  show (read (unifyNewlines value.compact.toList)).mapError DocumentFault.text = .ok value
  rw [unifyNewlines_of_notMem hreturn, read_compact h]
  rfl

end Json

end NodeLedger
