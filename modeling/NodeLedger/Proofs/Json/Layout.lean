import NodeLedger.Proofs.Json.Scalar

/-!
# JSON values read back

A layout says which blank space stands before an item and after a colon. The reader skips it, so
values come back from their text in any layout.

- `Layout`, `spell`: a value in a layout. `toList_compact`: the compact text is one without blanks.
- `Readable`: the values that come back, down to a depth of nesting: numbers have neither fraction
  nor exponent, texts split no character, and the names of an object are distinct.
- `Reads`: a value comes back from its text, whatever follows. `reads_of_readable`: **every readable
  value does**.
- `read_spell`, `read_compact`: the same for a whole text, and for a compact one.
-/

namespace NodeLedger.Json

open Text

/-! ## Layouts -/

/-- The blank space of a text: before an item at a depth, and after a colon. -/
structure Layout where
  gap : Nat → List Char
  colon : List Char
  isSpace_gap : ∀ depth, ∀ c ∈ gap depth, isSpace c = true
  isSpace_colon : ∀ c ∈ colon, isSpace c = true

/-- No blank space at all. -/
def Layout.compact : Layout where
  gap _ := []
  colon := []
  isSpace_gap _ _ hc := absurd hc List.not_mem_nil
  isSpace_colon _ hc := absurd hc List.not_mem_nil

variable (layout : Layout)

mutual

/-- A value in a layout, as it stands at a level. -/
def spell (level : Nat) : Json → List Char
  | arr [] => ['[', ']']
  | arr items => '[' :: (spellItems (level + 1) items ++ layout.gap level ++ [']'])
  | obj [] => ['\x7b', '\x7d']
  | obj members => '\x7b' :: (spellMembers (level + 1) members ++ layout.gap level ++ ['\x7d'])
  | value => (showScalar value).toList

/-- Items in a layout. -/
def spellItems (level : Nat) : List Json → List Char
  | [] => []
  | [item] => layout.gap level ++ spell level item
  | item :: items => layout.gap level ++ spell level item ++ ',' :: spellItems level items

/-- Members in a layout. -/
def spellMembers (level : Nat) : List (CodeText × Json) → List Char
  | [] => []
  | [(name, value)] =>
    layout.gap level ++ (showString name).toList ++ ':' :: (layout.colon ++ spell level value)
  | (name, value) :: members =>
    layout.gap level ++ (showString name).toList ++ ':' :: (layout.colon ++ spell level value)
      ++ ',' :: spellMembers level members

end

section Cons

variable (level : Nat)

theorem spell_arr_cons (item : Json) (items : List Json) :
    spell layout level (.arr (item :: items))
      = '[' :: (spellItems layout (level + 1) (item :: items) ++ layout.gap level ++ [']']) := by
  rw [spell]
  exact List.cons_ne_nil item items

theorem spell_obj_cons (member : CodeText × Json) (members : List (CodeText × Json)) :
    spell layout level (.obj (member :: members))
      = '\x7b' :: (spellMembers layout (level + 1) (member :: members) ++ layout.gap level
          ++ ['\x7d']) := by
  rw [spell]
  exact List.cons_ne_nil member members

theorem spellItems_cons_cons (item item' : Json) (items : List Json) :
    spellItems layout level (item :: item' :: items)
      = layout.gap level ++ spell layout level item
          ++ ',' :: spellItems layout level (item' :: items) := by
  rw [spellItems]
  exact List.cons_ne_nil item' items

theorem spellMembers_cons_cons (name : CodeText) (value : Json) (member : CodeText × Json)
    (members : List (CodeText × Json)) :
    spellMembers layout level ((name, value) :: member :: members)
      = layout.gap level ++ (showString name).toList ++ ':' :: (layout.colon ++ spell layout level value)
          ++ ',' :: spellMembers layout level (member :: members) := by
  rw [spellMembers]
  exact List.cons_ne_nil member members

theorem compactItems_cons_cons (item item' : Json) (items : List Json) :
    compactItems (item :: item' :: items) = item.compact ++ "," ++ compactItems (item' :: items) := by
  rw [compactItems]
  exact List.cons_ne_nil item' items

theorem compactMembers_cons_cons (name : CodeText) (value : Json) (member : CodeText × Json)
    (members : List (CodeText × Json)) :
    compactMembers ((name, value) :: member :: members)
      = showString name ++ ":" ++ value.compact ++ "," ++ compactMembers (member :: members) := by
  rw [compactMembers]
  exact List.cons_ne_nil member members

end Cons

@[simp] theorem Layout.gap_compact (level : Nat) : Layout.compact.gap level = [] := rfl

@[simp] theorem Layout.colon_compact : Layout.compact.colon = [] := rfl

mutual

/-- The compact text is the one without blank space. -/
theorem toList_compact (level : Nat) :
    (value : Json) → value.compact.toList = spell .compact level value
  | null => rfl
  | bool _ => rfl
  | int _ => rfl
  | float _ => rfl
  | str _ => rfl
  | arr [] => rfl
  | arr (item :: items) => by
    rw [compact, String.toList_append, String.toList_append, toList_compactItems (level + 1),
      spell_arr_cons]
    simp
  | obj [] => rfl
  | obj (member :: members) => by
    rw [compact, String.toList_append, String.toList_append, toList_compactMembers (level + 1),
      spell_obj_cons]
    simp

theorem toList_compactItems (level : Nat) :
    (items : List Json) → (compactItems items).toList = spellItems .compact level items
  | [] => rfl
  | [item] => by
    rw [compactItems, toList_compact level item, spellItems, Layout.gap_compact, List.nil_append]
  | item :: item' :: items => by
    rw [compactItems_cons_cons, String.toList_append, String.toList_append, toList_compact level item,
      toList_compactItems level (item' :: items), spellItems_cons_cons]
    simp

theorem toList_compactMembers (level : Nat) :
    (members : List (CodeText × Json)) →
      (compactMembers members).toList = spellMembers .compact level members
  | [] => rfl
  | [(name, value)] => by
    rw [compactMembers, String.toList_append, String.toList_append, toList_compact level value,
      spellMembers]
    simp
  | (name, value) :: member :: members => by
    rw [compactMembers_cons_cons, String.toList_append, String.toList_append, String.toList_append,
      String.toList_append, toList_compact level value, toList_compactMembers level (member :: members),
      spellMembers_cons_cons]
    simp

end

/-! ## Readable values -/

/-- The values that come back from their text, nested at most so deep. -/
inductive Readable : (depth : Nat) → Json → Prop
  | scalar {depth : Nat} {value : Json} (h : ReadableScalar value) : Readable depth value
  | arr {depth : Nat} {items : List Json} (h : ∀ item ∈ items, Readable depth item) :
    Readable (depth + 1) (.arr items)
  | obj {depth : Nat} {members : List (CodeText × Json)} (hnames : (members.map (·.1)).Nodup)
    (hunsplit : ∀ member ∈ members, member.1.Unsplit)
    (h : ∀ member ∈ members, Readable depth member.2) : Readable (depth + 1) (.obj members)

/-- The value comes back from its text at any level, with fuel for twice the text, if nothing
continues it. -/
def Reads (depth : Nat) (value : Json) : Prop :=
  ∀ (level fuel : Nat) (rest : List Char), 2 * (spell layout level value).length ≤ fuel + 1 →
    EndsNumber rest → readValue depth fuel (spell layout level value ++ rest) = .ok (value, rest)

section Blanks

variable {blank cs : List Char}

theorem skipSpace_append (h : ∀ c ∈ blank, isSpace c = true) (cs : List Char) :
    skipSpace (blank ++ cs) = skipSpace cs :=
  List.dropWhile_append_of_pos h

theorem skipSpace_cons {c : Char} (h : isSpace c = false) (cs : List Char) :
    skipSpace (c :: cs) = c :: cs :=
  List.dropWhile_cons_of_neg (by rw [h]; exact Bool.false_ne_true)

theorem skipSpace_of_startsValue (h : StartsValue cs) : skipSpace cs = cs := by
  obtain ⟨c, rest, rfl, hspace, -⟩ := h
  exact skipSpace_cons hspace rest

/-- Blank space does not continue a number. -/
theorem endsNumber_of_isSpace (h : ∀ c ∈ blank, isSpace c = true) : EndsNumber blank := by
  intro c hc
  have hspace := h c (List.mem_of_head? hc)
  simp only [isSpace, Bool.or_eq_true, beq_iff_eq] at hspace
  rcases hspace with ((rfl | rfl) | rfl) | rfl <;> decide

/-- Neither blank space nor a mark between values continues a number. -/
theorem endsNumber_append_cons (h : ∀ c ∈ blank, isSpace c = true) {c : Char}
    (hc : c ∈ [',', ']', '\x7d']) (rest : List Char) : EndsNumber (blank ++ c :: rest) := by
  intro c' hc'
  cases blank with
  | nil =>
    cases hc'
    have hmarks : ∀ c ∈ [',', ']', '\x7d'],
        isAsciiDigit c = false ∧ c ≠ '.' ∧ c ≠ 'e' ∧ c ≠ 'E' := by
      simp only [List.forall_mem_cons, List.not_mem_nil, false_imp_iff, implies_true, and_true]
      decide
    exact hmarks c hc
  | cons b blank => exact endsNumber_of_isSpace h c' hc'

theorem endsNumber_comma (rest : List Char) : EndsNumber (',' :: rest) :=
  endsNumber_append_cons (fun _ hc => absurd hc List.not_mem_nil) (by decide) rest

theorem afterItem_comma {closing : Char} (hne : ',' ≠ closing) (rest : List Char) :
    afterItem closing (',' :: rest) = .ok (true, skipSpace rest) := by
  rw [afterItem, skipSpace_cons (by decide)]
  simp only [beq_false_of_ne hne, Bool.false_eq_true, if_false, beq_self_eq_true, if_true]

theorem afterItem_closing {closing : Char} (h : ∀ c ∈ blank, isSpace c = true)
    (hclosing : isSpace closing = false) (rest : List Char) :
    afterItem closing (blank ++ closing :: rest) = .ok (false, rest) := by
  rw [afterItem, skipSpace_append h, skipSpace_cons hclosing]
  simp only [beq_self_eq_true, if_true]

end Blanks

section Reading

variable {layout} {depth : Nat}

theorem spell_of_readableScalar {value : Json} (h : ReadableScalar value) (level : Nat) :
    spell layout level value = (showScalar value).toList := by
  cases h <;> rfl

/-- A printed value starts with no blank and no closing bracket. -/
theorem startsValue_spell {value : Json} (h : Readable depth value) (level : Nat)
    (rest : List Char) : StartsValue (spell layout level value ++ rest) := by
  cases h with
  | scalar h =>
    rw [spell_of_readableScalar h]
    exact startsValue_showScalar h
  | @arr _ items h =>
    cases items with
    | nil => exact ⟨'[', _, rfl, by decide, by decide, by decide, by decide⟩
    | cons item items =>
      rw [spell_arr_cons]
      exact ⟨'[', _, rfl, by decide, by decide, by decide, by decide⟩
  | @obj _ members hnames hunsplit h =>
    cases members with
    | nil => exact ⟨'\x7b', _, rfl, by decide, by decide, by decide, by decide⟩
    | cons member members =>
      rw [spell_obj_cons]
      exact ⟨'\x7b', _, rfl, by decide, by decide, by decide, by decide⟩

theorem length_spell_pos {value : Json} (h : Readable depth value) (level : Nat) :
    0 < (spell layout level value).length := by
  obtain ⟨c, rest, heq, -⟩ := startsValue_spell h level []
  rw [List.append_nil] at heq
  rw [heq]
  exact Nat.succ_pos _

/-- Blank space before a printed value is skipped. -/
theorem skipSpace_gap_spell {value : Json} (h : Readable depth value) (level : Nat)
    (rest : List Char) :
    skipSpace (layout.gap level ++ (spell layout level value ++ rest))
      = spell layout level value ++ rest := by
  rw [skipSpace_append (layout.isSpace_gap level),
    skipSpace_of_startsValue (startsValue_spell h level rest)]

/-! ## Items -/

section Items

variable {item : Json} {items : List Json} {fuel : Nat} {cs after rest : List Char}

theorem readItems_of_last (hvalue : readValue depth fuel cs = .ok (item, after))
    (hafter : afterItem ']' after = .ok (false, rest)) :
    readItems depth (fuel + 1) cs = .ok ([item], rest) := by
  rw [readItems, hvalue]
  simp only [bind, Except.bind, hafter]
  rfl

theorem readItems_of_more {next : List Char} (hvalue : readValue depth fuel cs = .ok (item, after))
    (hafter : afterItem ']' after = .ok (true, next))
    (hitems : readItems depth fuel next = .ok (items, rest)) :
    readItems depth (fuel + 1) cs = .ok (item :: items, rest) := by
  rw [readItems, hvalue]
  simp only [bind, Except.bind, hafter, hitems]
  rfl

/-- The items start with the first one, after blank space. -/
theorem exists_skipSpace_spellItems (h : Readable depth item) (items : List Json) (level : Nat)
    (rest : List Char) : StartsValue (skipSpace (spellItems layout level (item :: items) ++ rest)) := by
  cases items with
  | nil =>
    rw [spellItems, List.append_assoc, skipSpace_gap_spell h]
    exact startsValue_spell h level rest
  | cons item' items =>
    rw [spellItems_cons_cons, List.append_assoc, List.append_assoc, skipSpace_gap_spell h]
    exact startsValue_spell h level _

/-- **Items that come back one by one come back as a list.** -/
theorem readItems_spellItems (hne : items ≠ []) (hreadable : ∀ item ∈ items, Readable depth item)
    (hreads : ∀ item ∈ items, Reads layout depth item) (level fuel : Nat)
    (hfuel : 2 * (spellItems layout level items).length ≤ fuel) {blank : List Char}
    (hblank : ∀ c ∈ blank, isSpace c = true) (rest : List Char) :
    readItems depth fuel (skipSpace (spellItems layout level items ++ (blank ++ ']' :: rest)))
      = .ok (items, rest) := by
  induction items generalizing fuel with
  | nil => exact absurd rfl hne
  | cons item items ih =>
    obtain ⟨hstarts, hreadable⟩ := List.forall_mem_cons.1 hreadable
    obtain ⟨hread, hreads⟩ := List.forall_mem_cons.1 hreads
    have hpos : 0 < (spell layout level item).length := length_spell_pos hstarts level
    cases items with
    | nil =>
      rw [spellItems, List.length_append] at hfuel
      obtain ⟨fuel, rfl⟩ := Nat.exists_eq_succ_of_ne_zero (by omega : fuel ≠ 0)
      have hvalue := hread level fuel (blank ++ ']' :: rest) (by omega)
        (endsNumber_append_cons hblank (by decide) rest)
      rw [spellItems, List.append_assoc, skipSpace_gap_spell hstarts]
      exact readItems_of_last hvalue (afterItem_closing hblank (by decide) rest)
    | cons item' items =>
      rw [spellItems_cons_cons, List.length_append, List.length_append, List.length_cons] at hfuel
      obtain ⟨fuel, rfl⟩ := Nat.exists_eq_succ_of_ne_zero (by omega : fuel ≠ 0)
      have hvalue := hread level fuel
        (',' :: (spellItems layout level (item' :: items) ++ (blank ++ ']' :: rest))) (by omega)
        (endsNumber_comma _)
      have hitems := ih (List.cons_ne_nil _ _) hreadable hreads fuel (by omega)
      rw [spellItems_cons_cons, List.append_assoc, List.append_assoc, List.cons_append,
        skipSpace_gap_spell hstarts]
      exact readItems_of_more hvalue (afterItem_comma (by decide) _) hitems

end Items

/-! ## Members -/

section Members

variable {name : CodeText} {value : Json} {members before : List (CodeText × Json)} {fuel : Nat}
  {cs named after rest : List Char}

theorem setMember_of_fresh (h : name ∉ members.map (·.1)) (value : Json) :
    setMember members name value = members ++ [(name, value)] := by
  induction members with
  | nil => rfl
  | cons member members ih =>
    obtain ⟨hne, hrest⟩ := List.ne_and_not_mem_of_not_mem_cons h
    rw [setMember, if_neg (Ne.symm hne), ih hrest]
    rfl

theorem readMembers_of_last (hname : readName cs = .ok (name, named))
    (hvalue : readValue depth fuel named = .ok (value, after))
    (hafter : afterItem '\x7d' after = .ok (false, rest)) :
    readMembers depth (fuel + 1) before cs = .ok (setMember before name value, rest) := by
  rw [readMembers, hname]
  simp only [bind, Except.bind, hvalue, hafter]
  rfl

theorem readMembers_of_more {next : List Char} (hname : readName cs = .ok (name, named))
    (hvalue : readValue depth fuel named = .ok (value, after))
    (hafter : afterItem '\x7d' after = .ok (true, next)) :
    readMembers depth (fuel + 1) before cs
      = readMembers depth fuel (setMember before name value) next := by
  rw [readMembers, hname]
  simp only [bind, Except.bind, hvalue, hafter]

/-- A printed name is read back with its colon, up to the value. -/
theorem readName_showString (hname : name.Unsplit) (h : Readable depth value) (level : Nat)
    (rest : List Char) :
    readName ((showString name).toList ++ ':' :: (layout.colon ++ (spell layout level value ++ rest)))
      = .ok (name, spell layout level value ++ rest) := by
  rw [toList_showString_append, readName, readString_showString hname]
  simp only [bind, Except.bind, skipSpace_cons (by decide : isSpace ':' = false)]
  show Except.ok (name, skipSpace (layout.colon ++ (spell layout level value ++ rest))) = _
  rw [skipSpace_append layout.isSpace_colon, skipSpace_of_startsValue (startsValue_spell h level rest)]

/-- Blank space before a printed name is skipped. -/
theorem skipSpace_gap_showString (name : CodeText) (level : Nat) (rest : List Char) :
    skipSpace (layout.gap level ++ ((showString name).toList ++ rest))
      = (showString name).toList ++ rest := by
  rw [skipSpace_append (layout.isSpace_gap level), toList_showString_append, skipSpace_cons (by decide)]

/-- The members start with the first name, after blank space. -/
theorem exists_skipSpace_spellMembers (member : CodeText × Json) (members : List (CodeText × Json))
    (level : Nat) (rest : List Char) :
    ∃ tail, skipSpace (spellMembers layout level (member :: members) ++ rest) = '"' :: tail := by
  obtain ⟨name, value⟩ := member
  cases members with
  | nil =>
    rw [spellMembers, List.append_assoc, List.append_assoc, skipSpace_gap_showString,
      toList_showString_append]
    exact ⟨_, rfl⟩
  | cons member' members =>
    rw [spellMembers_cons_cons, List.append_assoc, List.append_assoc, List.append_assoc,
      skipSpace_gap_showString, toList_showString_append]
    exact ⟨_, rfl⟩

/-- **Members that come back one by one come back as a list**, after those before them. -/
theorem readMembers_spellMembers (hne : members ≠ [])
    (hunsplit : ∀ member ∈ members, member.1.Unsplit)
    (hreadable : ∀ member ∈ members, Readable depth member.2)
    (hreads : ∀ member ∈ members, Reads layout depth member.2) (level fuel : Nat)
    (hfuel : 2 * (spellMembers layout level members).length ≤ fuel) {blank : List Char}
    (hblank : ∀ c ∈ blank, isSpace c = true) (rest : List Char) (before : List (CodeText × Json))
    (hnames : ((before ++ members).map (·.1)).Nodup) :
    readMembers depth fuel before
        (skipSpace (spellMembers layout level members ++ (blank ++ '\x7d' :: rest)))
      = .ok (before ++ members, rest) := by
  induction members generalizing fuel before with
  | nil => exact absurd rfl hne
  | cons member members ih =>
    obtain ⟨name, value⟩ := member
    obtain ⟨hname, hunsplit⟩ := List.forall_mem_cons.1 hunsplit
    have hstarts : Readable depth value := hreadable _ List.mem_cons_self
    have hread : Reads layout depth value := hreads _ List.mem_cons_self
    obtain ⟨-, hreadable⟩ := List.forall_mem_cons.1 hreadable
    obtain ⟨-, hreads⟩ := List.forall_mem_cons.1 hreads
    -- No name comes twice, so the member is put behind those before it.
    have hfresh : name ∉ before.map (·.1) := by
      rw [List.map_append, List.nodup_append] at hnames
      exact fun hmem => hnames.2.2 name hmem name List.mem_cons_self rfl
    have hset := setMember_of_fresh hfresh value
    cases members with
    | nil =>
      rw [spellMembers, List.length_append, List.length_append, List.length_cons,
        List.length_append] at hfuel
      obtain ⟨fuel, rfl⟩ := Nat.exists_eq_succ_of_ne_zero (by omega : fuel ≠ 0)
      have hvalue := hread level fuel (blank ++ '\x7d' :: rest) (by omega)
        (endsNumber_append_cons hblank (by decide) rest)
      rw [spellMembers, List.append_assoc, List.append_assoc, List.cons_append, List.append_assoc,
        skipSpace_gap_showString, ← hset]
      exact readMembers_of_last (readName_showString hname hstarts level _) hvalue
        (afterItem_closing hblank (by decide) rest)
    | cons member' members =>
      rw [spellMembers_cons_cons, List.length_append, List.length_append, List.length_append,
        List.length_cons, List.length_cons, List.length_append] at hfuel
      obtain ⟨fuel, rfl⟩ := Nat.exists_eq_succ_of_ne_zero (by omega : fuel ≠ 0)
      have hvalue := hread level fuel
        (',' :: (spellMembers layout level (member' :: members) ++ (blank ++ '\x7d' :: rest)))
        (by omega) (endsNumber_comma _)
      have hmembers := ih (List.cons_ne_nil _ _) hunsplit hreadable hreads fuel (by omega)
        (before ++ [(name, value)]) (by rwa [List.append_assoc])
      rw [List.append_assoc] at hmembers
      rw [spellMembers_cons_cons, List.append_assoc, List.append_assoc, List.append_assoc,
        List.cons_append, List.append_assoc, List.cons_append, skipSpace_gap_showString,
        readMembers_of_more (readName_showString hname hstarts level _) hvalue
          (afterItem_comma (by decide) _), hset]
      exact hmembers

end Members

/-! ## Values -/

theorem reads_of_readableScalar {value : Json} (h : ReadableScalar value) :
    Reads layout depth value := by
  intro level fuel rest hfuel hrest
  have hreadable : Readable depth value := .scalar h
  have hpos : 0 < (spell layout level value).length := length_spell_pos hreadable level
  obtain ⟨fuel, rfl⟩ := Nat.exists_eq_succ_of_ne_zero (by omega : fuel ≠ 0)
  have hscalar := readScalar_showScalar h hrest
  obtain ⟨c, cs, htext, -⟩ := exists_head_showScalar h
  obtain ⟨-, -, -, -, hbracket, hbrace⟩ := head_showScalar_ne h htext
  rw [spell_of_readableScalar h]
  rw [htext, List.cons_append] at hscalar ⊢
  rw [readValue]
  · exact hscalar
  · exact fun _ heq => hbracket (List.cons.inj heq).1
  · exact fun _ heq => hbrace (List.cons.inj heq).1

theorem reads_arr {items : List Json} (h : ∀ item ∈ items, Readable depth item)
    (hreads : ∀ item ∈ items, Reads layout depth item) : Reads layout (depth + 1) (.arr items) := by
  intro level fuel rest hfuel _
  have hpos : 0 < (spell layout level (.arr items)).length := length_spell_pos (.arr h) level
  obtain ⟨fuel, rfl⟩ := Nat.exists_eq_succ_of_ne_zero (by omega : fuel ≠ 0)
  cases items with
  | nil => rfl
  | cons item items =>
    rw [spell_arr_cons, List.length_cons, List.length_append, List.length_append] at hfuel
    have hitems := readItems_spellItems (List.cons_ne_nil item items) h hreads (level + 1) fuel
      (by omega) (layout.isSpace_gap level) rest
    obtain ⟨c, tail, htext, -, -, hbracket, -⟩ := exists_skipSpace_spellItems (h item List.mem_cons_self)
      items (level + 1) (layout.gap level ++ ']' :: rest)
    rw [spell_arr_cons, List.cons_append, List.append_assoc, List.append_assoc, List.cons_append,
      List.nil_append, readValue]
    rw [htext] at hitems ⊢
    -- The first item does not start with the bracket that would end the array.
    split
    · rename_i heq
      exact absurd (List.cons.inj heq).1 hbracket
    · rw [hitems]
      rfl

theorem reads_obj {members : List (CodeText × Json)} (hnames : (members.map (·.1)).Nodup)
    (hunsplit : ∀ member ∈ members, member.1.Unsplit)
    (h : ∀ member ∈ members, Readable depth member.2)
    (hreads : ∀ member ∈ members, Reads layout depth member.2) :
    Reads layout (depth + 1) (.obj members) := by
  intro level fuel rest hfuel _
  have hpos : 0 < (spell layout level (.obj members)).length :=
    length_spell_pos (.obj hnames hunsplit h) level
  obtain ⟨fuel, rfl⟩ := Nat.exists_eq_succ_of_ne_zero (by omega : fuel ≠ 0)
  cases members with
  | nil => rfl
  | cons member members =>
    rw [spell_obj_cons, List.length_cons, List.length_append, List.length_append] at hfuel
    have hmembers := readMembers_spellMembers (List.cons_ne_nil member members) hunsplit h hreads
      (level + 1) fuel (by omega) (layout.isSpace_gap level) rest [] hnames
    obtain ⟨tail, htext⟩ := exists_skipSpace_spellMembers member members (level + 1)
      (layout.gap level ++ '\x7d' :: rest)
    rw [spell_obj_cons, List.cons_append, List.append_assoc, List.append_assoc, List.cons_append,
      List.nil_append, readValue]
    rw [htext] at hmembers ⊢
    split
    · rename_i heq
      cases heq
    · rw [hmembers]
      rfl

/-- **A printed value is read back.** -/
theorem reads_of_readable {value : Json} (h : Readable depth value) : Reads layout depth value := by
  induction h with
  | scalar h => exact reads_of_readableScalar h
  | arr h ih => exact reads_arr h ih
  | obj hnames hunsplit h ih => exact reads_obj hnames hunsplit h ih

end Reading

/-- **A printed document is read back**: a readable value in a text, with blank space after it or
none. -/
theorem read_spell [Nesting] {value : Json} (h : Readable Nesting.limit value) (level : Nat)
    {blank : List Char} (hblank : ∀ c ∈ blank, isSpace c = true) :
    read (spell layout level value ++ blank) = .ok value := by
  have hstarts : StartsValue (spell layout level value ++ blank) := startsValue_spell h level blank
  have hreads : Reads layout Nesting.limit value := reads_of_readable h
  have hvalue := hreads level (2 * (spell layout level value ++ blank).length + 2) blank
    (by rw [List.length_append]; omega) (endsNumber_of_isSpace hblank)
  have hskip := skipSpace_of_startsValue hstarts
  have hrest : skipSpace blank = [] := by
    rw [← List.append_nil blank, skipSpace_append hblank]
    rfl
  obtain ⟨c, cs, htext, -, hmark, -⟩ := hstarts
  have hhead : ((spell layout level value ++ blank).head? == some '\ufeff') = false := by
    rw [htext, List.head?_cons]
    exact beq_false_of_ne fun heq => hmark (Option.some.inj heq)
  have hwhole : readWhole (spell layout level value ++ blank) = .ok value := by
    rw [readWhole, hhead, hskip, hvalue]
    show (if (skipSpace blank).isEmpty = true then _ else _) = _
    rw [hrest]
    rfl
  rw [read, hwhole]

/-- **A compact document is read back.** -/
theorem read_compact [Nesting] {value : Json} (h : Readable Nesting.limit value) :
    read value.compact.toList = .ok value := by
  rw [toList_compact 0, ← List.append_nil (spell _ 0 value),
    read_spell _ h 0 (List.forall_mem_nil _)]

end NodeLedger.Json
