import NodeLedger.Address.Block
import NodeLedger.Proofs.Address.V6
import NodeLedger.Proofs.Text.Integer

/-!
# The canonical text of a source is canonical

A block that was read has a base of its width without host bits, and a scope that can be written.
Such a block is read back from its text, so the canonical text of a source is its own canonical
text, whatever the source was.

- `Block.Valid`: the blocks that can be read.
- `Block.read?_show`: **printing and reading a block gives the block**.
- `block?`, `canonical_eq_iff`: **two texts have one canonical text exactly if they write one block, or
  neither writes a block and they are one token**.
- `canonical_canonical`: **canonical text stays as it is**.
-/

namespace NodeLedger.Address

open Text

/-- The base has its width and no host bits; the scope holds none of the marks around it. -/
def Block.Valid : Block → Prop
  | v4 base length => base < 2 ^ 32 ∧ length ≤ 32 ∧ clearHost 32 length base = base
  | v6 base scope length =>
    base < 2 ^ 128 ∧ length ≤ 128 ∧ clearHost 128 length base = base ∧ '/' ∉ scope ∧ '%' ∉ scope

/-! ## Blocks that are read -/

section Read

theorem Block.valid_ofV4 {address length : Nat} (haddress : address < 2 ^ 32)
    (hlength : length ≤ 32) : (Block.ofV4 address length).Valid :=
  ⟨Nat.lt_of_le_of_lt (clearHost_le 32 length address) haddress, hlength, clearHost_clearHost ..⟩

theorem Block.valid_ofV6 {address length : Nat} {scope : List Char} (haddress : address < 2 ^ 128)
    (hlength : length ≤ 128) (hslash : '/' ∉ scope) (hpercent : '%' ∉ scope) :
    (Block.ofV6 address scope length).Valid := by
  refine ⟨Nat.lt_of_le_of_lt (clearHost_le 128 length address) haddress, hlength,
    clearHost_clearHost .., ?_, ?_⟩
  · split
    · exact hslash
    · exact List.not_mem_nil
  · split
    · exact hpercent
    · exact List.not_mem_nil

variable {cs address scope : List Char}

/-- The two parts that a scoped address is split into make up the text. -/
theorem splitScope?_parts (h : splitScope? cs = some (address, scope)) :
    '%' ∉ scope ∧ ∀ c ∈ scope, c ∈ cs := by
  unfold splitScope? at h
  split at h
  · cases h
    exact ⟨List.not_mem_nil, fun c hc => absurd hc List.not_mem_nil⟩
  · rename_i front back hcut
    split at h
    · cases h
    · rename_i hscope
      cases h
      have heq : cs = address ++ '%' :: scope := eq_append_of_cutAt? hcut
      constructor
      · intro hmem
        exact hscope (by rw [List.contains_iff_mem.2 hmem, Bool.or_true])
      · intro c hc
        rw [heq]
        exact List.mem_append_right _ (List.mem_cons_of_mem _ hc)

/-- With a length or without one, an IPv6 address is read in the same way. -/
theorem Block.valid_of_readScoped {block : Block} {length : Nat} (hslash : '/' ∉ cs)
    (hlength : length ≤ 128)
    (h : ((splitScope? cs).bind fun p => (readV6? p.1).bind fun a => some (.ofV6 a p.2 length))
      = some block) : block.Valid := by
  obtain ⟨⟨address, scope⟩, hsplit, h⟩ := Option.bind_eq_some_iff.1 h
  obtain ⟨a, ha, h⟩ := Option.bind_eq_some_iff.1 h
  cases h
  obtain ⟨hpercent, hsub⟩ := splitScope?_parts hsplit
  exact Block.valid_ofV6 (readV6?_bound ha) hlength (fun hmem => hslash (hsub _ hmem)) hpercent

/-- **Every block that is read is valid.** -/
theorem Block.valid_of_read? {block : Block} (h : Block.read? cs = some block) : block.Valid := by
  unfold Block.read? at h
  dsimp only at h
  split at h
  · rename_i text hfields
    have hmem : text ∈ fields '/' cs := by
      rw [hfields]
      exact List.mem_singleton_self text
    have htext : '/' ∉ text := notMem_of_mem_fields hmem
    rw [Option.orElse_apply, Option.orElse_eq_or, Option.or_eq_some_iff] at h
    rcases h with h | ⟨-, h⟩
    · obtain ⟨a, ha, rfl⟩ := Option.map_eq_some_iff.1 h
      exact Block.valid_ofV4 (readV4?_bound ha) (Nat.le_refl 32)
    · exact Block.valid_of_readScoped htext (Nat.le_refl 128) h
  · rename_i text limit hfields
    have hmem : text ∈ fields '/' cs := by
      rw [hfields]
      exact List.mem_cons_self
    have htext : '/' ∉ text := notMem_of_mem_fields hmem
    rw [Option.orElse_apply, Option.orElse_eq_or, Option.or_eq_some_iff] at h
    rcases h with h | ⟨-, h⟩
    · obtain ⟨a, ha, h⟩ := Option.bind_eq_some_iff.1 h
      obtain ⟨length, hlength, h⟩ := Option.bind_eq_some_iff.1 h
      cases h
      exact Block.valid_ofV4 (readV4?_bound ha) (v4Length?_bound hlength)
    · obtain ⟨length, hlength, h⟩ := Option.bind_eq_some_iff.1 h
      exact Block.valid_of_readScoped htext (prefixLength?_bound hlength) h
  · cases h

end Read

/-! ## Blocks read back -/

section Show

theorem slash_notMem_showV4 (address : Nat) : '/' ∉ showV4 address := by
  intro h
  rcases mem_showV4 h with hc | hc
  · exact absurd hc (by decide)
  · exact absurd hc (by decide)

theorem notMem_showV6 {c : Char} (hcolon : c ≠ ':') (hdigits : ∀ d < 16, c ≠ Nat.digitChar d)
    (address : Nat) : c ∉ showV6 address := by
  intro h
  rcases mem_showV6 h with hc | ⟨d, hd, hc⟩
  · exact hcolon hc
  · exact hdigits d hd hc

/-- The two parts of a block in text. -/
theorem fields_slash {front : List Char} (h : '/' ∉ front) (length : Nat) :
    fields '/' (front ++ '/' :: decimal length) = [front, decimal length] := by
  rw [fields_append_cons h, fields_of_notMem (notMem_decimal (by decide) length)]

/-- An address with its scope, as it is printed. -/
theorem splitScope?_showV6 (address : Nat) {scope : List Char} (h : '%' ∉ scope) :
    splitScope? (showV6 address ++ if scope.isEmpty then [] else '%' :: scope)
      = some (showV6 address, scope) := by
  have hpercent : '%' ∉ showV6 address := notMem_showV6 (by decide) (by decide) address
  cases scope with
  | nil =>
    rw [List.isEmpty_nil, if_pos rfl, List.append_nil, splitScope?, cutAt?_of_notMem hpercent]
  | cons c cs =>
    have hcontains : (c :: cs).contains '%' = false := by
      rw [Bool.eq_false_iff, Ne, List.contains_iff_mem]
      exact h
    rw [List.isEmpty_cons, if_neg Bool.false_ne_true, splitScope?, cutAt?_append_cons hpercent]
    simp only [List.isEmpty_cons, hcontains, Bool.or_self, Bool.false_eq_true, if_false]

/-- **A printed block is read back.** -/
theorem Block.read?_show {block : Block} (h : block.Valid) : Block.read? block.show = some block := by
  cases block with
  | v4 base length =>
    obtain ⟨hbase, hlength, hhost⟩ := h
    unfold Block.read?
    rw [Block.show, fields_slash (slash_notMem_showV4 base)]
    simp [readV4?_showV4 hbase, v4Length?_decimal hlength, Block.ofV4, hhost]
  | v6 base scope length =>
    obtain ⟨hbase, hlength, hhost, hslash, hpercent⟩ := h
    have hsplit := splitScope?_showV6 base hpercent
    -- A colon keeps the text from being read as an IPv4 address first.
    have hcolon : ':' ∈ showV6 base ++ if scope.isEmpty then [] else '%' :: scope :=
      List.mem_append_left _ (colon_mem_showV6 base)
    have hfront : '/' ∉ showV6 base ++ if scope.isEmpty then [] else '%' :: scope := by
      intro hmem
      rcases List.mem_append.1 hmem with hmem | hmem
      · exact notMem_showV6 (by decide) (by decide) base hmem
      · split at hmem
        · exact List.not_mem_nil hmem
        · rcases List.mem_cons.1 hmem with hc | hmem
          · exact absurd hc (by decide)
          · exact hslash hmem
    unfold Block.read?
    rw [Block.show]
    generalize (showV6 base ++ if scope.isEmpty then [] else '%' :: scope) = front at *
    rw [fields_slash hfront]
    simp [readV4?_of_mem_colon hcolon, prefixLength?_decimal hlength (Nat.le_refl 128), hsplit,
      readV6?_showV6 hbase, Block.ofV6, hhost]

theorem isBlank_of_mem_showV4 {address : Nat} {c : Char} (h : c ∈ showV4 address) :
    isBlank c = false := by
  rcases mem_showV4 h with rfl | hc
  · decide
  · exact isBlank_of_isAsciiDigit hc

theorem isBlank_of_mem_showV6 {address : Nat} {c : Char} (h : c ∈ showV6 address) :
    isBlank c = false := by
  have hdigits : ∀ d < 16, isBlank (Nat.digitChar d) = false := by decide
  rcases mem_showV6 h with rfl | ⟨d, hd, rfl⟩
  · decide
  · exact hdigits d hd

theorem mem_of_head?_append {front back : List Char} (hne : front ≠ []) {c : Char}
    (h : c ∈ (front ++ back).head?) : c ∈ front := by
  rw [Option.mem_def, List.head?_append, List.head?_eq_some_head hne, Option.some_or] at h
  exact List.mem_of_head? ((List.head?_eq_some_head hne).trans h)

/-- A text with a length behind its slash ends in a digit. -/
theorem isBlank_of_getLast?_slash {front : List Char} {length : Nat} {c : Char}
    (h : c ∈ (front ++ '/' :: decimal length).getLast?) : isBlank c = false := by
  have hmem : c ∈ decimal length := by
    rw [Option.mem_def, List.getLast?_append_of_ne_nil _ (List.cons_ne_nil _ _),
      List.getLast?_cons_of_ne_nil (decimal_ne_nil length)] at h
    exact List.mem_of_getLast? h
  exact isBlank_of_isAsciiDigit (isAsciiDigit_of_mem_decimal hmem)

/-- A printed block has no blank at its ends: an address comes first, and a length comes last. -/
theorem Block.stripChars_show (block : Block) : stripChars block.show = block.show := by
  cases block with
  | v4 base length =>
    refine trimBy_of_ends (fun c hc => isBlank_of_mem_showV4 (mem_of_head?_append ?_ hc))
      fun c hc => isBlank_of_getLast?_slash hc
    intro hnil
    have hfields := fields_showV4 base
    rw [hnil] at hfields
    have hlength : (fields '.' []).length = 4 := congrArg List.length hfields
    exact absurd hlength (by decide)
  | v6 base scope length =>
    have hne : showV6 base ≠ [] := List.ne_nil_of_mem (colon_mem_showV6 base)
    refine trimBy_of_ends (fun c hc => ?_) fun c hc => isBlank_of_getLast?_slash hc
    rw [Block.show, List.append_assoc] at hc
    exact isBlank_of_mem_showV6 (mem_of_head?_append hne hc)

end Show

/-! ## One block, one canonical text -/

section Canonical

variable {source other : String} {block : Block}

/-- The block that a source writes, if it is one. -/
def block? (source : String) : Option Block :=
  Block.read? (stripChars source.toList)

theorem canonical_of_block? (h : block? source = some block) :
    canonical source = String.ofList block.show := by
  rw [block?] at h
  rw [canonical, canonicalChars, h]

theorem canonical_of_block?_eq_none (h : block? source = none) :
    canonical source = strip source := by
  rw [block?] at h
  rw [canonical, canonicalChars, strip, h]

/-- Canonical text writes what the source writes. -/
@[simp] theorem block?_canonical (source : String) : block? (canonical source) = block? source := by
  cases h : block? source with
  | some block =>
    rw [canonical_of_block? h, block?, String.toList_ofList, Block.stripChars_show]
    exact Block.read?_show (Block.valid_of_read? h)
  | none =>
    rw [canonical_of_block?_eq_none h, block?, strip, String.toList_ofList, stripChars_stripChars]
    exact h

/-- **Two texts have one canonical text exactly if they write one block, or neither writes a block and
they are one token.** -/
theorem canonical_eq_iff :
    canonical source = canonical other ↔
      block? source = block? other ∧ (block? source = none → strip source = strip other) := by
  constructor
  · intro h
    have hblock : block? source = block? other := by
      rw [← block?_canonical source, h, block?_canonical]
    refine ⟨hblock, fun hnone => ?_⟩
    rwa [canonical_of_block?_eq_none hnone, canonical_of_block?_eq_none (hblock ▸ hnone)] at h
  · rintro ⟨hblock, htoken⟩
    cases h : block? source with
    | some block => rw [canonical_of_block? h, canonical_of_block? (hblock ▸ h)]
    | none =>
      rw [canonical_of_block?_eq_none h, canonical_of_block?_eq_none (hblock ▸ h), htoken h]

/-- **Canonical text stays as it is.** -/
@[simp] theorem canonical_canonical (source : String) :
    canonical (canonical source) = canonical source := by
  refine canonical_eq_iff.2 ⟨block?_canonical source, fun hnone => ?_⟩
  -- A token that is no block has only been trimmed.
  rw [block?_canonical] at hnone
  rw [canonical_of_block?_eq_none hnone, strip_strip]

end Canonical

end NodeLedger.Address
