import NodeLedger.Proofs.Address.Canonical

/-!
# Addresses of single hosts

An IPv4 address has one spelling, because no octet has a leading zero. Its canonical text as a
source is that spelling with the full prefix length behind it.

- `showV4_of_readV4?`: **an address is printed as it was read**.
- `canonical_of_readV4?`: the canonical text of an IPv4 host.
- `canonical_ne_empty`: a block in text has a canonical text that says something.
-/

namespace NodeLedger.Address

open Text

section Spelling

variable {cs : List Char} {n address : Nat}

theorem decimal_of_octet? (h : octet? cs = some n) : decimal n = cs := by
  obtain ⟨hread, hn⟩ := Option.ite_none_right_eq_some.1 h
  cases hn
  simp only [Bool.and_eq_true, Bool.or_eq_true, Bool.not_eq_true', beq_iff_eq, bne_iff_ne,
    decide_eq_true_iff, List.isEmpty_eq_false_iff] at hread
  obtain ⟨⟨⟨⟨hne, -⟩, hdigits⟩, hzero⟩, -⟩ := hread
  refine decimal_decimalNumber (List.all_eq_true.1 hdigits) hne fun hhead => ?_
  exact hzero.resolve_right fun hother => hother hhead

/-- **An address is printed as it was read.** -/
theorem showV4_of_readV4? (h : readV4? cs = some address) : showV4 address = cs := by
  obtain ⟨a, b, c, d, hfields, w, x, y, z, hw, hx, hy, hz, rfl⟩ := readV4?_eq_some_iff.1 h
  have hw' := octet?_bound hw
  have hx' := octet?_bound hx
  have hy' := octet?_bound hy
  have hz' := octet?_bound hz
  have hoctets : octets (ofOctets w x y z) = [w, x, y, z] := by
    simp only [octets, ofOctets, List.cons.injEq, and_true]
    refine ⟨?_, ?_, ?_, ?_⟩ <;> omega
  have hmap : [w, x, y, z].map decimal = [a, b, c, d] := by
    simp only [List.map_cons, List.map_nil, decimal_of_octet? hw, decimal_of_octet? hx,
      decimal_of_octet? hy, decimal_of_octet? hz]
  rw [showV4, hoctets, hmap, ← hfields, joinFields_fields]

end Spelling

/-- An IPv4 host with the full prefix length behind it is canonical. -/
theorem canonical_of_readV4? {source : String} {address : Nat}
    (h : readV4? source.toList = some address) : canonical source = source ++ "/32" := by
  have hshow : showV4 address = source.toList := showV4_of_readV4? h
  have hblank : ∀ c ∈ source.toList, isBlank c = false := by
    intro c hc
    exact isBlank_of_mem_showV4 (hshow ▸ hc)
  have hstrip : stripChars source.toList = source.toList :=
    trimBy_of_ends (fun c hc => hblank c (List.mem_of_head? hc))
      fun c hc => hblank c (List.mem_of_getLast? hc)
  have hslash : '/' ∉ source.toList := hshow ▸ slash_notMem_showV4 address
  have hread : Block.read? source.toList = some (.v4 address 32) := by
    have hbase : clearHost 32 32 address = address := by simp [clearHost]
    unfold Block.read?
    rw [fields_of_notMem hslash]
    simp [h, Block.ofV4, hbase]
  have hblock : block? source = some (.v4 address 32) := by rw [block?, hstrip, hread]
  have hchars : (Block.v4 address 32).show = source.toList ++ "/32".toList := by
    rw [Block.show, hshow]
    rfl
  rw [canonical_of_block? hblock, hchars, String.ofList_append, String.ofList_toList,
    String.ofList_toList]

/-- The text is a block of addresses. -/
def IsBlock (source : String) : Prop :=
  (Block.read? (stripChars source.toList)).isSome = true

instance (source : String) : Decidable (IsBlock source) :=
  inferInstanceAs (Decidable (_ = true))

/-- A block in text has a canonical text that says something. -/
theorem canonical_ne_empty {source : String} (h : IsBlock source) : canonical source ≠ "" := by
  obtain ⟨block, hblock⟩ := Option.isSome_iff_exists.1 h
  intro hempty
  have hslash : '/' ∈ block.show := by
    cases block with
    | v4 base length => exact List.mem_append_right _ List.mem_cons_self
    | v6 base scope length => exact List.mem_append_right _ List.mem_cons_self
  rw [canonical_of_block? hblock] at hempty
  have hnil : block.show = [] := by
    rw [← String.toList_ofList (l := block.show), hempty]
    rfl
  rw [hnil] at hslash
  cases hslash

end NodeLedger.Address
