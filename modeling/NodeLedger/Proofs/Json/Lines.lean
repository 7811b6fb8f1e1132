import NodeLedger.Proofs.Json.Document
import NodeLedger.Text.ControlSequence

/-!
# JSON documents in lines

A document in lines is printable ASCII and line ends. So it is read back from a file, whether or not a
line end was put behind it, and a terminal shows it as it is.

- `toList_indentedAt`: a document in lines is a value in a layout, whose blanks are line ends and
  indentation.
- `readBytes_indented`: **a document in lines is read back from its bytes**.
- `visible_indented`: **nothing is taken out of a document that is shown**.
-/

namespace NodeLedger.Json

open Text

/-- Items and members on lines of their own, two blanks deeper than their container. -/
def Layout.lines : Layout where
  gap depth := '\n' :: List.replicate (2 * depth) ' '
  colon := [' ']
  isSpace_gap depth := List.forall_mem_cons.2
    ⟨rfl, fun c hc => by rw [List.eq_of_mem_replicate hc]; rfl⟩
  isSpace_colon := List.forall_mem_singleton.2 rfl

theorem toList_newLine (depth : Nat) : (newLine depth).toList = Layout.lines.gap depth := by
  simp [newLine, Layout.lines]

theorem indentedItems_cons_cons (depth : Nat) (item item' : Json) (items : List Json) :
    indentedItems depth (item :: item' :: items)
      = newLine depth ++ indentedAt depth item ++ "," ++ indentedItems depth (item' :: items) := by
  rw [indentedItems]
  exact List.cons_ne_nil item' items

theorem indentedMembers_cons_cons (depth : Nat) (name : CodeText) (value : Json)
    (member : CodeText × Json) (members : List (CodeText × Json)) :
    indentedMembers depth ((name, value) :: member :: members)
      = newLine depth ++ showString name ++ ": " ++ indentedAt depth value ++ ","
          ++ indentedMembers depth (member :: members) := by
  rw [indentedMembers]
  exact List.cons_ne_nil member members

mutual

/-- A document in lines is a value in a layout. -/
theorem toList_indentedAt (depth : Nat) :
    (value : Json) → (indentedAt depth value).toList = spell .lines depth value
  | null => rfl
  | bool _ => rfl
  | int _ => rfl
  | float _ => rfl
  | str _ => rfl
  | arr [] => by
    rw [indentedAt, spell]
    rfl
  | arr (item :: items) => by
    rw [indentedAt, String.toList_append, String.toList_append, String.toList_append,
      toList_indentedItems (depth + 1), toList_newLine, spell_arr_cons]
    · simp
    · exact List.cons_ne_nil item items
  | obj [] => by
    rw [indentedAt, spell]
    rfl
  | obj (member :: members) => by
    rw [indentedAt, String.toList_append, String.toList_append, String.toList_append,
      toList_indentedMembers (depth + 1), toList_newLine, spell_obj_cons]
    · simp
    · exact List.cons_ne_nil member members

theorem toList_indentedItems (depth : Nat) :
    (items : List Json) → (indentedItems depth items).toList = spellItems .lines depth items
  | [] => rfl
  | [item] => by
    rw [indentedItems, String.toList_append, toList_newLine, toList_indentedAt depth item, spellItems]
  | item :: item' :: items => by
    rw [indentedItems_cons_cons, String.toList_append, String.toList_append, String.toList_append,
      toList_newLine, toList_indentedAt depth item, toList_indentedItems depth (item' :: items),
      spellItems_cons_cons]
    simp

theorem toList_indentedMembers (depth : Nat) :
    (members : List (CodeText × Json)) →
      (indentedMembers depth members).toList = spellMembers .lines depth members
  | [] => rfl
  | [(name, value)] => by
    rw [indentedMembers, String.toList_append, String.toList_append, String.toList_append,
      toList_newLine, toList_indentedAt depth value, spellMembers]
    simp [Layout.lines]
  | (name, value) :: member :: members => by
    rw [indentedMembers_cons_cons, String.toList_append, String.toList_append, String.toList_append,
      String.toList_append, String.toList_append, toList_newLine, toList_indentedAt depth value,
      toList_indentedMembers depth (member :: members), spellMembers_cons_cons]
    simp [Layout.lines]

end

section Documents

variable {value : Json}

theorem toList_indented (value : Json) : value.indented.toList = spell .lines 0 value :=
  toList_indentedAt 0 value

/-- The characters of a document in lines are printable ASCII, line ends and blanks. -/
theorem forall_mem_indented {P : Char → Prop} (hprintable : ∀ c, Printable c → P c) (hline : P '\n')
    (value : Json) : ∀ c ∈ value.indented.toList, P c := by
  have hblank : P ' ' := hprintable ' ' ⟨by decide, by decide⟩
  rw [toList_indented]
  refine forall_mem_spell hprintable (fun depth => ?_) ?_ 0 value
  · exact List.forall_mem_cons.2 ⟨hline, fun c hc => by rwa [List.eq_of_mem_replicate hc]⟩
  · exact List.forall_mem_singleton.2 hblank

/-- **A document in lines is read back from its bytes**, with line ends after it or none. -/
theorem readBytes_indented [Nesting] (h : Readable Nesting.limit value) {ends : List Char}
    (hends : ∀ c ∈ ends, c = '\n') :
    readBytes (encode (value.indented.toList ++ ends)) = .ok value := by
  have hreturn : '\r' ∉ value.indented.toList ++ ends := by
    intro hmem
    rcases List.mem_append.1 hmem with hmem | hmem
    · refine forall_mem_indented (P := fun c => c ≠ '\r') ?_ (by decide) value '\r' hmem rfl
      rintro c hc rfl
      exact absurd hc.1 (by decide)
    · exact absurd (hends '\r' hmem) (by decide)
  have hspace : ∀ c ∈ ends, isSpace c = true := fun c hc => by
    rw [hends c hc]
    rfl
  rw [readBytes, decode_encode]
  show (read (unifyNewlines (value.indented.toList ++ ends))).mapError DocumentFault.text = .ok value
  rw [unifyNewlines_of_notMem hreturn, toList_indented, read_spell _ h 0 hspace]
  rfl

/-- **Nothing is taken out of a document that is shown**: no control sequence starts in it. -/
theorem visible_indented (value : Json) :
    (CodeText.ofString value.indented).visible = CodeText.ofString value.indented := by
  refine CodeText.visible_eq_self fun hmem => ?_
  obtain ⟨c, hc, hescape⟩ := List.mem_map.1 hmem
  refine forall_mem_indented (P := fun c => c ≠ '\x1b') ?_ (by decide) value c hc ?_
  · rintro c hprintable rfl
    exact absurd hprintable.1 (by decide)
  · exact CodePoint.char.inj hescape

end Documents

end NodeLedger.Json
