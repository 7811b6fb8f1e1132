import Mathlib.Data.List.DropRight
import NodeLedger.Text.Blank
import NodeLedger.Text.Field

/-!
# Fields and tokens taken apart again

What joining puts together, cutting takes apart, as long as no field holds the separator. A trimmed
token has no blank at its ends, so trimming it again changes nothing.

- `fields_joinFields`: **joined fields are found again**.
- `notMem_of_mem_fields`, `mem_iff_exists_fields`: the characters of the fields of a line.
- `cutAt?_append_cons`, `cutAt?_of_notMem`: the first separator of a line.
- `trimBy_trimBy`, `trimBy_of_ends`: when trimming changes nothing.
- `exists_eq_append_trimBy`, `trimBy_append`: what stands around a trimmed token does not matter.
-/

namespace NodeLedger.Text

/-! ## Fields -/

section Joined

variable {α : Type} {sep : α}

theorem mem_joinFields_iff {fs : List (List α)} {c : α} (hc : c ≠ sep) :
    c ∈ joinFields [sep] fs ↔ ∃ f ∈ fs, c ∈ f := by
  induction fs with
  | nil => simp [joinFields]
  | cons f fs ih =>
    cases fs with
    | nil => simp [joinFields]
    | cons g gs => simp [joinFields, hc, ih]

theorem head?_joinFields {f : List α} (hf : f ≠ []) (seps : List α)
    (fs : List (List α)) : (joinFields seps (f :: fs)).head? = f.head? := by
  cases fs with
  | nil => rfl
  | cons g gs =>
    rw [joinFields, List.append_assoc, List.head?_append, List.head?_eq_some_head hf, Option.some_or]
    exact List.cons_ne_nil g gs

end Joined

section Fields

variable {α : Type} [DecidableEq α] {sep : α} {cs : List α}

theorem fields_of_notMem (h : sep ∉ cs) : fields sep cs = [cs] := by
  induction cs with
  | nil => rfl
  | cons c cs ih =>
    obtain ⟨hne, hrest⟩ := List.ne_and_not_mem_of_not_mem_cons h
    rw [fields, ih hrest]
    exact if_neg (Ne.symm hne)

theorem fields_append_cons (h : sep ∉ cs) (rest : List α) :
    fields sep (cs ++ sep :: rest) = cs :: fields sep rest := by
  induction cs with
  | nil =>
    rw [List.nil_append, fields]
    split
    · rename_i hnil
      exact absurd hnil (fields_ne_nil sep rest)
    · rename_i f fs heq
      rw [if_pos rfl, heq]
  | cons c cs ih =>
    obtain ⟨hne, hrest⟩ := List.ne_and_not_mem_of_not_mem_cons h
    rw [List.cons_append, fields, ih hrest]
    exact if_neg (Ne.symm hne)

/-- A separator ends the fields before it and starts the ones after it. -/
theorem fields_append_sep (sep : α) (cs rest : List α) :
    fields sep (cs ++ sep :: rest) = fields sep cs ++ fields sep rest := by
  induction cs with
  | nil => exact fields_append_cons List.not_mem_nil rest
  | cons c cs ih =>
    rw [List.cons_append, fields, fields, ih]
    cases hfields : fields sep cs with
    | nil => exact absurd hfields (fields_ne_nil sep cs)
    | cons f fs =>
      dsimp only [List.cons_append]
      by_cases hc : c = sep
      · rw [if_pos hc, if_pos hc]
        rfl
      · rw [if_neg hc, if_neg hc]
        rfl

/-- **Joined fields are found again** when none of them holds the separator. -/
theorem fields_joinFields {fs : List (List α)} (hne : fs ≠ []) (h : ∀ f ∈ fs, sep ∉ f) :
    fields sep (joinFields [sep] fs) = fs := by
  induction fs with
  | nil => exact absurd rfl hne
  | cons f fs ih =>
    have hf : sep ∉ f := h f List.mem_cons_self
    cases fs with
    | nil => exact fields_of_notMem hf
    | cons g gs =>
      have hrest := ih (List.cons_ne_nil g gs) fun f' hf' => h f' (List.mem_cons_of_mem f hf')
      rw [joinFields, List.append_assoc, List.singleton_append, fields_append_cons hf, hrest]
      exact List.cons_ne_nil g gs

theorem notMem_of_mem_fields {f : List α} (hf : f ∈ fields sep cs) : sep ∉ f := by
  induction cs generalizing f with
  | nil =>
    obtain rfl := List.mem_singleton.1 hf
    exact List.not_mem_nil
  | cons c cs ih =>
    rw [fields] at hf
    split at hf
    · rename_i hnil
      exact absurd hnil (fields_ne_nil sep cs)
    · rename_i g gs heq
      rw [heq] at ih
      split at hf
      · rcases List.mem_cons.1 hf with rfl | hf
        · exact List.not_mem_nil
        · exact ih hf
      · rename_i hne
        rcases List.mem_cons.1 hf with rfl | hf
        · exact List.not_mem_cons_of_ne_of_not_mem (Ne.symm hne) (ih List.mem_cons_self)
        · exact ih (List.mem_cons_of_mem g hf)

/-- The characters of a line other than the separator are those of its fields. -/
theorem mem_iff_exists_fields {c : α} (hc : c ≠ sep) :
    c ∈ cs ↔ ∃ f ∈ fields sep cs, c ∈ f := by
  rw [← mem_joinFields_iff hc, joinFields_fields]

theorem cutAt?_of_notMem (h : sep ∉ cs) : cutAt? sep cs = none := by
  induction cs with
  | nil => rfl
  | cons c cs ih =>
    obtain ⟨hne, hrest⟩ := List.ne_and_not_mem_of_not_mem_cons h
    rw [cutAt?, if_neg (Ne.symm hne), ih hrest]
    rfl

theorem cutAt?_append_cons (h : sep ∉ cs) (rest : List α) :
    cutAt? sep (cs ++ sep :: rest) = some (cs, rest) := by
  induction cs with
  | nil => exact if_pos rfl
  | cons c cs ih =>
    obtain ⟨hne, hrest⟩ := List.ne_and_not_mem_of_not_mem_cons h
    rw [List.cons_append, cutAt?, if_neg (Ne.symm hne), ih hrest]
    rfl

/-- Everything that a cut can give. -/
theorem eq_append_of_cutAt? {front back : List α} (h : cutAt? sep cs = some (front, back)) :
    cs = front ++ sep :: back := by
  induction cs generalizing front with
  | nil => cases h
  | cons c cs ih =>
    rw [cutAt?] at h
    split at h
    · rename_i heq
      cases h
      rw [heq, List.nil_append]
    · obtain ⟨⟨front', back'⟩, hcut, heq⟩ := Option.map_eq_some_iff.1 h
      cases heq
      rw [List.cons_append, ← ih hcut]

theorem notMem_of_cutAt? {front back : List α} (h : cutAt? sep cs = some (front, back)) :
    sep ∉ front := by
  induction cs generalizing front with
  | nil => cases h
  | cons c cs ih =>
    rw [cutAt?] at h
    split at h
    · cases h
      exact List.not_mem_nil
    · rename_i hne
      obtain ⟨⟨front', back'⟩, hcut, heq⟩ := Option.map_eq_some_iff.1 h
      cases heq
      exact List.not_mem_cons_of_ne_of_not_mem (Ne.symm hne) (ih hcut)

theorem notMem_of_cutAt?_eq_none (h : cutAt? sep cs = none) : sep ∉ cs := by
  induction cs with
  | nil => exact List.not_mem_nil
  | cons c cs ih =>
    rw [cutAt?] at h
    split at h
    · cases h
    · rename_i hne
      exact List.not_mem_cons_of_ne_of_not_mem (Ne.symm hne) (ih (Option.map_eq_none_iff.1 h))

end Fields

/-! ## Trimmed tokens -/

section Trim

variable {p : Char → Bool} {cs : List Char}

theorem trimBy_eq_rdropWhile (p : Char → Bool) (cs : List Char) :
    trimBy p cs = (cs.dropWhile p).rdropWhile p := rfl

/-- Trimming leaves alone what neither starts nor ends with a character to drop. -/
theorem trimBy_of_ends (hhead : ∀ c ∈ cs.head?, p c = false)
    (hlast : ∀ c ∈ cs.getLast?, p c = false) : trimBy p cs = cs := by
  have hdrop : cs.dropWhile p = cs := by
    cases cs with
    | nil => rfl
    | cons c cs => exact List.dropWhile_cons_of_neg (by rw [hhead c rfl]; exact Bool.false_ne_true)
  rw [trimBy_eq_rdropWhile, hdrop, List.rdropWhile_eq_self_iff]
  intro hne
  rw [hlast _ (List.getLast?_eq_some_getLast hne)]
  exact Bool.false_ne_true

/-- A trimmed token is trimmed. -/
@[simp] theorem trimBy_trimBy (p : Char → Bool) (cs : List Char) :
    trimBy p (trimBy p cs) = trimBy p cs := by
  refine trimBy_of_ends (fun c hc => ?_) (fun c hc => ?_)
  · -- The first character left is the first one that dropping at the front has left.
    obtain ⟨rest, hrest⟩ := List.rdropWhile_prefix p (cs.dropWhile p)
    have hne : cs.dropWhile p ≠ [] := by
      intro hnil
      rw [trimBy_eq_rdropWhile, hnil] at hc
      cases hc
    have hhead : (cs.dropWhile p).head? = some c := by
      rw [← hrest, List.head?_append]
      rw [trimBy_eq_rdropWhile, Option.mem_def] at hc
      rw [hc, Option.some_or]
    have hfirst := List.head?_dropWhile_not p cs
    rw [hhead] at hfirst
    simpa using hfirst
  · rw [trimBy_eq_rdropWhile, Option.mem_def] at hc
    have hne : (cs.dropWhile p).rdropWhile p ≠ [] := by
      intro hnil
      rw [hnil] at hc
      cases hc
    have hlast := List.rdropWhile_last_not p (cs.dropWhile p) hne
    rw [List.getLast?_eq_some_getLast hne] at hc
    cases hc
    exact Bool.eq_false_iff.2 hlast

theorem stripChars_stripChars (cs : List Char) : stripChars (stripChars cs) = stripChars cs :=
  trimBy_trimBy isBlank cs

theorem strip_strip (s : String) : strip (strip s) = strip s := by
  rw [strip, strip, String.toList_ofList, stripChars_stripChars]

/-- A trimmed token stands between characters to drop. -/
theorem exists_eq_append_trimBy (p : Char → Bool) (cs : List Char) :
    ∃ front back, cs = front ++ (trimBy p cs ++ back) ∧ (∀ c ∈ front, p c = true) ∧
      ∀ c ∈ back, p c = true := by
  refine ⟨cs.takeWhile p, (cs.dropWhile p).rtakeWhile p, ?_, fun c hc => ?_, fun c hc => ?_⟩
  · rw [trimBy_eq_rdropWhile, List.rdropWhile_append_rtakeWhile, List.takeWhile_append_dropWhile]
  · exact List.mem_takeWhile_imp hc
  · exact List.mem_rtakeWhile_imp hc

theorem mem_of_mem_trimBy {c : Char} (h : c ∈ trimBy p cs) : c ∈ cs := by
  obtain ⟨front, back, hcs, -, -⟩ := exists_eq_append_trimBy p cs
  rw [hcs]
  exact List.mem_append_right front (List.mem_append_left back h)

/-- Characters to drop do not matter around a token. -/
theorem trimBy_append {front token back : List Char} (hfront : ∀ c ∈ front, p c = true)
    (hback : ∀ c ∈ back, p c = true) :
    trimBy p (front ++ (token ++ back)) = trimBy p token := by
  have hend : ∀ inner : List Char, (inner ++ back).rdropWhile p = inner.rdropWhile p := by
    intro inner
    have hreverse : ∀ c ∈ back.reverse, p c = true := fun c hc => hback c (List.mem_reverse.1 hc)
    rw [List.rdropWhile, List.reverse_append, List.dropWhile_append_of_pos hreverse]
    rfl
  rw [trimBy_eq_rdropWhile, trimBy_eq_rdropWhile, List.dropWhile_append_of_pos hfront,
    List.dropWhile_append]
  split
  · rename_i hempty
    rw [List.isEmpty_iff.1 hempty, List.dropWhile_eq_nil_iff.2 hback]
  · exact hend _

end Trim

end NodeLedger.Text
