import NodeLedger.FileTree.Access
import NodeLedger.Proofs.Text.Fields

/-!
# Which paths a file can have

Whether a file can have a path is decided code point by code point, and the paths that are made of other
paths have no code points of their own but slashes. So the paths beside a file, and from the root, are
paths that a file can have if the path and the working directory are.

- `fault?_eq_none_iff`: **a file can have a path exactly if each of its code points may stand in one**.
- `mem_of_mem_absolute`: the code points of a path from the root.
- `fault?_join_iff`, `fault?_absolute`: the paths that are made of paths that a file can have.
-/

namespace NodeLedger

open Text

/-- The code point may stand in a path: it has bytes, and they are not that of code point zero. -/
def CodePoint.InPath : CodePoint → Prop
  | char c => c ≠ '\x00'
  | half number => (half number).byte?.isSome = true

namespace Path

variable {path directory : CodeText} {workDir : Location} {point : CodePoint}

theorem faultyHalves?_eq_none_iff {position : Nat} {points : List CodePoint} :
    faultyHalves? position points = none ↔
      ∀ number, .half number ∈ points → (CodePoint.half number).byte?.isSome = true := by
  induction points generalizing position with
  | nil => exact iff_of_true rfl fun _ h => absurd h List.not_mem_nil
  | cons point points ih =>
    cases point with
    | char c =>
      rw [faultyHalves?, ih]
      refine forall_congr' fun number => imp_congr_left ?_
      rw [List.mem_cons, or_iff_right (by exact fun heq => nomatch heq)]
    | half first =>
      rw [faultyHalves?]
      split
      · rename_i hbyte
        rw [ih]
        refine ⟨fun h number hnumber => ?_, fun h number hnumber => h number (List.mem_cons_of_mem _ hnumber)⟩
        rcases List.mem_cons.1 hnumber with heq | hnumber
        · cases heq
          exact hbyte
        · exact h number hnumber
      · rename_i hbyte
        exact iff_of_false (fun h => nomatch h) fun h => hbyte (h first List.mem_cons_self)

/-- **A file can have a path** exactly if each of its code points may stand in one. -/
theorem fault?_eq_none_iff : fault? path = none ↔ ∀ point ∈ path.points, point.InPath := by
  have hpoints : (∀ point ∈ path.points, point.InPath) ↔
      (∀ number, .half number ∈ path.points → (CodePoint.half number).byte?.isSome = true) ∧
        .char '\x00' ∉ path.points := by
    constructor
    · exact fun h => ⟨fun number => h _, fun hmem => h _ hmem rfl⟩
    · rintro ⟨hhalves, hnul⟩ (c | number) hmem
      · rintro rfl
        exact hnul hmem
      · exact hhalves number hmem
  rw [hpoints, ← @faultyHalves?_eq_none_iff 0, fault?]
  cases faultyHalves? 0 path.points with
  | some fault => exact iff_of_false (fun h => nomatch h) fun h => nomatch h.1
  | none =>
    rw [and_iff_right rfl, ← List.contains_iff_mem]
    dsimp only
    split
    · rename_i hnul
      exact iff_of_false (fun h => nomatch h) fun h => h hnul
    · rename_i hnul
      exact iff_of_true rfl hnul

/-! ## The code points of a path -/

theorem mem_of_mem_parent (h : point ∈ (parent path).points) : point ∈ path.points := by
  rw [parent, List.mem_reverse] at h
  split at h
  · exact List.mem_reverse.1 (List.dropWhile_subset _ h)
  · exact List.mem_reverse.1 (List.dropWhile_subset _ (List.dropWhile_subset _ h))

theorem mem_of_mem_join (h : point ∈ (join directory path).points) :
    point ∈ directory.points ∨ point = .char '/' ∨ point ∈ path.points := by
  unfold join at h
  split at h
  · exact .inr (.inr h)
  split at h
  · rw [CodeText.points_append, List.mem_append] at h
    exact h.imp_right .inr
  · rw [CodeText.points_append, CodeText.points_append, List.mem_append, List.mem_append] at h
    rcases h with (h | h) | h
    · exact .inl h
    · exact .inr (.inl (List.mem_singleton.1 h))
    · exact .inr (.inr h)

theorem mem_join_of_mem (h : point ∈ path.points) : point ∈ (join directory path).points := by
  unfold join
  split
  · exact h
  split
  · exact List.mem_append_right _ h
  · exact List.mem_append_right _ h

theorem mem_of_mem_names {name : CodeText} (hname : name ∈ names path) (h : point ∈ name.points) :
    point = .char '/' ∨ point ∈ path.points := by
  obtain ⟨field, hfield, rfl⟩ := List.mem_map.1 hname
  by_cases hpoint : point = .char '/'
  · exact .inl hpoint
  · exact .inr ((mem_iff_exists_fields hpoint).2 ⟨field, (List.mem_filter.1 hfield).1, h⟩)

theorem mem_of_mem_foldl_step {name : CodeText} {above rest : List CodeText}
    (h : name ∈ rest.foldl step above) : name ∈ above ∨ name ∈ rest := by
  induction rest generalizing above with
  | nil => exact .inl h
  | cons first rest ih =>
    rcases ih h with h | h
    · unfold step at h
      split at h
      · exact .inl h
      split at h
      · exact .inl (List.dropLast_subset above h)
      · exact (List.mem_append.1 h).imp_right fun hfirst =>
          List.mem_cons.2 (.inl (List.mem_singleton.1 hfirst))
    · exact .inr (List.mem_cons_of_mem first h)

theorem mem_of_mem_joined {names : List CodeText} (h : point ∈ (CodeText.join "/" names).points) :
    point = .char '/' ∨ ∃ name ∈ names, point ∈ name.points := by
  induction names with
  | nil => cases h
  | cons first rest ih =>
    cases rest with
    | nil => exact .inr ⟨first, List.mem_cons_self, h⟩
    | cons second rest =>
      rw [CodeText.join, CodeText.points_append, CodeText.points_append, List.mem_append,
        List.mem_append] at h
      · rcases h with (h | h) | h
        · exact .inr ⟨first, List.mem_cons_self, h⟩
        · exact .inl (List.mem_singleton.1 h)
        · exact (ih h).imp_right fun ⟨name, hname, hmem⟩ => ⟨name, List.mem_cons_of_mem first hname, hmem⟩
      · exact fun heq => nomatch heq

/-- A path from the root has the code points of the working directory, those of the path, and
slashes. -/
theorem mem_of_mem_absolute (h : point ∈ (absolute workDir path).points) :
    point ∈ workDir.path.points ∨ point = .char '/' ∨ point ∈ path.points := by
  rw [absolute, CodeText.points_append, List.mem_append] at h
  rcases h with h | h
  · refine .inr (.inl ?_)
    unfold root at h
    dsimp only at h
    split at h
    · cases h
    split at h
    · simpa using h
    · simpa using h
  · rcases mem_of_mem_joined h with h | ⟨name, hname, h⟩
    · exact .inr (.inl h)
    · have hnames := (mem_of_mem_foldl_step hname).resolve_left List.not_mem_nil
      exact (mem_of_mem_names hnames h).elim (fun h => .inr (.inl h)) mem_of_mem_join

/-! ## Paths made of paths -/

theorem inPath_slash : (CodePoint.char '/').InPath := by
  show '/' ≠ '\x00'
  decide

theorem fault?_parent (h : fault? path = none) : fault? (parent path) = none :=
  fault?_eq_none_iff.2 fun point hmem => fault?_eq_none_iff.1 h point (mem_of_mem_parent hmem)

theorem fault?_of_join (h : fault? (join directory path) = none) : fault? path = none :=
  fault?_eq_none_iff.2 fun point hmem => fault?_eq_none_iff.1 h point (mem_join_of_mem hmem)

theorem fault?_join_iff (hdirectory : fault? directory = none) :
    fault? (join directory path) = none ↔ fault? path = none := by
  refine ⟨fault?_of_join, fun h => fault?_eq_none_iff.2 fun point hmem => ?_⟩
  rcases mem_of_mem_join hmem with hmem | rfl | hmem
  · exact fault?_eq_none_iff.1 hdirectory point hmem
  · exact inPath_slash
  · exact fault?_eq_none_iff.1 h point hmem

theorem fault?_absolute (hworkDir : fault? workDir.path = none) (hpath : fault? path = none) :
    fault? (absolute workDir path) = none := by
  refine fault?_eq_none_iff.2 fun point hmem => ?_
  rcases mem_of_mem_absolute hmem with hmem | rfl | hmem
  · exact fault?_eq_none_iff.1 hworkDir point hmem
  · exact inPath_slash
  · exact fault?_eq_none_iff.1 hpath point hmem

end Path

end NodeLedger
