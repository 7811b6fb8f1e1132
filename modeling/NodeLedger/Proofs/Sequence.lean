import NodeLedger.Job

/-!
# Steps one after the other

A sequence that ends well is made of steps that end well; a sequence that does not ends with the
first fault. These lemmas take a sequence apart into its steps.

- `exists_of_bind_eq_ok`, `bind_eq_error_iff`, `exists_of_map_eq_ok`, `eq_ok_of_mapError_eq_ok`:
  results.
- `Job.runOn_bind_of_ok`, `Job.runOn_bind_of_error`, `Job.cases_of_runOn_bind`: jobs.
-/

namespace NodeLedger

section Results

variable {ε α β : Type} {b : β}

/-- A sequence ends well if both of its steps do. -/
theorem exists_of_bind_eq_ok {result : Except ε α} {next : α → Except ε β}
    (h : (result >>= next) = .ok b) :
    ∃ a, result = .ok a ∧ next a = .ok b := by
  cases result with
  | error fault => cases h
  | ok a => exact ⟨a, rfl, h⟩

/-- A sequence ends with a fault if one of its steps does. -/
theorem bind_eq_error_iff {result : Except ε α} {next : α → Except ε β} {fault : ε} :
    (result >>= next) = .error fault ↔
      result = .error fault ∨ ∃ a, result = .ok a ∧ next a = .error fault := by
  cases result with
  | error other =>
    refine ⟨fun h => .inl (congrArg Except.error (Except.error.inj h)), ?_⟩
    rintro (h | ⟨a, ⟨⟩, -⟩)
    exact congrArg Except.error (Except.error.inj h)
  | ok a =>
    refine ⟨fun h => .inr ⟨a, rfl, h⟩, ?_⟩
    rintro (⟨⟨⟩⟩ | ⟨_, ⟨⟩, h⟩)
    exact h

theorem exists_of_isOk {result : Except ε α} (h : result.isOk = true) : ∃ a, result = .ok a := by
  cases result with
  | error fault => cases h
  | ok a => exact ⟨a, rfl⟩

theorem exists_of_map_eq_ok {result : Except ε α} {f : α → β} (h : result.map f = .ok b) :
    ∃ a, result = .ok a ∧ f a = b := by
  cases result with
  | error fault => cases h
  | ok a => exact ⟨a, rfl, Except.ok.inj h⟩

/-- Only a fault is worded anew. -/
theorem eq_ok_of_mapError_eq_ok {result : Except ε β} {f : ε → α}
    (h : result.mapError f = .ok b) : result = .ok b := by
  cases result with
  | error fault => cases h
  | ok a => exact congrArg Except.ok (Except.ok.inj h)

end Results

namespace Job

variable {σ α β : Type} {job : Job σ α} {host after : Host σ}

/-- After a job that ends well, the next one runs. -/
theorem runOn_bind_of_ok {a : α} (h : job.runOn host = (.ok a, after)) (next : α → Job σ β) :
    (job >>= next).runOn host = (next a).runOn after := by
  rw [runOn_bind, h]

/-- After a fault, the next job does not run. -/
theorem runOn_bind_of_error {fault : Fault} (h : job.runOn host = (.error fault, after))
    (next : α → Job σ β) : (job >>= next).runOn host = (.error fault, after) := by
  rw [runOn_bind, h]

theorem runOn_ofExcept_of_eq {result outcome : Except Fault α} (h : result = outcome)
    (host : Host σ) : (ofExcept result : Job σ α).runOn host = (outcome, host) := by
  rw [runOn_ofExcept, h]

theorem runOn_onFiles_of_eq {change : FileTree → Except Fault α × FileTree}
    {outcome : Except Fault α} {files : FileTree} (h : change host.files = (outcome, files)) :
    (onFiles change : Job σ α).runOn host = (outcome, { host with files := files }) := by
  rw [runOn_onFiles, h]

/-- A sequence of jobs ends with the first fault, or as the second job does. -/
theorem cases_of_runOn_bind {next : α → Job σ β} {outcome : Except Fault β}
    (h : (job >>= next).runOn host = (outcome, after)) :
    (∃ fault, job.runOn host = (.error fault, after) ∧ outcome = .error fault) ∨
      ∃ a middle, job.runOn host = (.ok a, middle) ∧ (next a).runOn middle = (outcome, after) := by
  rw [runOn_bind] at h
  cases hjob : job.runOn host with
  | mk result middle =>
    rw [hjob] at h
    cases result with
    | ok a => exact .inr ⟨a, middle, rfl, h⟩
    | error fault =>
      cases h
      exact .inl ⟨fault, rfl, rfl⟩

end Job

end NodeLedger
