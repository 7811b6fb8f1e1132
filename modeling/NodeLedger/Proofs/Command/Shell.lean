import NodeLedger.Command.Terminal
import NodeLedger.Proofs.Text.Visible

/-!
# Running a shell

A shell ends well, with an exit status, or with a fault that nothing expects. What it has written
until then is written.

- `Shell.runOn`: the outcome of a shell, with the terminal and the host after it.
- `Shell.runOn_bind_of_ok`, `Shell.runOn_bind_of_error`: one shell after another.
- `Shell.runOn_attempt_of_ok`, `Shell.runOn_attempt_of_error`: **a fault of a job is reported, or it
  ends the program**.
- `Shell.exists_runOn_lines`: **lines are written as long as they hold no half**; the first half ends
  the program.
-/

namespace NodeLedger

/-- The terminal after a report. -/
def Terminal.complained (terminal : Terminal) (text : CodeText) : Terminal :=
  { terminal with errors := terminal.errors ++ text.visible.shown ++ "\n" }

namespace Shell

variable {σ α β : Type}

/-- The outcome of a shell, with the terminal and the host after it. -/
def runOn (shell : Shell σ α) (terminal : Terminal) (host : Host σ) :
    Except Ending α × Terminal × Host σ :=
  Id.run (StateT.run (ExceptT.run shell) (terminal, host))

section Steps

variable {shell : Shell σ α} {job : Job σ α} {terminal later : Terminal} {host after : Host σ}

/-- After a shell that ends well, the next one runs. -/
theorem runOn_bind_of_ok {a : α} (h : shell.runOn terminal host = (.ok a, later, after))
    (next : α → Shell σ β) : (shell >>= next).runOn terminal host = (next a).runOn later after := by
  unfold runOn at h ⊢
  rw [ExceptT.run_bind, StateT.run_bind, Id.run_bind, h]

/-- After an early end, the next shell does not run. -/
theorem runOn_bind_of_error {ending : Ending}
    (h : shell.runOn terminal host = (.error ending, later, after)) (next : α → Shell σ β) :
    (shell >>= next).runOn terminal host = (.error ending, later, after) := by
  unfold runOn at h ⊢
  rw [ExceptT.run_bind, StateT.run_bind, Id.run_bind, h]
  rfl

@[simp] theorem runOn_pure (a : α) (terminal : Terminal) (host : Host σ) :
    (pure a : Shell σ α).runOn terminal host = (.ok a, terminal, host) := rfl

theorem runOn_get (terminal : Terminal) (host : Host σ) :
    (get : Shell σ (Terminal × Host σ)).runOn terminal host = (.ok (terminal, host), terminal, host) :=
  rfl

theorem runOn_perform (job : Job σ α) (terminal : Terminal) (host : Host σ) :
    (perform job).runOn terminal host
      = (.ok (job.runOn host).1, terminal, (job.runOn host).2) := rfl

/-- A job that ends well is done. -/
theorem runOn_attempt_of_ok {a : α} (h : job.runOn host = (.ok a, after)) (terminal : Terminal) :
    (attempt job).runOn terminal host = (.ok a, terminal, after) := by
  rw [attempt, runOn_bind_of_ok (runOn_perform job terminal host), h]
  rfl

/-- **A fault of a job** is reported if it is expected; any other ends the program. -/
theorem runOn_attempt_of_error {fault : Fault} (h : job.runOn host = (.error fault, after))
    (terminal : Terminal) :
    (attempt job).runOn terminal host =
      if fault.isOf .expected = true then
        (.error (.exit 1), terminal.complained ("❌ " ++ fault.message), after)
      else (.error (.crash fault), terminal, after) := by
  rw [attempt, runOn_bind_of_ok (runOn_perform job terminal host), h]
  show (giveUp fault : Shell σ α).runOn terminal after = _
  unfold giveUp
  split <;> rfl

end Steps

/-! ## Lines -/

section Lines

variable {text : CodeText} {lines : List CodeText}

theorem exists_runOn_writeLine (h : ¬ text.HasHalf) (terminal : Terminal) (host : Host σ) :
    ∃ later, (writeLine text).runOn terminal host = (.ok (), later, host) := by
  have hproper := CodeText.isOk_proper_iff.2 (mt CodeText.hasHalf_visible_iff.1 h)
  unfold writeLine
  cases hline : text.visible.proper with
  | error fault =>
    rw [hline] at hproper
    cases hproper
  | ok line => exact ⟨_, rfl⟩

theorem exists_runOn_writeLine_of_hasHalf (h : text.HasHalf) (terminal : Terminal)
    (host : Host σ) :
    ∃ fault, (writeLine text).runOn terminal host = (.error (.crash (.halves fault)), terminal, host) := by
  have hproper : text.visible.proper.isOk ≠ true := fun hok =>
    CodeText.isOk_proper_iff.1 hok (CodeText.hasHalf_visible_iff.2 h)
  unfold writeLine
  cases hline : text.visible.proper with
  | error fault => exact ⟨fault, rfl⟩
  | ok line =>
    rw [hline] at hproper
    exact absurd rfl hproper

/-- **Lines are written as long as they hold no half**; the first half ends the program. -/
theorem exists_runOn_lines (lines : List CodeText) (terminal : Terminal) (host : Host σ) :
    ((∀ line ∈ lines, ¬ line.HasHalf) ∧
        ∃ later, (lines.forM writeLine).runOn terminal host = (.ok (), later, host)) ∨
      (∃ line ∈ lines, line.HasHalf) ∧ ∃ fault later,
        (lines.forM writeLine).runOn terminal host = (.error (.crash (.halves fault)), later, host) := by
  induction lines generalizing terminal with
  | nil => exact .inl ⟨List.forall_mem_nil _, terminal, rfl⟩
  | cons line lines ih =>
    have hcons : (line :: lines).forM (writeLine (σ := σ))
        = (writeLine line >>= fun _ => lines.forM writeLine) := rfl
    rw [hcons]
    -- The first line with a half is the last one that is tried.
    by_cases hline : line.HasHalf
    · obtain ⟨fault, hrun⟩ := exists_runOn_writeLine_of_hasHalf hline terminal host
      exact .inr ⟨⟨line, List.mem_cons_self, hline⟩, fault, terminal, runOn_bind_of_error hrun _⟩
    · obtain ⟨middle, hrun⟩ := exists_runOn_writeLine hline terminal host
      rw [runOn_bind_of_ok hrun]
      rcases ih middle with ⟨hlines, hrest⟩ | ⟨⟨other, hmem, hother⟩, hrest⟩
      · exact .inl ⟨List.forall_mem_cons.2 ⟨hline, hlines⟩, hrest⟩
      · exact .inr ⟨⟨other, List.mem_cons_of_mem _ hmem, hother⟩, hrest⟩

end Lines

end Shell

end NodeLedger
