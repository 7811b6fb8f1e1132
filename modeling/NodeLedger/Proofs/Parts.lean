import NodeLedger.Cloud.Provider
import NodeLedger.Provisioning

/-!
# What a job leaves alone

A host has three parts, and most jobs have to do with some of them only: requests and messages leave
the files alone, and work on the files asks nothing of the outside world. What each step of a job
leaves alone, the whole job does, however it ends.

- `Job.Keeps`: the job leaves a part of the host as it was.
- `Job.keeps_bind`, `Job.keeps_handling`: **a job keeps what its steps keep**.
- `Job.Maintains`: the job leaves true what is true of the outside world. Only requests matter for it.
- `Job.keepsFiles_ask`, `Job.keepsFiles_log`, `Job.keepsOutside_onFiles`, `Job.keepsOutside_log`: single
  steps.
-/

namespace NodeLedger

open Cloud

namespace Provisioning

section Handling

variable {σ α : Type} {family : FaultClass} {job : Job σ α} {handler : Fault → Job σ α}
  {host after : Host σ}

/-- A job whose faults are handled ends as the job does, or as the handler of its fault. -/
theorem runOn_handling (family : FaultClass) (job : Job σ α) (handler : Fault → Job σ α)
    (host : Host σ) :
    (handling family job handler).runOn host = match job.runOn host with
      | (.ok a, after) => (.ok a, after)
      | (.error fault, after) =>
        if fault.isOf family then (handler fault).runOn after else (.error fault, after) := by
  unfold handling Job.runOn
  simp only [ExceptT.run_tryCatch, StateT.run_bind]
  generalize (StateT.run (ExceptT.run job) host : Except Fault α × Host σ) = outcome
  obtain ⟨result, after⟩ := outcome
  cases result with
  | ok a => rfl
  | error fault =>
    dsimp only
    by_cases hfamily : fault.isOf family = true
    · rw [if_pos hfamily]
      show StateT.run (ExceptT.run (if _ then _ else _)) after = _
      rw [if_pos hfamily]
    · rw [if_neg hfamily]
      show StateT.run (ExceptT.run (if _ then _ else _)) after = _
      rw [if_neg hfamily]
      rfl

end Handling

end Provisioning

namespace Job

variable {σ α β γ : Type}

/-- However the job ends, a part of the host is as it was. -/
def Keeps (part : Host σ → γ) (job : Job σ α) : Prop :=
  ∀ host, part (job.runOn host).2 = part host

theorem Keeps.eq {part : Host σ → γ} {job : Job σ α} (h : job.Keeps part) {host after : Host σ}
    {outcome : Except Fault α} (hrun : job.runOn host = (outcome, after)) : part after = part host := by
  have hpart := h host
  rwa [hrun] at hpart

/-! ## Steps one after the other -/

section Steps

variable {part : Host σ → γ}

theorem keeps_pure (a : α) : (pure a : Job σ α).Keeps part :=
  fun _ => rfl

theorem keeps_throw (fault : Fault) : (throw fault : Job σ α).Keeps part :=
  fun _ => rfl

theorem keeps_ofExcept (result : Except Fault α) : (ofExcept result : Job σ α).Keeps part :=
  fun _ => rfl

theorem keeps_files : (files : Job σ FileTree).Keeps part :=
  fun _ => rfl

/-- **A sequence keeps what both of its jobs keep.** -/
theorem keeps_bind {job : Job σ α} {next : α → Job σ β} (hjob : job.Keeps part)
    (hnext : ∀ a, (next a).Keeps part) : (job >>= next).Keeps part := by
  intro host
  rw [runOn_bind]
  have hfirst := hjob host
  cases hrun : job.runOn host with
  | mk outcome middle =>
    rw [hrun] at hfirst
    cases outcome with
    | error fault => exact hfirst
    | ok a => exact (hnext a middle).trans hfirst

theorem keeps_ite {condition : Prop} [Decidable condition] {job other : Job σ α}
    (hjob : job.Keeps part) (hother : other.Keeps part) :
    (if condition then job else other).Keeps part := by
  split
  · exact hjob
  · exact hother

theorem keeps_forM {job : β → Job σ PUnit} (h : ∀ b, (job b).Keeps part) (items : List β) :
    (items.forM job).Keeps part := by
  induction items with
  | nil => exact keeps_pure _
  | cons item items ih => exact keeps_bind (h item) fun _ => ih

/-- A job whose faults are handled keeps what the job and the handler keep. -/
theorem keeps_handling {family : FaultClass} {job : Job σ α} {handler : Fault → Job σ α}
    (hjob : job.Keeps part) (hhandler : ∀ fault, (handler fault).Keeps part) :
    (Provisioning.handling family job handler).Keeps part := by
  intro host
  rw [Provisioning.runOn_handling]
  have hfirst := hjob host
  cases hrun : job.runOn host with
  | mk outcome middle =>
    rw [hrun] at hfirst
    cases outcome with
    | ok a => exact hfirst
    | error fault =>
      dsimp only
      split
      · exact (hhandler fault middle).trans hfirst
      · exact hfirst

end Steps

/-! ## Single steps -/

section Single

theorem keepsFiles_log (level : LogLevel) (message : CodeText) :
    (log level message : Job σ Unit).Keeps (·.files) :=
  fun _ => rfl

theorem keepsFiles_ask (request : Ask σ α) :
    (ask request : Job σ (Except OutsideFault α)).Keeps (·.files) :=
  fun _ => rfl

theorem keepsOutside_log (level : LogLevel) (message : CodeText) :
    (log level message : Job σ Unit).Keeps (·.outside) :=
  fun _ => rfl

theorem keepsOutside_onFiles (change : FileTree → Except Fault α × FileTree) :
    (onFiles change : Job σ α).Keeps (·.outside) :=
  fun _ => rfl

/-- A request leaves the files alone; so does the job, if it does after an answer and after a
failure. -/
theorem keepsFiles_ask_bind {request : Ask σ α} {next : Except OutsideFault α → Job σ β}
    (hok : ∀ a, (next (.ok a)).Keeps (·.files)) (herror : ∀ fault, (next (.error fault)).Keeps (·.files)) :
    (ask request >>= next).Keeps (·.files) := by
  refine keeps_bind (keepsFiles_ask request) fun answer => ?_
  cases answer with
  | ok a => exact hok a
  | error fault => exact herror fault

theorem keepsFiles_demand (request : Ask σ α) : (demand request).Keeps (·.files) :=
  keepsFiles_ask_bind keeps_pure fun _ => keeps_throw _

theorem keepsFiles_expecting (isExpected : OutsideFault → Bool)
    (explain : OutsideFault → ProviderFault) (request : Ask σ α) :
    (expecting isExpected explain request).Keeps (·.files) :=
  keepsFiles_ask_bind keeps_pure fun _ => keeps_throw _

end Single

/-! ## What stays true of the outside world -/

/-- However the job ends, what was true of the outside world is still true of it. -/
def Maintains (inv : σ → Prop) (job : Job σ α) : Prop :=
  ∀ host, inv host.outside → inv (job.runOn host).2.outside

section Maintains

variable {inv : σ → Prop}

/-- A job that asks nothing of the outside world maintains everything. -/
theorem Keeps.maintains {job : Job σ α} (h : job.Keeps (·.outside)) : job.Maintains inv := by
  intro host hinv
  have hsame : (job.runOn host).2.outside = host.outside := h host
  rwa [hsame]

/-- **A sequence maintains what both of its jobs maintain.** -/
theorem maintains_bind {job : Job σ α} {next : α → Job σ β} (hjob : job.Maintains inv)
    (hnext : ∀ a, (next a).Maintains inv) : (job >>= next).Maintains inv := by
  intro host hinv
  rw [runOn_bind]
  have hfirst := hjob host hinv
  cases hrun : job.runOn host with
  | mk outcome middle =>
    rw [hrun] at hfirst
    cases outcome with
    | error fault => exact hfirst
    | ok a => exact hnext a middle hfirst

theorem maintains_ite {condition : Prop} [Decidable condition] {job other : Job σ α}
    (hjob : job.Maintains inv) (hother : other.Maintains inv) :
    (if condition then job else other).Maintains inv := by
  split
  · exact hjob
  · exact hother

theorem maintains_handling {family : FaultClass} {job : Job σ α} {handler : Fault → Job σ α}
    (hjob : job.Maintains inv) (hhandler : ∀ fault, (handler fault).Maintains inv) :
    (Provisioning.handling family job handler).Maintains inv := by
  intro host hinv
  rw [Provisioning.runOn_handling]
  have hfirst := hjob host hinv
  cases hrun : job.runOn host with
  | mk outcome middle =>
    rw [hrun] at hfirst
    cases outcome with
    | ok a => exact hfirst
    | error fault =>
      dsimp only
      split
      · exact hhandler fault middle hfirst
      · exact hfirst

/-- A request decides whether the job maintains something, if what follows does. -/
theorem maintains_ask_bind {request : Ask σ α} {next : Except OutsideFault α → Job σ β}
    (hrequest : ∀ state, inv state → inv (request state).2) (hok : ∀ a, (next (.ok a)).Maintains inv)
    (herror : ∀ fault, (next (.error fault)).Maintains inv) :
    (ask request >>= next).Maintains inv := by
  refine maintains_bind (fun host hinv => hrequest _ hinv) fun answer => ?_
  cases answer with
  | ok a => exact hok a
  | error fault => exact herror fault

end Maintains

end Job

end NodeLedger
