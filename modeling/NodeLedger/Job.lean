import NodeLedger.Fault

/-!
# Jobs

A job works on a host: it reads and changes files, logs messages, and asks an outside world. A fault
ends a job; what the job has done to the host until then stays done.

- `Host`: the files, the messages logged so far, and the outside world.
- `Job`: a computation on a host.
- `Job.onFiles`, `Job.log`, `Job.ask`: the three things that a job can do. Each leaves the other two
  parts of the host alone.
-/

namespace NodeLedger

open Cloud

/-- A message in the log. -/
structure LogRecord where
  level : LogLevel
  message : CodeText
  deriving Repr, DecidableEq

/-- What a job works on; `σ` is the state of the outside world. -/
structure Host (σ : Type) where
  files : FileTree
  log : List LogRecord
  outside : σ

/-- A computation on a host, which a fault may end. -/
abbrev Job (σ α : Type) : Type := ExceptT Fault (StateM (Host σ)) α

namespace Job

variable {σ α : Type}

/-- The outcome of a job, and the host after it. -/
def runOn (job : Job σ α) (host : Host σ) : Except Fault α × Host σ :=
  StateT.run (ExceptT.run job) host

/-- The files as they are. -/
def files : Job σ FileTree := do
  return (← get).files

/-- A result that may be a fault. -/
def ofExcept (result : Except Fault α) : Job σ α :=
  ExceptT.mk (pure result)

/-- Change the files; they may have changed even if the change ends in a fault. -/
def onFiles (change : FileTree → Except Fault α × FileTree) : Job σ α :=
  ExceptT.mk do
    let host ← get
    let (result, files) := change host.files
    set { host with files := files }
    return result

/-- Log a message. -/
def log (level : LogLevel) (message : CodeText) : Job σ Unit :=
  modify fun host => { host with log := host.log ++ [⟨level, message⟩] }

/-- Ask the outside world, and see its answer or failure. -/
def ask (request : Ask σ α) : Job σ (Except OutsideFault α) := do
  let host ← get
  let (answer, outside) := request host.outside
  set { host with outside := outside }
  return answer

/-- Ask the outside world for something that no operation can do without: its failure is a fault. -/
def demand (request : Ask σ α) : Job σ α := do
  match ← ask request with
  | .ok answer => return answer
  | .error fault => throw (.outside fault)

/-! ## The parts of a host -/

@[simp] theorem runOn_files (host : Host σ) :
    (files : Job σ FileTree).runOn host = (.ok host.files, host) := rfl

@[simp] theorem runOn_ofExcept (result : Except Fault α) (host : Host σ) :
    (ofExcept result : Job σ α).runOn host = (result, host) := rfl

@[simp] theorem runOn_onFiles (change : FileTree → Except Fault α × FileTree) (host : Host σ) :
    (onFiles change : Job σ α).runOn host
      = ((change host.files).1, { host with files := (change host.files).2 }) := rfl

@[simp] theorem runOn_log (level : LogLevel) (message : CodeText) (host : Host σ) :
    (log level message : Job σ Unit).runOn host
      = (.ok (), { host with log := host.log ++ [⟨level, message⟩] }) := rfl

@[simp] theorem runOn_ask (request : Ask σ α) (host : Host σ) :
    (ask request : Job σ (Except OutsideFault α)).runOn host
      = (.ok (request host.outside).1, { host with outside := (request host.outside).2 }) := rfl

@[simp] theorem runOn_pure (a : α) (host : Host σ) :
    (pure a : Job σ α).runOn host = (.ok a, host) := rfl

/-- One job after another: the second starts from the host that the first leaves, unless a fault
ends the first. -/
theorem runOn_bind {β : Type} (job : Job σ α) (next : α → Job σ β) (host : Host σ) :
    (job >>= next).runOn host =
      match job.runOn host with
      | (.ok a, after) => (next a).runOn after
      | (.error fault, after) => (.error fault, after) := by
  simp only [runOn, ExceptT.run_bind, StateT.run_bind]
  show (match (StateT.run (ExceptT.run job) host) with | (r, s) => _) = _
  generalize (StateT.run (ExceptT.run job) host : Except Fault α × Host σ) = outcome
  obtain ⟨result, after⟩ := outcome
  cases result <;> rfl

end Job

end NodeLedger
