import Mathlib.Control.Monad.Basic
import NodeLedger.Proofs.Cloud.Collect

/-!
# What was exchanged with a cloud

A teardown is judged by what the cloud has answered to it, but neither its result nor the state of the
cloud need tell. So the run is repeated beside a witness: the same cloud, with a list to which each
request that takes something down is added when it has been answered. The witness changes nothing,
which is proved here once; what the list holds is up to the run.

- `Platform`: one of the two clouds, with its client.
- `Exchange`: a request with its answer. `Exchange.isHandled` tells the answers that the operations
  are prepared for.
- `Watched`, `Platform.watched`: the cloud beside a witness.
- `Mirrors`: a job beside a witness does what the job does without one.
- `mirrors_terminate`, `mirrors_delete`: **the witness changes nothing** when instances are terminated
  and groups are deleted.
-/

namespace NodeLedger

open Cloud Policy

namespace Cloud

/-- One of the clouds, as it is reached. -/
inductive Platform (σ : Type) where
  | ec2 (client : Ec2.Client σ) (network : Option String)
  | azure (client : Nsg.Client σ) (resources : String) (location : Option String)

/-- The operations on the cloud. -/
def Platform.provider {σ : Type} : Platform σ → Provider σ
  | ec2 client network => Ec2.provider client network
  | azure client resources location => Nsg.provider client resources location

/-! ## Exchanges -/

/-- A request that is made to take something down, with its answer. A change that is waited for is one
exchange, with the failure of its start or the outcome of its end. -/
inductive Exchange where
  | terminate (machine : CodeText) (answer : Except OutsideFault Unit)
  | waiter (answer : Except OutsideFault Unit)
  | wait (machine : CodeText) (answer : Except OutsideFault Unit)
  | instances (group : GroupId) (answer : Except OutsideFault (Option Ec2.InstancesAnswer))
  | deleteGroup (group : GroupId) (answer : Except OutsideFault Unit)
  | deleteMachine (machine : CodeText) (answer : Except OutsideFault Unit)
  | deleteRule (group : GroupId) (rule : String) (answer : Except OutsideFault Unit)
  deriving DecidableEq

/-- The identifiers of the instances that hold on to a group, each of which may be null. -/
def Ec2.holders (answer : Option InstancesAnswer) : Except Fault (List (Option CodeText)) := do
  part (readReservations (← part (← present .nullAnswer answer).reservations.items))

/-- The answer names every instance that holds on to the group. -/
def Ec2.isReadable (answer : Option InstancesAnswer) : Bool :=
  match holders answer with
  | .ok machines => (machines.mapM id).isSome
  | .error _ => false

namespace Exchange

/-- The operations are prepared for the answer: it is a success, or the failure that the operation
expects of the request. -/
def isHandled : Exchange → Bool
  | terminate _ (.error fault) => Ec2.isClientFault fault
  | waiter (.error _) => false
  | wait _ (.error fault) => Ec2.isWaiterFault fault
  | instances _ (.ok answer) => Ec2.isReadable answer
  | instances _ (.error fault) => Ec2.isClientFault fault
  | deleteGroup _ (.error fault) => Ec2.isClientFault fault
  | deleteMachine _ (.error fault) => Nsg.isResponseFault fault
  | deleteRule _ _ (.error fault) => Nsg.isResponseFault fault
  | _ => true

/-- The group that an exchange is about. -/
def group? : Exchange → Option GroupId
  | instances group _ => some group
  | deleteGroup group _ => some group
  | deleteRule group _ _ => some group
  | _ => none

end Exchange

/-! ## A cloud beside a witness -/

/-- The state of a cloud, and what has been exchanged with it. -/
structure Watched (σ : Type) where
  state : σ
  seen : List Exchange

section Watch

variable {σ α : Type}

/-- A request that is noted when it has been answered. -/
def watch (note : Except OutsideFault α → List Exchange) (request : Ask σ α) : Ask (Watched σ) α :=
  fun watched =>
    let answered := request watched.state
    (answered.1, ⟨answered.2, watched.seen ++ note answered.1⟩)

/-- A change that is noted when it has ended, or could not be started. -/
def watchChange (note : Except OutsideFault α → List Exchange) (request : Ask σ (Ask σ α)) :
    Ask (Watched σ) (Ask (Watched σ) α) := fun watched =>
  match request watched.state with
  | (.ok pending, state) => (.ok (watch note pending), ⟨state, watched.seen⟩)
  | (.error fault, state) => (.error fault, ⟨state, watched.seen ++ note (.error fault)⟩)

/-- A change that is noted is one request that is noted. -/
theorem finished_watchChange (note : Except OutsideFault α → List Exchange)
    (request : Ask σ (Ask σ α)) :
    Ask.finished (watchChange note request) = watch note (Ask.finished request) := by
  funext watched
  cases hrequest : request watched.state with
  | mk answer state =>
    cases answer with
    | ok pending => simp only [Ask.finished, watchChange, watch, hrequest]
    | error fault => simp only [Ask.finished, watchChange, watch, hrequest]

/-- EC2 beside a witness. -/
def Ec2.Client.watched (client : Ec2.Client σ) : Ec2.Client (Watched σ) where
  describeGroups query := watch (fun _ => []) (client.describeGroups query)
  createGroup name description network :=
    watch (fun _ => []) (client.createGroup name description network)
  authorize group permissions := watch (fun _ => []) (client.authorize group permissions)
  describeInstances group :=
    watch (fun answer => [.instances group answer]) (client.describeInstances group)
  deleteGroup group := watch (fun answer => [.deleteGroup group answer]) (client.deleteGroup group)
  terminate machine := watch (fun answer => [.terminate machine answer]) (client.terminate machine)
  waiter event := watch (fun answer => [.waiter answer]) (client.waiter event)
  wait machine := watch (fun answer => [.wait machine answer]) (client.wait machine)

/-- Azure beside a witness. -/
def Nsg.Client.watched (client : Nsg.Client σ) : Nsg.Client (Watched σ) where
  getGroup resources group := watch (fun _ => []) (client.getGroup resources group)
  createGroup resources name location :=
    watchChange (fun _ => []) (client.createGroup resources name location)
  updateRule resources group name rule :=
    watchChange (fun _ => []) (client.updateRule resources group name rule)
  deleteRule resources group name :=
    watchChange (fun answer => [.deleteRule group name answer])
      (client.deleteRule resources group name)
  deleteMachine resources machine :=
    watchChange (fun answer => [.deleteMachine machine answer])
      (client.deleteMachine resources machine)

section Requests

variable (client : Ec2.Client σ) (other : Nsg.Client σ) (resources name event : String)
  (group : GroupId) (machine : CodeText)

@[simp] theorem Ec2.Client.watched_describeInstances :
    client.watched.describeInstances group
      = watch (fun answer => [.instances group answer]) (client.describeInstances group) := rfl

@[simp] theorem Ec2.Client.watched_deleteGroup :
    client.watched.deleteGroup group
      = watch (fun answer => [.deleteGroup group answer]) (client.deleteGroup group) := rfl

@[simp] theorem Ec2.Client.watched_terminate :
    client.watched.terminate = fun machine =>
      watch (fun answer => [.terminate machine answer]) (client.terminate machine) := rfl

@[simp] theorem Ec2.Client.watched_waiter :
    client.watched.waiter event = watch (fun answer => [.waiter answer]) (client.waiter event) := rfl

@[simp] theorem Ec2.Client.watched_wait :
    client.watched.wait = fun machine =>
      watch (fun answer => [.wait machine answer]) (client.wait machine) := rfl

@[simp] theorem Nsg.Client.finished_watched_deleteRule :
    Ask.finished (other.watched.deleteRule resources group name)
      = watch (fun answer => [.deleteRule group name answer])
        (Ask.finished (other.deleteRule resources group name)) :=
  finished_watchChange _ _

@[simp] theorem Nsg.Client.finished_watched_deleteMachine :
    Ask.finished (other.watched.deleteMachine resources machine)
      = watch (fun answer => [.deleteMachine machine answer])
        (Ask.finished (other.deleteMachine resources machine)) :=
  finished_watchChange _ _

end Requests

/-- The cloud beside a witness. -/
def Platform.watched : Platform σ → Platform (Watched σ)
  | ec2 client network => ec2 client.watched network
  | azure client resources location => azure client.watched resources location

end Watch

end Cloud

/-- The host with a witness that has seen nothing. -/
def Host.watched {σ : Type} (host : Host σ) : Host (Watched σ) :=
  ⟨host.files, host.log, ⟨host.outside, []⟩⟩

/-- The host without the witness. -/
def Host.unwatched {σ : Type} (host : Host (Watched σ)) : Host σ :=
  ⟨host.files, host.log, host.outside.state⟩

namespace Job

variable {σ α β : Type}

/-! ## Jobs beside a witness -/

/-- The job beside a witness ends as the job does, and leaves the same host. -/
def Mirrors (watched : Job (Watched σ) α) (job : Job σ α) : Prop :=
  ∀ host, ((watched.runOn host).1, (watched.runOn host).2.unwatched) = job.runOn host.unwatched

section Steps

variable {watched : Job (Watched σ) α} {job : Job σ α}

theorem mirrors_pure (a : α) : Mirrors (σ := σ) (pure a) (pure a) :=
  fun _ => rfl

theorem mirrors_throw (fault : Fault) : Mirrors (σ := σ) (α := α) (throw fault) (throw fault) :=
  fun _ => rfl

theorem mirrors_ofExcept (result : Except Fault α) :
    Mirrors (σ := σ) (ofExcept result) (ofExcept result) :=
  fun _ => rfl

theorem mirrors_log (level : LogLevel) (message : CodeText) :
    Mirrors (σ := σ) (log level message) (log level message) :=
  fun _ => rfl

theorem mirrors_files : Mirrors (σ := σ) files files :=
  fun _ => rfl

theorem mirrors_onFiles (change : FileTree → Except Fault α × FileTree) :
    Mirrors (σ := σ) (onFiles change) (onFiles change) :=
  fun _ => rfl

/-- Noting what is exchanged changes neither the answer nor the state of the cloud. -/
theorem mirrors_ask (note : Except OutsideFault α → List Exchange) (request : Ask σ α) :
    Mirrors (ask (watch note request)) (ask request) :=
  fun _ => rfl

theorem mirrors_bind {later : α → Job (Watched σ) β} {next : α → Job σ β}
    (h : Mirrors watched job) (hnext : ∀ a, Mirrors (later a) (next a)) :
    Mirrors (watched >>= later) (job >>= next) := by
  intro host
  rw [runOn_bind, runOn_bind, ← h host]
  cases watched.runOn host with
  | mk outcome middle =>
    cases outcome with
    | ok a => exact hnext a middle
    | error fault => rfl

theorem mirrors_ite {condition : Prop} [Decidable condition] {watched' : Job (Watched σ) α}
    {job' : Job σ α} (h : Mirrors watched job) (h' : Mirrors watched' job') :
    Mirrors (if condition then watched else watched') (if condition then job else job') := by
  split
  · exact h
  · exact h'

theorem mirrors_forM {later : β → Job (Watched σ) PUnit} {next : β → Job σ PUnit}
    (h : ∀ b, Mirrors (later b) (next b)) (items : List β) :
    Mirrors (items.forM later) (items.forM next) := by
  induction items with
  | nil => exact mirrors_pure _
  | cons item items ih => exact mirrors_bind (h item) fun _ => ih

theorem mirrors_handling {family : FaultClass} {handler : Fault → Job (Watched σ) α}
    {handler' : Fault → Job σ α} (h : Mirrors watched job)
    (hhandler : ∀ fault, Mirrors (handler fault) (handler' fault)) :
    Mirrors (Provisioning.handling family watched handler)
      (Provisioning.handling family job handler') := by
  intro host
  rw [Provisioning.runOn_handling, Provisioning.runOn_handling, ← h host]
  cases watched.runOn host with
  | mk outcome middle =>
    cases outcome with
    | ok a => rfl
    | error fault =>
      dsimp only
      split
      · exact hhandler fault middle
      · rfl

theorem mirrors_ask_bind {note : Except OutsideFault α → List Exchange} {request : Ask σ α}
    {later : Except OutsideFault α → Job (Watched σ) β} {next : Except OutsideFault α → Job σ β}
    (hok : ∀ a, Mirrors (later (.ok a)) (next (.ok a)))
    (herror : ∀ fault, Mirrors (later (.error fault)) (next (.error fault))) :
    Mirrors (ask (watch note request) >>= later) (ask request >>= next) := by
  refine mirrors_bind (mirrors_ask note request) fun answer => ?_
  cases answer with
  | ok a => exact hok a
  | error fault => exact herror fault

theorem mirrors_expecting (isExpected : OutsideFault → Bool)
    (explain : OutsideFault → ProviderFault) (note : Except OutsideFault α → List Exchange)
    (request : Ask σ α) :
    Mirrors (expecting isExpected explain (watch note request))
      (expecting isExpected explain request) :=
  mirrors_ask_bind mirrors_pure fun _ => mirrors_throw _

theorem mirrors_demand (note : Except OutsideFault α → List Exchange) (request : Ask σ α) :
    Mirrors (demand (watch note request)) (demand request) :=
  mirrors_ask_bind mirrors_pure fun _ => mirrors_throw _

end Steps

end Job

/-! ## The witness changes nothing -/

namespace Cloud

open Job

variable {σ : Type}

theorem mirrors_collect (note : CodeText → Except OutsideFault Unit → List Exchange)
    (request : CodeText → Ask σ Unit) (isExpected : OutsideFault → Bool)
    (wording : CodeText → OutsideFault → CodeText) (items : List CodeText) :
    Mirrors (collect (fun item => watch (note item) (request item)) isExpected wording items)
      (collect request isExpected wording items) := by
  induction items with
  | nil => exact mirrors_pure _
  | cons item items ih =>
    exact mirrors_ask_bind (fun _ => mirrors_bind ih fun _ => mirrors_pure _) fun fault =>
      mirrors_ite (mirrors_bind (mirrors_log _ _) fun _ => ih) (mirrors_throw _)

section Ec2

variable (client : Ec2.Client σ)

theorem Ec2.mirrors_isInUse (group : GroupId) :
    Mirrors (isInUse client.watched group) (isInUse client group) := by
  rw [isInUse, isInUse, Client.watched_describeInstances]
  refine mirrors_bind (mirrors_expecting _ _ _ _) fun answer => ?_
  refine mirrors_bind (mirrors_ofExcept _) fun machines => ?_
  refine mirrors_ite (mirrors_pure _) ?_
  cases machines.mapM id with
  | none => exact mirrors_throw _
  | some machines => exact mirrors_bind (mirrors_log _ _) fun _ => mirrors_pure _

theorem Ec2.mirrors_delete (group : GroupId) :
    Mirrors (delete client.watched group) (delete client group) := by
  rw [delete, delete, Client.watched_deleteGroup]
  refine mirrors_bind (mirrors_isInUse client group) fun inUse => ?_
  refine mirrors_ite (mirrors_bind (mirrors_throw _) fun _ => ?_) ?_
  all_goals exact mirrors_bind (mirrors_expecting _ _ _ _) fun _ => mirrors_log _ _

theorem Ec2.mirrors_terminate (machines : List CodeText) :
    Mirrors (terminate client.watched machines) (terminate client machines) := by
  rw [terminate, terminate, Client.watched_waiter, requestTermination_eq, requestTermination_eq,
    Client.watched_terminate]
  refine mirrors_bind (mirrors_collect _ _ _ _ machines) fun requested => ?_
  rw [awaitTermination_eq, awaitTermination_eq, Client.watched_wait]
  exact mirrors_bind (mirrors_demand _ _) fun _ => mirrors_collect _ _ _ _ requested

end Ec2

section Nsg

variable (client : Nsg.Client σ) (resources : String)

theorem Nsg.mirrors_deleteRules (group : GroupId) (rules : List RequiredRule) :
    Mirrors (deleteRules client.watched resources group rules)
      (deleteRules client resources group rules) := by
  induction rules with
  | nil => exact mirrors_pure _
  | cons rule rules ih =>
    rw [deleteRules, deleteRules, Client.finished_watched_deleteRule]
    exact mirrors_ask_bind (fun _ => ih) fun fault =>
      mirrors_ite (mirrors_bind (mirrors_log _ _) fun _ => ih) (mirrors_throw _)

theorem Nsg.mirrors_terminate (machines : List CodeText) :
    Mirrors (terminate client.watched resources machines) (terminate client resources machines) := by
  rw [terminate_eq, terminate_eq]
  simp only [Client.finished_watched_deleteMachine]
  exact mirrors_collect _ _ _ _ machines

end Nsg

/-- **The witness changes nothing** when a group is deleted. -/
theorem mirrors_delete (platform : Platform σ) (group : GroupId) :
    Mirrors (platform.watched.provider.delete group) (platform.provider.delete group) := by
  cases platform with
  | ec2 client network => exact Ec2.mirrors_delete client group
  | azure client resources location =>
    exact mirrors_bind (Nsg.mirrors_deleteRules client resources group azureRules) fun _ =>
      mirrors_log _ _

/-- **The witness changes nothing** when instances are terminated. -/
theorem mirrors_terminate (platform : Platform σ) (machines : List CodeText) :
    Mirrors (platform.watched.provider.terminate machines)
      (platform.provider.terminate machines) := by
  cases platform with
  | ec2 client network => exact Ec2.mirrors_terminate client machines
  | azure client resources location => exact Nsg.mirrors_terminate client resources machines

end Cloud

end NodeLedger
