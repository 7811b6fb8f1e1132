import NodeLedger.Proofs.Cloud.Collect

/-!
# Clouds and files

What is asked of a cloud has nothing to do with the files of the host, whatever the cloud answers.

- `Provider.KeepsFiles`: the operations of a provider leave the files alone.
- `Ec2.keepsFiles_provider`, `Nsg.keepsFiles_provider`: **both clouds do**.
-/

namespace NodeLedger.Cloud

open Job Policy

/-- However an operation of the provider ends, the files are as they were. -/
structure Provider.KeepsFiles {σ : Type} (provider : Provider σ) : Prop where
  find : ∀ name, (provider.find name).Keeps (·.files)
  create : ∀ name, (provider.create name).Keeps (·.files)
  rules : ∀ group, (provider.rules group).Keeps (·.files)
  apply : ∀ group changes current, (provider.apply group changes current).Keeps (·.files)
  delete : ∀ group, (provider.delete group).Keeps (·.files)
  terminate : ∀ machines, (provider.terminate machines).Keeps (·.files)

namespace Ec2

variable {σ : Type} (client : Client σ)

theorem keepsFiles_create (network : Option String) (name : String) :
    (create client network name).Keeps (·.files) := by
  rw [create]
  split
  · exact keeps_throw _
  · refine keeps_bind (keepsFiles_expecting _ _ _) fun answer => ?_
    exact keeps_bind (keeps_ofExcept _) fun group =>
      keeps_bind (keepsFiles_log _ _) fun _ => keeps_pure _

theorem keepsFiles_readPermissions (group : GroupId) (permissions : List Permission) :
    (readPermissions group permissions : Job σ _).Keeps (·.files) := by
  induction permissions with
  | nil => exact keeps_pure _
  | cons permission permissions ih =>
    refine keeps_bind (keeps_ofExcept _) fun rule? => ?_
    cases rule? with
    | some rule => exact keeps_bind ih fun _ => keeps_pure _
    | none => exact keeps_bind (keepsFiles_log _ _) fun _ => ih

theorem keepsFiles_readGroups (group : GroupId) (descriptions : List GroupDescription) :
    (readGroups group descriptions : Job σ _).Keeps (·.files) := by
  induction descriptions with
  | nil => exact keeps_pure _
  | cons description descriptions ih =>
    refine keeps_bind (keeps_ofExcept _) fun permissions => ?_
    exact keeps_bind (keepsFiles_readPermissions group permissions) fun _ =>
      keeps_bind ih fun _ => keeps_pure _

theorem keepsFiles_apply (group : GroupId) (changes current : List SecurityRule) :
    (apply client group changes current).Keeps (·.files) := by
  refine keeps_bind (keeps_ofExcept _) fun permissions => ?_
  refine keeps_ite (keeps_pure _) ?_
  exact keeps_bind (keepsFiles_expecting _ _ _) fun _ => keepsFiles_log _ _

theorem keepsFiles_isInUse (group : GroupId) : (isInUse client group).Keeps (·.files) := by
  refine keeps_bind (keepsFiles_expecting _ _ _) fun answer => ?_
  refine keeps_bind (keeps_ofExcept _) fun holders => ?_
  refine keeps_ite (keeps_pure _) ?_
  split
  · exact keeps_throw _
  · exact keeps_bind (keepsFiles_log _ _) fun _ => keeps_pure _

theorem keepsFiles_delete (group : GroupId) : (delete client group).Keeps (·.files) := by
  refine keeps_bind (keepsFiles_isInUse client group) fun inUse => ?_
  refine keeps_ite (keeps_bind (keeps_throw _) fun _ => ?_) ?_
  all_goals exact keeps_bind (keepsFiles_expecting _ _ _) fun _ => keepsFiles_log _ _

theorem keepsFiles_terminate (machines : List CodeText) :
    (terminate client machines).Keeps (·.files) := by
  rw [terminate, requestTermination_eq]
  refine keeps_bind (keepsFiles_collect _ _ _ machines) fun requested => ?_
  rw [awaitTermination_eq]
  exact keeps_bind (keepsFiles_demand _) fun _ => keepsFiles_collect _ _ _ requested

/-- **The operations on EC2 leave the files alone.** -/
theorem keepsFiles_provider (network : Option String) : (provider client network).KeepsFiles where
  find _ := keeps_bind (keepsFiles_expecting _ _ _) fun _ => keeps_ofExcept _
  create := keepsFiles_create client network
  rules group := keeps_bind (keepsFiles_expecting _ _ _) fun _ =>
    keeps_bind (keeps_ofExcept _) fun groups => keepsFiles_readGroups group groups
  apply := keepsFiles_apply client
  delete := keepsFiles_delete client
  terminate := keepsFiles_terminate client

end Ec2

namespace Nsg

variable {σ : Type} (client : Client σ) (resources : String)

theorem keepsFiles_find (name : String) : (find client resources name).Keeps (·.files) :=
  keepsFiles_ask_bind (fun _ => keeps_pure _) fun _ => keeps_ite (keeps_pure _) (keeps_throw _)

theorem keepsFiles_create (location : Option String) (name : String) :
    (create client resources location name).Keeps (·.files) := by
  rw [create]
  split
  · exact keeps_throw _
  · exact keeps_bind (keepsFiles_expecting _ _ _) fun _ =>
      keeps_bind (keepsFiles_log _ _) fun _ => keeps_pure _

theorem keepsFiles_apply (group : GroupId) (changes : List SecurityRule) :
    (apply client resources group changes).Keeps (·.files) := by
  induction changes with
  | nil => exact keeps_pure _
  | cons change changes ih =>
    exact keeps_bind (keepsFiles_expecting _ _ _) fun _ =>
      keeps_bind (keepsFiles_log _ _) fun _ => ih

theorem keepsFiles_deleteRules (group : GroupId) (rules : List RequiredRule) :
    (deleteRules client resources group rules).Keeps (·.files) := by
  induction rules with
  | nil => exact keeps_pure _
  | cons rule rules ih =>
    exact keepsFiles_ask_bind (fun _ => ih) fun fault =>
      keeps_ite (keeps_bind (keepsFiles_log _ _) fun _ => ih) (keeps_throw _)

theorem keepsFiles_terminate (machines : List CodeText) :
    (terminate client resources machines).Keeps (·.files) := by
  rw [terminate_eq]
  exact keepsFiles_collect _ _ _ machines

/-- **The operations on Azure leave the files alone.** -/
theorem keepsFiles_provider (location : Option String) :
    (provider client resources location).KeepsFiles where
  find := keepsFiles_find client resources
  create := keepsFiles_create client resources location
  rules _ := keeps_bind (keepsFiles_expecting _ _ _) fun _ => keeps_pure _
  apply group changes _ := keepsFiles_apply client resources group changes
  delete group := keeps_bind (keepsFiles_deleteRules client resources group azureRules) fun _ =>
    keepsFiles_log _ _
  terminate := keepsFiles_terminate client resources

end Nsg

end NodeLedger.Cloud
