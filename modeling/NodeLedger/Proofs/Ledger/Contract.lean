import NodeLedger.Proofs.Json.Limits
import NodeLedger.Proofs.Ledger.AllOrNothing
import NodeLedger.Proofs.Ledger.Kept

/-!
# Faults of the ledger's own

Whoever calls the ledger handles its faults, and no others. A file can hold anything; so it matters
which contents lead to a fault of another kind, which no caller handles. Those are the contents that
are beyond the reader, and no others.

- `Foreseen`: a result, or a fault of the ledger's. It is closed under sequences (`Foreseen.bind`).
- `cases_of_load`: **loading a file is foreseen unless its content is beyond the reader**, and what is
  loaded is in order.
- `LedgerCall.foreseen_job`: **an update of such a file ends as foreseen**, whatever the file system
  refuses. `LedgerCall.exists_runOn_job_of_beyond`: every other update ends with a fault of no family.
-/

namespace NodeLedger

open Text FileTree

/-! ## Families of faults -/

/-- A fault of no family is of none of them. -/
theorem Fault.isOf_of_class?_eq_none {fault : Fault} (h : fault.class? = none) (family : FaultClass) :
    fault.isOf family = false := by
  rw [Fault.isOf, h]

/-- A fault of the ledger's is one that its callers handle, and one that is expected. -/
theorem Fault.isOf_ledger (fault : LedgerFault) :
    (Fault.ledger fault).isOf .ledger = true ∧ (Fault.ledger fault).isOf .expected = true := by
  cases fault with
  | entry fault => cases fault <;> exact ⟨rfl, rfl⟩
  | _ => exact ⟨rfl, rfl⟩

/-- A result, or a fault of the ledger's. -/
def Foreseen {α : Type} (result : Except Fault α) : Prop :=
  ∀ fault, result = .error fault → ∃ f, fault = .ledger f

section Foreseen

variable {α β : Type}

theorem foreseen_ok (a : α) : Foreseen (.ok a) :=
  fun _ h => by cases h

theorem foreseen_ledger (fault : LedgerFault) : Foreseen (.error (.ledger fault) : Except Fault α) := by
  intro f h
  cases h
  exact ⟨fault, rfl⟩

theorem Foreseen.bind {result : Except Fault α} {next : α → Except Fault β} (h : Foreseen result)
    (hnext : ∀ a, Foreseen (next a)) : Foreseen (result >>= next) := by
  cases result with
  | ok a => exact hnext a
  | error fault =>
    obtain ⟨f, rfl⟩ := h fault rfl
    exact foreseen_ledger f

theorem foreseen_mapError_ledger {ε : Type} (result : Except ε α) (f : ε → LedgerFault) :
    Foreseen (result.mapError fun fault => .ledger (f fault)) := by
  cases result with
  | ok a => exact foreseen_ok a
  | error fault => exact foreseen_ledger (f fault)

/-- What the file system refuses is a fault of the ledger's, for a path that a file can have. -/
theorem foreseen_ofFile {fault : FileFault} (h : ∀ pathFault, fault ≠ .noPath pathFault)
    (action : FileAction) (path : CodeText) : Foreseen (.error (.ofFile action path fault) : Except Fault α) := by
  cases fault with
  | refused refusal path => exact foreseen_ledger _
  | notMoved refusal source target => exact foreseen_ledger _
  | noPath pathFault => exact absurd rfl (h pathFault)

end Foreseen

/-! ## Loading -/

namespace FileTree

variable {tree : FileTree} {path : CodeText} {bytes : List UInt8}

theorem onPath_ne_noPath {α : Type} {outcome : Except Refusal α} (h : Path.fault? path = none)
    (pathFault : PathFault) : onPath path outcome ≠ .error (.noPath pathFault) := by
  rw [onPath_of_none h]
  cases outcome with
  | ok a => exact fun heq => by cases heq
  | error refusal => exact fun heq => by cases heq

end FileTree

namespace Ledger

variable {tree later : FileTree} {path : CodeText} {bytes : List UInt8} {ledger : Ledger}

/-- What was loaded is in order. -/
theorem pairwise_of_load [Json.Nesting] (h : load tree path = .ok ledger) :
    ledger.instances.Pairwise (· ≤ ·) ∧ ledger.groups.Pairwise (· ≤ ·) := by
  have hentries : ∀ {members : List (CodeText × Json)} {key : String} {entries : List CodeText},
      entriesOf members key = .ok entries → entries.Pairwise (· ≤ ·) := by
    intro members key entries h
    unfold entriesOf at h
    split at h
    · cases h
      exact pairwise_sortEntries _
    · cases h
  unfold load at h
  split at h
  · cases h
  rename_i value _
  have hvalue := eq_ok_of_mapError_eq_ok h
  cases value with
  | obj members =>
    obtain ⟨instances, hinstances, hvalue⟩ := exists_of_bind_eq_ok hvalue
    obtain ⟨groups, hgroups, hvalue⟩ := exists_of_bind_eq_ok hvalue
    cases hvalue
    exact ⟨hentries hinstances, hentries hgroups⟩
  | _ => cases hvalue

/-- **Loading a file is foreseen unless its content is beyond the reader**; then the fault is of no
family. -/
theorem cases_of_load [Json.Nesting] (h : tree.read path = .ok bytes) :
    (¬ Json.Beyond bytes ∧ Foreseen (load tree path)) ∨
      Json.Beyond bytes ∧ ∃ fault, load tree path = .error fault ∧ fault.class? = none := by
  unfold load Json.readFile
  rw [h]
  dsimp only
  cases hread : Json.readBytes bytes with
  | ok value =>
    refine .inl ⟨fun ⟨fault, hfault, _⟩ => ?_, foreseen_mapError_ledger _ _⟩
    rw [hread] at hfault
    cases hfault
  | error fault =>
    have hbeyond : Json.Beyond bytes ↔ fault.isBeyond = true := by
      refine ⟨fun ⟨other, hother, hisBeyond⟩ => ?_, fun hisBeyond => ⟨fault, hread, hisBeyond⟩⟩
      rw [hread] at hother
      cases hother
      exact hisBeyond
    rw [hbeyond]
    cases fault with
    | file fault =>
      -- Reading the bytes of a file has no more to do with the file system.
      unfold Json.readBytes at hread
      split at hread
      · cases hread
      · cases hresult : Json.read (unifyNewlines _) with
        | ok value =>
          rw [hresult] at hread
          cases hread
        | error fault =>
          rw [hresult] at hread
          cases hread
    | encoding fault => exact .inr ⟨rfl, _, rfl, rfl⟩
    | text fault =>
      cases fault with
      | malformed what line column position =>
        exact .inl ⟨Bool.false_ne_true, foreseen_ledger _⟩
      | tooManyDigits count => exact .inr ⟨rfl, _, rfl, rfl⟩
      | tooDeep => exact .inr ⟨rfl, _, rfl, rfl⟩

/-- A file leads to entries in order or to a fault of the ledger's, unless its content is beyond the
reader. -/
theorem sorted_or_fault_iff [Json.Nesting] (h : tree.read path = .ok bytes) :
    (∃ ledger, load tree path = .ok ledger ∧
        ledger.instances.Pairwise (· ≤ ·) ∧ ledger.groups.Pairwise (· ≤ ·)) ∨
      (∃ fault, load tree path = .error (.ledger fault)) ↔ ¬ Json.Beyond bytes := by
  rcases cases_of_load h with ⟨hbeyond, hforeseen⟩ | ⟨hbeyond, fault, hload, hclass⟩
  · refine iff_of_true ?_ hbeyond
    cases hload : load tree path with
    | ok ledger => exact .inl ⟨ledger, rfl, pairwise_of_load hload⟩
    | error fault =>
      obtain ⟨f, rfl⟩ := hforeseen fault hload
      exact .inr ⟨f, rfl⟩
  · refine iff_of_false ?_ (not_not.2 hbeyond)
    rw [hload]
    rintro (⟨ledger, heq, -⟩ | ⟨f, heq⟩)
    · cases heq
    · cases heq
      have hfalse := Fault.isOf_of_class?_eq_none hclass .ledger
      rw [(Fault.isOf_ledger f).1] at hfalse
      cases hfalse

/-- Where there is a file, the ledger is the one in it. -/
theorem loadOrEmpty_of_read [Json.Nesting] (h : tree.read path = .ok bytes) :
    loadOrEmpty tree path = load tree path := by
  rw [loadOrEmpty, if_pos (present_of_read h)]

/-! ## Saving and deleting -/

theorem foreseen_save (ledger : Ledger) (hpath : Path.fault? path = none)
    (hworkDir : Path.fault? tree.workDir.path = none) : Foreseen (ledger.save path tree).1 := by
  have hcandidate : Path.fault? (Path.join (Path.parent (Path.absolute tree.workDir path))
      (temporaryName 0)) = none :=
    (Path.fault?_join_iff (Path.fault?_parent (Path.fault?_absolute hworkDir hpath))).2
      (by decide +kernel)
  unfold save
  split
  · rename_i fault hcreate
    refine foreseen_ofFile ?_ _ _
    rintro pathFault rfl
    exact onPath_ne_noPath hcandidate pathFault hcreate
  · split
    · exact foreseen_ok _
    · rename_i pathFault hmove
      rw [move_eq_noPath_iff, hpath] at hmove
      cases hmove
    · rename_i hne hmove
      exact foreseen_ofFile hne _ _

theorem foreseen_deleteFile (hpath : Path.fault? path = none) :
    Foreseen (deleteFile path tree).1 := by
  unfold deleteFile
  split
  · exact foreseen_ok _
  · rename_i fault hremove
    refine foreseen_ofFile ?_ _ _
    rintro pathFault rfl
    exact onPath_ne_noPath hpath pathFault hremove

end Ledger

/-! ## Updates -/

namespace LedgerCall

variable {σ : Type} {path : CodeText} {bytes : List UInt8} {host : Host σ}

/-- **An update of a file ends as foreseen** unless its content is beyond the reader. -/
theorem foreseen_job [Json.Nesting] (call : LedgerCall) (hread : host.files.read path = .ok bytes)
    (hworkDir : Path.fault? host.files.workDir.path = none) (h : ¬ Json.Beyond bytes) :
    Foreseen ((call.job path).runOn host).1 := by
  have hpath := (exists_place_of_read hread).1
  have hload : Foreseen (Ledger.load host.files path) := by
    rcases Ledger.cases_of_load hread with ⟨-, hload⟩ | ⟨hbeyond, -⟩
    · exact hload
    · exact absurd hbeyond h
  have hresult : Foreseen (call.result host.files path) := by
    cases call with
    | append instances groups =>
      rw [result, Ledger.loadOrEmpty_of_read hread]
      exact hload.bind fun _ => foreseen_mapError_ledger _ _
    | remove instances groups => exact hload.bind fun _ => foreseen_mapError_ledger _ _
  rcases cases_of_runOn_job (Prod.mk.eta (p := (call.job path).runOn host)).symm with
    ⟨fault, heq, houtcome, -⟩ | ⟨ledger, -, hreplace⟩
  · obtain ⟨f, rfl⟩ := hresult fault heq
    rw [houtcome]
    exact foreseen_ledger f
  · have hfirst := congrArg Prod.fst hreplace
    rw [← hfirst, replace]
    split
    · exact Ledger.foreseen_deleteFile hpath
    · exact Ledger.foreseen_save ledger hpath hworkDir

/-- Every other update does nothing, and its fault is of no family. -/
theorem exists_runOn_job_of_beyond [Json.Nesting] (call : LedgerCall)
    (hread : host.files.read path = .ok bytes) (h : Json.Beyond bytes) :
    ∃ fault, (call.job path).runOn host = (.error fault, host) ∧ fault.class? = none := by
  rcases Ledger.cases_of_load hread with ⟨hbeyond, -⟩ | ⟨-, fault, hload, hclass⟩
  · exact absurd h hbeyond
  have hresult : call.result host.files path = .error fault := by
    cases call with
    | append instances groups =>
      rw [result, Ledger.loadOrEmpty_of_read hread, hload]
      rfl
    | remove instances groups =>
      rw [result, hload]
      rfl
  rcases cases_of_runOn_job (Prod.mk.eta (p := (call.job path).runOn host)).symm with
    ⟨other, hother, houtcome, hafter⟩ | ⟨ledger, hledger, -⟩
  · rw [hresult] at hother
    cases hother
    exact ⟨fault, Prod.ext houtcome hafter, hclass⟩
  · rw [hresult] at hledger
    cases hledger

end LedgerCall

end NodeLedger
