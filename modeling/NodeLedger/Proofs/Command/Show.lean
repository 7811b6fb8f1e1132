import NodeLedger.Cloud.Rehearsal
import NodeLedger.Command.Run
import NodeLedger.Proofs.Command.Shell
import NodeLedger.Proofs.Provisioning.Contract

/-!
# Which contents of a ledger file get past the ledger's faults

Nobody but the ledger looks into its file, and whoever calls the ledger handles its faults. So any
content should lead to entries in order or to a fault of the ledger's: then a group that was made sure
of is returned, an instance has an answer, and a ledger that cannot be shown is reported. That is so
unless the content is beyond the reader; such content ends every caller. Showing asks for more: an entry
may hold a half, which is read and kept, but which no terminal takes.

- `runShow_eq`: to show a ledger is to load it and to write its lines.
- `Shell.EndsAsForeseen`: a command ends well, or it reports a fault of the ledger's.
- `endsAsForeseen_show_iff`: **when showing a ledger ends as foreseen**.
- `within_contract_iff_not_beyond`: **with which contents every caller ends as foreseen**.
- `stray_byte_ends_all`: one byte that no text begins with ends all of them.
-/

namespace NodeLedger

open Cloud FileTree Text

/-- The command ends well, or it reports a fault of the ledger's and ends with status 1. -/
def Shell.EndsAsForeseen {σ α : Type} (shell : Shell σ α) (terminal : Terminal) (host : Host σ) :
    Prop :=
  (∃ a later after, shell.runOn terminal host = (.ok a, later, after)) ∨
    ∃ fault after, shell.runOn terminal host
      = (.error (.exit 1), terminal.complained ("❌ " ++ (Fault.ledger fault).message), after)

namespace Command

variable {σ : Type} {around : Surroundings σ} {host : Host σ} {path : CodeText} {bytes : List UInt8}

/-! ## Showing a ledger -/

/-- Entries below their heading. -/
def listing (heading : String) (entries : List CodeText) : List CodeText :=
  heading :: entries.map ("  • " ++ ·)

/-- The lines that show a ledger. -/
def shownLines (ledger : Ledger) (json : Bool) : List CodeText :=
  if json then [(ledger.text : CodeText)]
  else listing s!"📦 Instances ({ledger.instances.length}):" ledger.instances
    ++ listing s!"🔒 Security groups ({ledger.groups.length}):" ledger.groups

theorem runShow_eq [Json.Nesting] (around : Surroundings σ) (json : Bool) :
    runShow around json = (do
      let ledger ← Shell.attempt do Surroundings.load (← around.ledgerPath)
      (shownLines ledger json).forM Shell.writeLine) := by
  unfold runShow
  refine bind_congr fun ledger => ?_
  unfold shownLines
  split
  · simp
  · simp only [listing, List.forM_eq_forM, List.forM_append, List.forM_cons, List.forM_map, bind_assoc]
    rfl

theorem exists_hasHalf_listing_iff (heading : String) (entries : List CodeText) :
    (∃ line ∈ listing heading entries, line.HasHalf) ↔ ∃ entry ∈ entries, entry.HasHalf := by
  have hitem : ∀ entry : CodeText, ("  • " ++ entry).HasHalf ↔ entry.HasHalf := fun entry => by
    rw [CodeText.hasHalf_append_iff, or_iff_right (CodeText.not_hasHalf_ofString "  • ")]
  simp only [listing, List.mem_cons, List.mem_map, or_and_right, exists_or, exists_eq_left,
    CodeText.not_hasHalf_ofString, false_or, exists_exists_and_eq_and, hitem]

/-- The lines of a ledger hold a half if an entry does, unless the ledger is shown as JSON. -/
theorem exists_hasHalf_shownLines_iff (ledger : Ledger) (json : Bool) :
    (∃ line ∈ shownLines ledger json, line.HasHalf) ↔
      json = false ∧ ∃ entry ∈ ledger.instances ++ ledger.groups, entry.HasHalf := by
  cases json with
  | true =>
    refine iff_of_false (fun ⟨line, hline, hhalf⟩ => ?_) fun h => Bool.false_ne_true h.1.symm
    rw [shownLines, if_pos rfl, List.mem_singleton] at hline
    rw [hline] at hhalf
    exact CodeText.not_hasHalf_ofString _ hhalf
  | false =>
    rw [and_iff_right rfl, shownLines, if_neg Bool.false_ne_true]
    simp only [List.mem_append, or_and_right, exists_or, exists_hasHalf_listing_iff]

/-- The job that loads the ledger of a directory. -/
theorem runOn_load [Json.Nesting] (hpath : Ledger.pathIn host.files around.directory = .ok path) :
    (do Surroundings.load (← around.ledgerPath) : Job σ Ledger).runOn host
      = (Ledger.load host.files path, host) := by
  have hledgerPath : around.ledgerPath.runOn host = (.ok path, host) := by
    show ((Ledger.pathIn host.files around.directory).mapError Fault.ledger, host) = _
    rw [hpath]
    rfl
  rw [Job.runOn_bind_of_ok hledgerPath]
  rfl

/-- A ledger that was loaded is shown unless one of its lines holds a half. -/
theorem endsAsForeseen_show_of_load [Json.Nesting] {ledger : Ledger}
    (hpath : Ledger.pathIn host.files around.directory = .ok path)
    (hload : Ledger.load host.files path = .ok ledger) (terminal : Terminal) (json : Bool) :
    (run around (.show json)).EndsAsForeseen terminal host ↔
      ¬ (json = false ∧ ∃ entry ∈ ledger.instances ++ ledger.groups, entry.HasHalf) := by
  rw [← exists_hasHalf_shownLines_iff, Shell.EndsAsForeseen, run, runShow_eq,
    Shell.runOn_bind_of_ok (Shell.runOn_attempt_of_ok (hload ▸ runOn_load hpath) terminal)]
  rcases Shell.exists_runOn_lines (shownLines ledger json) terminal host with
    ⟨hnone, later, hrun⟩ | ⟨hsome, fault, later, hrun⟩
  · exact iff_of_true (.inl ⟨(), later, host, hrun⟩)
      fun ⟨line, hline, hhalf⟩ => hnone line hline hhalf
  · -- A half ends the program while it writes: nothing was reported, and no status was given.
    refine iff_of_false ?_ (not_not.2 hsome)
    rw [hrun]
    rintro (⟨a, later, after, heq⟩ | ⟨fault, after, heq⟩)
    · cases heq
    · cases heq

/-- A fault of the ledger's is reported, and a fault of no family ends the program. -/
theorem runOn_show_of_error [Json.Nesting] {fault : Fault}
    (hpath : Ledger.pathIn host.files around.directory = .ok path)
    (hload : Ledger.load host.files path = .error fault) (terminal : Terminal) (json : Bool) :
    (run around (.show json)).runOn terminal host =
      if fault.isOf .expected = true then
        (.error (.exit 1), terminal.complained ("❌ " ++ fault.message), host)
      else (.error (.crash fault), terminal, host) := by
  have hended := Shell.runOn_attempt_of_error (hload ▸ runOn_load hpath) terminal
  rw [run, runShow_eq]
  by_cases hexpected : fault.isOf .expected = true
  · rw [if_pos hexpected] at hended ⊢
    exact Shell.runOn_bind_of_error hended _
  · rw [if_neg hexpected] at hended ⊢
    exact Shell.runOn_bind_of_error hended _

/-- **When showing a ledger ends as foreseen**: the content of its file is not beyond the reader, and
it is shown as JSON or none of its entries holds a half. -/
theorem endsAsForeseen_show_iff [Json.Nesting]
    (hpath : Ledger.pathIn host.files around.directory = .ok path)
    (hread : host.files.read path = .ok bytes) (terminal : Terminal) (json : Bool) :
    (run around (.show json)).EndsAsForeseen terminal host ↔
      ¬ Json.Beyond bytes ∧ ∀ ledger, Ledger.load host.files path = .ok ledger →
        ¬ (json = false ∧ ∃ entry ∈ ledger.instances ++ ledger.groups, entry.HasHalf) := by
  rcases Ledger.cases_of_load hread with ⟨hbeyond, hforeseen⟩ | ⟨hbeyond, fault, hload, hclass⟩
  · rw [and_iff_right hbeyond]
    cases hload : Ledger.load host.files path with
    | ok ledger =>
      rw [endsAsForeseen_show_of_load hpath hload]
      exact ⟨fun h other heq => Except.ok.inj heq ▸ h, fun h => h ledger rfl⟩
    | error fault =>
      obtain ⟨f, rfl⟩ := hforeseen fault hload
      refine iff_of_true (.inr ⟨f, host, ?_⟩) fun ledger heq => by cases heq
      rw [runOn_show_of_error hpath hload, if_pos (Fault.isOf_ledger f).2]
  · refine iff_of_false ?_ fun h => h.1 hbeyond
    rw [Shell.EndsAsForeseen, runOn_show_of_error hpath hload,
      Fault.isOf_of_class?_eq_none hclass, if_neg Bool.false_ne_true]
    rintro (⟨a, later, after, heq⟩ | ⟨f, after, heq⟩)
    · cases heq
    · cases heq

/-! ## The contents of a ledger file -/

/-- **With which contents every caller ends as foreseen**: those that are not beyond the reader, however
deep it follows nested values. Loading gives entries in order or a fault of the ledger's; an instance has
an answer, and a group that was made sure of is returned; and a ledger is shown or a fault reported. The
credentials of an instance, if it has any, must in addition be storable, and a ledger that is shown line
by line must hold no half.

Beyond the reader are bytes that are no UTF-8, integers with too many digits and values that are nested
too deep; no UTF-8 is whose text is modest. -/
theorem within_contract_iff_not_beyond [Json.Nesting] {provisioning : Provisioning σ}
    (hread : host.files.read provisioning.ledgerPath = .ok bytes)
    (hworkDir : Path.fault? host.files.workDir.path = none) :
    ((∃ ledger, Ledger.load host.files provisioning.ledgerPath = .ok ledger ∧
          ledger.instances.Pairwise (· ≤ ·) ∧ ledger.groups.Pairwise (· ≤ ·)) ∨
        (∃ fault, Ledger.load host.files provisioning.ledgerPath = .error (.ledger fault)) ↔
      ¬ Json.Beyond bytes) ∧
    (∀ machine credentials,
      (∃ recorded, ((provisioning.trackInstance machine credentials).runOn host).1 = .ok recorded) ↔
        ¬ Json.Beyond bytes ∧
          ¬ (((provisioning.recordInstance machine).runOn host).1 = .ok true ∧
            ∃ c ∈ credentials, provisioning.Unstorable machine c
              ((provisioning.recordInstance machine).runOn host).2.files)) ∧
    (∀ cluster network start found group,
      (provisioning.prepare cluster network).runOn start = (.ok (found, group), host) →
        (((provisioning.ensureGroup cluster network).runOn start).1 = .ok group ↔
          ¬ ((found.isNone || provisioning.provider.recordsFoundGroups) = true ∧
            Json.Beyond bytes))) ∧
    (∀ (around : Surroundings σ) terminal json,
      Ledger.pathIn host.files around.directory = .ok provisioning.ledgerPath →
        ((run around (.show json)).EndsAsForeseen terminal host ↔
          ¬ Json.Beyond bytes ∧ ∀ ledger,
            Ledger.load host.files provisioning.ledgerPath = .ok ledger →
              ¬ (json = false ∧ ∃ entry ∈ ledger.instances ++ ledger.groups, entry.HasHalf))) ∧
    (∀ fault, decode bytes = .error fault → Json.Beyond bytes) ∧
    (∀ n, digitLimit < (decimal n).length → decode bytes = .ok (decimal n) → Json.Beyond bytes) ∧
    (∀ n rest, Json.Nesting.limit < n → decode bytes = .ok (List.replicate n '[' ++ rest) →
      Json.Beyond bytes) ∧
    (∀ text, Json.Modest Json.Nesting.limit (unifyNewlines text) → decode bytes = .ok text →
      ¬ Json.Beyond bytes) := by
  refine ⟨Ledger.sorted_or_fault_iff hread, ?_, ?_, ?_, fun fault => Json.beyond_of_decode,
    fun n => Json.beyond_of_decimal, fun n rest => Json.beyond_of_brackets, fun text hmodest hdecode =>
      Json.not_beyond_of_modest hdecode hmodest⟩
  · exact fun machine credentials =>
      Provisioning.exists_ok_trackInstance_iff hread hworkDir machine credentials
  · exact fun cluster network start found group hprepare =>
      Provisioning.ok_ensureGroup_iff hprepare hread hworkDir
  · exact fun around terminal json hpath => endsAsForeseen_show_iff hpath hread terminal json

/-- Commands in the working directory. -/
def aroundHere : Surroundings Rehearsal := ⟨Rehearsal.clouds, .ofEnvironment [], "."⟩

/-- A run on EC2 with the ledger file of the working directory. -/
def runHere : Provisioning Rehearsal :=
  ⟨Ec2.provider Rehearsal.clouds.ec2 (some "vpc-1"), "./" ++ Ledger.fileName, pure "203.0.113.7"⟩

/-- A host whose working directory holds a ledger file with these bytes. -/
def hostWith (content : List UInt8) : Host Rehearsal :=
  ⟨⟨[(["srv"], .directory), (["srv", Ledger.fileName], .file content 0o644)], ["srv"]⟩, [],
    ⟨{}, [], [], 0⟩⟩

attribute [local instance] Json.Nesting.usual

/-- An array that does not end is no ledger, but it is not beyond the reader. -/
theorem unfinished_array_within_contract :
    (hostWith [0x5b]).files.read runHere.ledgerPath = .ok [0x5b] ∧
      Path.fault? (hostWith [0x5b]).files.workDir.path = none ∧
      (∃ recorded, ((runHere.trackInstance "i-1" none).runOn (hostWith [0x5b])).1 = .ok recorded) ∧
      (run aroundHere (.show true)).EndsAsForeseen (.start "") (hostWith [0x5b]) := by
  have hread : (hostWith [0x5b]).files.read runHere.ledgerPath = .ok [0x5b] := by decide +kernel
  have hworkDir : Path.fault? (hostWith [0x5b]).files.workDir.path = none := by decide +kernel
  have hpath : Ledger.pathIn (hostWith [0x5b]).files aroundHere.directory = .ok runHere.ledgerPath := by
    decide +kernel
  obtain ⟨-, htrack, -, hshow, -, -, -, hmodest⟩ := within_contract_iff_not_beyond hread hworkDir
  have hbeyond : ¬ Json.Beyond [0x5b] := by
    refine hmodest ['['] ⟨by decide +kernel, fun row hrow _ => ?_⟩ rfl
    exact Nat.le_trans hrow.length_le (by decide +kernel)
  refine ⟨hread, hworkDir, (htrack _ _).2 ⟨hbeyond, ?_⟩, ?_⟩
  · rintro ⟨-, c, hc, -⟩
    cases hc
  exact (hshow aroundHere _ true hpath).2 ⟨hbeyond, fun ledger _ h => by cases h.1⟩

/-- A byte that no text begins with ends every caller. -/
theorem stray_byte_ends_all :
    (hostWith [0xff]).files.read runHere.ledgerPath = .ok [0xff] ∧
      (¬ ∃ ledger, Ledger.load (hostWith [0xff]).files runHere.ledgerPath = .ok ledger) ∧
      (¬ ∃ fault, Ledger.load (hostWith [0xff]).files runHere.ledgerPath = .error (.ledger fault)) ∧
      (¬ ∃ recorded, ((runHere.trackInstance "i-1" none).runOn (hostWith [0xff])).1 = .ok recorded) ∧
      (¬ ∃ group,
        ((runHere.ensureGroup "cluster" "10.0.0.0/16").runOn (hostWith [0xff])).1 = .ok group) ∧
      ¬ (run aroundHere (.show true)).EndsAsForeseen (.start "") (hostWith [0xff]) := by
  have hread : (hostWith [0xff]).files.read runHere.ledgerPath = .ok [0xff] := by decide +kernel
  have hworkDir : Path.fault? (hostWith [0xff]).files.workDir.path = none := by decide +kernel
  have hpath : Ledger.pathIn (hostWith [0xff]).files aroundHere.directory = .ok runHere.ledgerPath := by
    decide +kernel
  have hdecode : decode [0xff] = .error ⟨0, 0xff, 1, .invalidStart⟩ := rfl
  have hbeyond := Json.beyond_of_decode hdecode
  have hload : Ledger.load (hostWith [0xff]).files runHere.ledgerPath
      = .error (.encoding ⟨0, 0xff, 1, .invalidStart⟩) := by decide +kernel
  have hensure : ((runHere.ensureGroup "cluster" "10.0.0.0/16").runOn (hostWith [0xff])).1
      = .error (.encoding ⟨0, 0xff, 1, .invalidStart⟩) := by decide +kernel
  rw [hload, hensure]
  refine ⟨hread, ?_, ?_, fun h => ?_, ?_, fun h => ?_⟩
  · rintro ⟨ledger, heq⟩
    cases heq
  · rintro ⟨fault, heq⟩
    cases heq
  · exact ((Provisioning.exists_ok_trackInstance_iff hread hworkDir "i-1" none).1 h).1 hbeyond
  · rintro ⟨group, heq⟩
    cases heq
  · exact ((endsAsForeseen_show_iff hpath hread _ true).1 h).1 hbeyond

end Command

end NodeLedger
