import NodeLedger.Cloud.Rehearsal
import NodeLedger.Command.Run
import NodeLedger.Proofs.Address.Canonical
import NodeLedger.Proofs.Command.Shell
import NodeLedger.Proofs.Json.Lines
import NodeLedger.Proofs.Policy.Draft
import NodeLedger.Proofs.Sequence
import NodeLedger.Proofs.Text.Fields

/-!
# Plans on the command line

A plan shows the changes that a policy asks of the rules in a file, as the same kind of file. A file
that holds no rules is reported with the reason. A file that holds drafts may still end the program:
a source that is no text is looked at only when it is compared.

- `AsksFor`, `CommandLine`: a command line that asks for a command. `exists_runOn_runWords`: then the
  command is run; `asksFor_planWords`: **every plan can be asked for**.
- `runOn_plan_of_error`, `runOn_plan_of_ok`: the two ways in which a plan begins.
- `readRules_of_rules`: **the file that a plan writes is read back**.
- `plan_reads_back`: **the plan for an empty group, read as the group's rules, asks for nothing**.
- `tellsOfRules_iff`: **with which files a plan ends as foreseen**, with a list or with a report.
-/

namespace NodeLedger

open Cloud Policy Text

/-- The terminal after a text was written. -/
def Terminal.wrote (terminal : Terminal) (text : String) : Terminal :=
  { terminal with output := terminal.output ++ text }

namespace Command

variable {σ : Type}

/-! ## From words to a command -/

/-- The words ask for the command: they can be read, and the log level that they name is one. -/
def AsksFor (settings : Settings) (tree : FileTree) (words : List String) (command : Command) : Prop :=
  ∃ opening, Opening.read words = .ok opening ∧
    (threshold ((opening.logLevel.filter (· != "")).getD settings.logLevel)).isOk = true ∧
    Command.read tree opening.name opening.words = .ok command

section Lines

variable {settings : Settings} {words : List String} {host : Host σ} {command : Command}

/-- What words ask for is run. -/
theorem exists_runOn_runWords [Json.Nesting] (clouds : Clouds σ)
    (h : AsksFor settings host.files words command) (terminal : Terminal) :
    ∃ directory, (runWords clouds settings words).runOn terminal host
      = (run ⟨clouds, settings, directory⟩ command).runOn terminal host := by
  obtain ⟨opening, hopening, hlevel, hread⟩ := h
  obtain ⟨level, hlevel⟩ := exists_of_isOk hlevel
  refine ⟨((opening.directory.filter (· != "")).map CodeText.ofString).getD settings.ledgerDirectory, ?_⟩
  have hwords : runWords.liftExcept (Opening.read words) = (pure opening : Shell σ Opening) := by
    rw [hopening]
    rfl
  have hcommand : runWords.liftExcept (Command.read host.files opening.name opening.words)
      = (pure command : Shell σ Command) := by
    rw [hread]
    rfl
  unfold runWords
  rw [hwords, Shell.runOn_bind_of_ok (Shell.runOn_pure opening terminal host)]
  dsimp only
  rw [hlevel]
  dsimp only
  rw [Shell.runOn_bind_of_ok (Shell.runOn_get terminal host), hcommand,
    Shell.runOn_bind_of_ok (Shell.runOn_pure command terminal host)]

/-- The outcome of a run with this ending. -/
def Outcome.of (terminal : Terminal) : Except Ending Unit → Outcome
  | .ok () => ⟨0, terminal, none⟩
  | .error (.exit status) => ⟨status, terminal, none⟩
  | .error (.crash fault) => ⟨1, terminal, some fault⟩

end Lines

/-- An option with its value attached is read, whatever the value is. -/
theorem readOptions_attached (table : OptionTable) (name : String)
    (hdash : name.toList.head? = some '-') (hequals : '=' ∉ name.toList)
    (hvalued : table.valued.contains name = true) (value : String) (rest : List String) :
    readOptions table ((name ++ "=" ++ value) :: rest)
      = (readOptions table rest).map (·.withValue name value) := by
  have hchars : (name ++ "=" ++ value).toList = name.toList ++ '=' :: value.toList := by simp
  have hword : name ++ "=" ++ value ≠ "--" := by
    intro heq
    have hmem : '=' ∈ (name ++ "=" ++ value).toList := by
      rw [hchars]
      exact List.mem_append_right _ List.mem_cons_self
    rw [heq] at hmem
    exact absurd hmem (by decide)
  have hoption : looksLikeOption (name ++ "=" ++ value) = true := by
    obtain ⟨cs, hcs⟩ : ∃ cs, name.toList = '-' :: cs := by
      cases hname : name.toList with
      | nil =>
        rw [hname] at hdash
        cases hdash
      | cons c cs =>
        rw [hname] at hdash
        cases hdash
        exact ⟨cs, rfl⟩
    rw [looksLikeOption, ← String.length_toList, hchars, hcs]
    simp
  have hsplit : splitOption (name ++ "=" ++ value) = (name, some value) := by
    rw [splitOption, hchars, cutAt?_append_cons hequals]
    simp
  rw [readOptions, if_neg hword, hoption, hsplit]
  exact if_pos hvalued

/-- The word of a cloud. -/
def cloudWord : CloudName → String
  | .ec2 => "aws"
  | .azure => "azure"

/-- Words that ask for a plan. -/
def planWords (file : String) (cloud : CloudName) (network requester : String) : List String :=
  ["plan-rules", "--provider" ++ "=" ++ cloudWord cloud, "--cidr" ++ "=" ++ network,
    "--ip" ++ "=" ++ requester, "--", file]

/-- **Every plan can be asked for**: with any network and any address, for any file. -/
theorem asksFor_planWords {settings : Settings} {tree : FileTree} {file : String}
    (hlevel : (threshold settings.logLevel).isOk = true) (hfile : checkFile tree file = .ok ())
    (cloud : CloudName) (network requester : String) :
    AsksFor settings tree (planWords file cloud network requester)
      (.plan file cloud network (some requester)) := by
  have hreading : readOwn ["--provider", "--cidr", "--ip"] [] true
      (planWords file cloud network requester).tail
        = .ok ⟨[("--provider", cloudWord cloud), ("--cidr", network), ("--ip", requester)], [],
          [file]⟩ := by
    rw [planWords, List.tail_cons, readOwn,
      readOptions_attached _ "--provider" (by decide) (by decide) (by decide),
      readOptions_attached _ "--cidr" (by decide) (by decide) (by decide),
      readOptions_attached _ "--ip" (by decide) (by decide) (by decide)]
    rfl
  refine ⟨⟨none, none, .plan, (planWords file cloud network requester).tail⟩, rfl, hlevel, ?_⟩
  show readPlan tree (planWords file cloud network requester).tail = _
  rw [readPlan, hreading]
  have hrest : (do
        checkFile tree file
        return .plan file cloud network (some requester) : Except Stop Command)
      = .ok (.plan file cloud network (some requester)) := by
    rw [hfile]
    rfl
  cases cloud <;> exact hrest

/-- A command line that asks for a command, and what it is run with. -/
structure CommandLine (σ : Type) (command : Command) where
  settings : Settings
  words : List String
  /-- The text that will be typed. -/
  typed : String
  host : Host σ
  asks : AsksFor settings host.files words command

namespace CommandLine

variable {command : Command}

/-- The outcome of the command line. -/
def outcome [Json.Nesting] (line : CommandLine σ command) (clouds : Clouds σ) : Outcome :=
  (runLine clouds line.settings line.words line.typed line.host).1

/-- The command decides the outcome of the line. -/
theorem outcome_eq [Json.Nesting] (line : CommandLine σ command) (clouds : Clouds σ)
    (ending : Except Ending Unit) (after : Host σ) {later : Terminal}
    (hrun : ∀ directory, (run ⟨clouds, line.settings, directory⟩ command).runOn (.start line.typed)
      line.host = (ending, later, after)) :
    line.outcome clouds = .of later ending := by
  obtain ⟨directory, hwords⟩ := exists_runOn_runWords clouds line.asks (.start line.typed)
  have hline : StateT.run (ExceptT.run (runWords clouds line.settings line.words))
      (.start line.typed, line.host) = (ending, later, after) := hwords.trans (hrun directory)
  rw [outcome, runLine, hline]
  match ending with
  | .ok () => rfl
  | .error (.exit status) => rfl
  | .error (.crash fault) => rfl

end CommandLine

/-! ## One plan -/

section Plans

variable {clouds : Clouds σ} {around : Surroundings σ} {file network : String} {cloud : CloudName}
  {asked : Option String} {host : Host σ} {current : List DraftRule} {requester : String}

/-- The report on a file that holds no rules. -/
def rulesReport (file message : String) : CodeText :=
  "❌ " ++ (s!"Invalid rules file {file}: {message}" : CodeText)

/-- A file that holds no rules is reported, and nothing else is done. Values that are nested too deep
end the program. -/
theorem runOn_plan_of_error [Json.Nesting] {fault : RulesFault}
    (hread : readRules host.files file = .error fault) (terminal : Terminal) :
    (run around (.plan file cloud network asked)).runOn terminal host =
      match fault.message? with
      | some message => (.error (.exit 1), terminal.complained (rulesReport file message), host)
      | none => (.error (.crash .nestedTooDeep), terminal, host) := by
  rw [run, runPlan, Shell.runOn_bind_of_ok (Shell.runOn_get terminal host)]
  dsimp only
  rw [hread]
  dsimp only
  cases fault.message? <;> rfl

/-- The operator's address: what is asked for, or what the usual service says if that is nothing. -/
def addressJob (clouds : Clouds σ) (settings : Settings) (asked : Option String) : Job σ String :=
  match asked.filter (· != "") with
  | some requester => pure requester
  | none => Lookup.ownAddress clouds.web settings none Lookup.defaultTimeout

/-- What a plan shows once the address is known. -/
def showPlan (current : List DraftRule) (network : String) (cloud : CloudName) (requester : String) :
    Shell σ Unit :=
  match DraftRule.plan current requester network (policyOf cloud) with
  | .error .notText => throw (.crash .sourceNotText)
  | .ok changes => Shell.writeLine (DraftRule.document changes).indented

/-- Drafts are planned for once the operator's address is known. -/
theorem runOn_plan_of_ok [Json.Nesting] (hread : readRules host.files file = .ok current)
    (terminal : Terminal) :
    (run around (.plan file cloud network asked)).runOn terminal host =
      (Shell.attempt (addressJob around.clouds around.settings asked)
        >>= showPlan current network cloud).runOn terminal host := by
  have hplan : (run around (.plan file cloud network asked)).runOn terminal host
      = Shell.runOn (do
        let requester ← match asked.filter (· != "") with
          | some requester => pure requester
          | none => Shell.attempt around.ownAddress
        showPlan current network cloud requester) terminal host := by
    rw [run, runPlan, Shell.runOn_bind_of_ok (Shell.runOn_get terminal host)]
    dsimp only
    rw [hread]
    rfl
  rw [hplan, addressJob]
  cases asked.filter (· != "") <;> rfl

theorem runOn_showPlan_of_error
    (h : DraftRule.plan current requester network (policyOf cloud) = .error .notText)
    (terminal : Terminal) (host : Host σ) :
    (showPlan current network cloud requester).runOn terminal host
      = (.error (.crash .sourceNotText), terminal, host) := by
  rw [showPlan, h]
  rfl

/-- A plan is shown as it is: it is a document, and those hold nothing that a terminal leaves out. -/
theorem runOn_showPlan_of_ok {changes : List DraftRule}
    (h : DraftRule.plan current requester network (policyOf cloud) = .ok changes)
    (terminal : Terminal) (host : Host σ) :
    (showPlan current network cloud requester).runOn terminal host
      = (.ok (), terminal.wrote ((DraftRule.document changes).indented ++ "\n"), host) := by
  rw [showPlan, h]
  show (Shell.writeLine (DraftRule.document changes).indented).runOn terminal host = _
  rw [Shell.writeLine, Json.visible_indented, CodeText.proper_ofString]
  rfl

theorem message?_eq_none_iff {fault : RulesFault} :
    fault.message? = none ↔ fault = .document (.text .tooDeep) := by
  constructor
  · intro h
    match fault with
    | .document (.text .tooDeep) => rfl
  · rintro rfl
    rfl

end Plans

/-! ## The outcome of a plan -/

namespace CommandLine

variable {file network : String} {cloud : CloudName} {asked : Option String}
  (line : CommandLine σ (.plan file cloud network asked)) (clouds : Clouds σ)
  {current : List DraftRule} {requester message : String}

/-- The operator's address, as the command line finds it. -/
def address (line : CommandLine σ (.plan file cloud network asked)) (clouds : Clouds σ) :
    Except Fault String :=
  ((addressJob clouds line.settings asked).runOn line.host).1

theorem outcome_of_error [Json.Nesting] {fault : RulesFault}
    (hread : readRules line.host.files file = .error fault)
    (hmessage : fault.message? = some message) :
    line.outcome clouds
      = ⟨1, (Terminal.start line.typed).complained (rulesReport file message), none⟩ := by
  refine line.outcome_eq clouds (.error (.exit 1)) line.host fun directory => ?_
  rw [runOn_plan_of_error hread, hmessage]

theorem outcome_of_tooDeep [Json.Nesting]
    (hread : readRules line.host.files file = .error (.document (.text .tooDeep))) :
    line.outcome clouds = ⟨1, .start line.typed, some .nestedTooDeep⟩ :=
  line.outcome_eq clouds (.error (.crash .nestedTooDeep)) line.host
    fun _ => runOn_plan_of_error hread _

/-- Without an address nothing is shown. -/
theorem outcome_of_no_address [Json.Nesting] {fault : Fault}
    (hread : readRules line.host.files file = .ok current)
    (haddress : line.address clouds = .error fault) : (line.outcome clouds).status = 1 := by
  have hjob : (addressJob clouds line.settings asked).runOn line.host
      = (.error fault, ((addressJob clouds line.settings asked).runOn line.host).2) :=
    Prod.ext haddress rfl
  have hattempt := Shell.runOn_attempt_of_error hjob (.start line.typed)
  by_cases hexpected : fault.isOf .expected = true
  · rw [if_pos hexpected] at hattempt
    rw [line.outcome_eq clouds _ _ fun directory =>
      (runOn_plan_of_ok hread _).trans (Shell.runOn_bind_of_error hattempt _)]
    rfl
  · rw [if_neg hexpected] at hattempt
    rw [line.outcome_eq clouds _ _ fun directory =>
      (runOn_plan_of_ok hread _).trans (Shell.runOn_bind_of_error hattempt _)]
    rfl

theorem runOn_plan_of_address [Json.Nesting] (hread : readRules line.host.files file = .ok current)
    (haddress : line.address clouds = .ok requester) (directory : CodeText) :
    (run ⟨clouds, line.settings, directory⟩ (.plan file cloud network asked)).runOn
        (.start line.typed) line.host
      = (showPlan current network cloud requester).runOn (.start line.typed)
        ((addressJob clouds line.settings asked).runOn line.host).2 := by
  have hjob : (addressJob clouds line.settings asked).runOn line.host
      = (.ok requester, ((addressJob clouds line.settings asked).runOn line.host).2) :=
    Prod.ext haddress rfl
  rw [runOn_plan_of_ok hread, Shell.runOn_bind_of_ok (Shell.runOn_attempt_of_ok hjob _)]

theorem outcome_of_halt [Json.Nesting] (hread : readRules line.host.files file = .ok current)
    (haddress : line.address clouds = .ok requester)
    (hplan : DraftRule.plan current requester network (policyOf cloud) = .error .notText) :
    line.outcome clouds = ⟨1, .start line.typed, some .sourceNotText⟩ :=
  line.outcome_eq clouds (.error (.crash .sourceNotText)) _ fun directory =>
    (line.runOn_plan_of_address clouds hread haddress directory).trans
      (runOn_showPlan_of_error hplan _ _)

theorem outcome_of_plan [Json.Nesting] {changes : List DraftRule}
    (hread : readRules line.host.files file = .ok current)
    (haddress : line.address clouds = .ok requester)
    (hplan : DraftRule.plan current requester network (policyOf cloud) = .ok changes) :
    line.outcome clouds
      = ⟨0, (Terminal.start line.typed).wrote ((DraftRule.document changes).indented ++ "\n"), none⟩ :=
  line.outcome_eq clouds (.ok ()) _ fun directory =>
    (line.runOn_plan_of_address clouds hread haddress directory).trans
      (runOn_showPlan_of_ok hplan _ _)

end CommandLine

/-! ## Plans as files of rules -/

section Files

variable {tree : FileTree} {file network requester : String} {cloud : CloudName}
  {rules : List SecurityRule}

/-- A document of drafts is read back from its file, with a line end after it or none. -/
theorem readFile_of_document [Json.Nesting] {drafts : List DraftRule}
    (h : ∀ draft ∈ drafts, draft.Readable) {ends : List Char} (hends : ∀ c ∈ ends, c = '\n')
    (hread : tree.read file
      = .ok (encode ((DraftRule.document drafts).indented.toList ++ ends))) :
    Json.readFile tree file = .ok (DraftRule.document drafts) := by
  rw [Json.readFile, hread]
  exact Json.readBytes_indented (DraftRule.readable_document h) hends

theorem readRules_of_document [Json.Nesting] {drafts : List DraftRule}
    (hread : Json.readFile tree file = .ok (DraftRule.document drafts)) :
    readRules tree file = .ok drafts := by
  rw [readRules, hread]
  show (DraftRule.ofDocument (DraftRule.document drafts)).mapError RulesFault.draft = _
  rw [DraftRule.ofDocument_document]
  rfl

/-- **The file that a plan for rules writes is read back.** -/
theorem readRules_of_rules [Json.Nesting]
    (h : ∀ rule ∈ rules, ∀ n ∈ rule.priority, (decimal n.natAbs).length ≤ digitLimit)
    {ends : List Char} (hends : ∀ c ∈ ends, c = '\n')
    (hread : tree.read file
      = .ok (encode ((DraftRule.document (rules.map .ofRule)).indented.toList ++ ends))) :
    readRules tree file = .ok (rules.map .ofRule) := by
  refine readRules_of_document (readFile_of_document (fun draft hdraft => ?_) hends hread)
  obtain ⟨rule, hrule, rfl⟩ := List.mem_map.1 hdraft
  exact DraftRule.readable_ofRule (h rule hrule)

theorem nodup_names_policyOf (cloud : CloudName) : ((policyOf cloud).map (·.name)).Nodup := by
  cases cloud <;> decide

/-- The priorities of the policies are short. -/
theorem length_priority_policyOf (cloud : CloudName) :
    ∀ required ∈ policyOf cloud, (decimal required.priority.natAbs).length ≤ digitLimit := by
  cases cloud <;> decide

namespace CommandLine

/-- A plan for rules shows what the rules lack. -/
theorem outcome_of_rules [Json.Nesting]
    (line : CommandLine σ (.plan file cloud network (some requester))) (clouds : Clouds σ)
    (hrequester : requester ≠ "")
    (hread : readRules line.host.files file = .ok (rules.map .ofRule)) :
    line.outcome clouds
      = ⟨0, (Terminal.start line.typed).wrote
        ((DraftRule.document ((reconcile rules (policyOf cloud) requester network).map .ofRule)).indented
          ++ "\n"), none⟩ := by
  have hasked : (some requester).filter (· != "") = some requester :=
    Option.filter_some_pos (bne_iff_ne.2 hrequester)
  refine line.outcome_of_plan clouds hread ?_ (DraftRule.plan_ofRule rules requester network _)
  rw [address, addressJob, hasked]
  rfl

end CommandLine

/-- **Plans are files of rules**. A document of rules is read back as the same rules, whatever texts
they are made of, as long as no priority is too long to be read; and what a plan shows for a group
without rules is a file for which the same plan shows an empty list. -/
theorem plan_reads_back [Json.Nesting] (clouds : Clouds σ) :
    (∀ (tree : FileTree) (file : String) (rules : List SecurityRule),
      (∀ rule ∈ rules, ∀ n ∈ rule.priority, (decimal n.natAbs).length ≤ digitLimit) →
      tree.read file = .ok (encode (DraftRule.document (rules.map .ofRule)).indented.toList) →
        readRules tree file = .ok (rules.map .ofRule)) ∧
      Function.Injective DraftRule.ofRule ∧
      ∀ (cloud : CloudName) (network requester file later : String)
        (first : CommandLine σ (.plan file cloud network (some requester)))
        (second : CommandLine σ (.plan later cloud network (some requester))),
        requester ≠ "" → readRules first.host.files file = .ok [] →
        second.host.files.read later
            = .ok (encode (first.outcome clouds).terminal.output.toList) →
          second.outcome clouds = ⟨0, (Terminal.start second.typed).wrote "[]\n", none⟩ := by
  refine ⟨fun tree file rules hpriorities hread => ?_, DraftRule.ofRule_injective, ?_⟩
  · refine readRules_of_rules hpriorities (List.forall_mem_nil _) ?_
    rw [hread, List.append_nil]
  · intro cloud network requester file later first second hrequester hfirst hread
    have hnone : readRules first.host.files file = .ok (([] : List SecurityRule).map .ofRule) := hfirst
    rw [first.outcome_of_rules clouds hrequester hnone] at hread
    have hwritten : second.host.files.read later
        = .ok (encode ((DraftRule.document ((reconcile [] (policyOf cloud) requester network).map
          .ofRule)).indented.toList ++ ['\n'])) := by
      rw [hread]
      simp [Terminal.wrote, Terminal.start]
    have hrules : readRules second.host.files later
        = .ok ((reconcile [] (policyOf cloud) requester network).map .ofRule) := by
      refine readRules_of_rules (fun rule hrule n hn => ?_) (List.forall_mem_singleton.2 rfl) hwritten
      rw [reconcile_nil] at hrule
      obtain ⟨required, hrequired, rfl⟩ := List.mem_map.1 hrule
      obtain rfl : required.priority = n := Option.some.inj hn
      exact length_priority_policyOf cloud required hrequired
    rw [second.outcome_of_rules clouds hrequester hrules,
      reconcile_reconcile_nil requester network (nodup_names_policyOf cloud)]
    rfl

end Files

/-- A host whose working directory holds a file of rules with this text. -/
def rulesHost (text : String) : Host Rehearsal :=
  ⟨⟨[(["srv"], .directory), (["srv", "rules.json"], .file (encode text.toList) 0o644)], ["srv"]⟩, [],
    ⟨{}, [], [], 0⟩⟩

theorem read_rulesHost (text : String) :
    (rulesHost text).files.read "rules.json" = .ok (encode text.toList) := rfl

/-- A plan on EC2 for a file of rules with this text. -/
def planLine (text : String) :
    CommandLine Rehearsal (.plan "rules.json" .ec2 "10.0.0.0/16" (some "203.0.113.7")) where
  settings := .ofEnvironment []
  words := planWords "rules.json" .ec2 "10.0.0.0/16" "203.0.113.7"
  typed := ""
  host := rulesHost text
  asks := asksFor_planWords (by decide) rfl _ _ _

theorem read_planLine (drafts : List DraftRule) :
    (planLine (DraftRule.document drafts).indented).host.files.read "rules.json"
      = .ok (encode ((DraftRule.document drafts).indented.toList ++ [])) := by
  rw [List.append_nil]
  rfl

attribute [local instance] Json.Nesting.usual

/-- A rule whose texts need escapes, with a negative priority and an empty source; and the plan for an
empty list. -/
theorem plan_reads_back_on_ec2 :
    let rules : List SecurityRule :=
      [⟨some "Büro \"7\"", .all, ["10.0.0.0/16", ""], "1-\t2", some (-5)⟩, ⟨none, .tcp, [], "", none⟩]
    let written := (DraftRule.document (rules.map .ofRule)).indented
    let planned := ((planLine "[]").outcome Rehearsal.clouds).terminal.output
    readRules (rulesHost written).files "rules.json" = .ok (rules.map .ofRule) ∧
      (planLine planned).outcome Rehearsal.clouds = ⟨0, (Terminal.start "").wrote "[]\n", none⟩ := by
  intro rules written planned
  obtain ⟨hback, -, hagain⟩ := plan_reads_back Rehearsal.clouds
  have hpriorities : ∀ rule ∈ rules, ∀ n ∈ rule.priority,
      (decimal n.natAbs).length ≤ digitLimit := by decide
  have hempty : readRules (planLine "[]").host.files "rules.json" = .ok [] :=
    readRules_of_document (readFile_of_document (List.forall_mem_nil _) (List.forall_mem_nil _)
      (read_planLine []))
  exact ⟨hback _ _ rules hpriorities (read_rulesHost written),
    hagain .ec2 _ _ _ _ (planLine "[]") (planLine planned) (by decide) hempty
      (read_rulesHost planned)⟩

/-! ## Plans that end as foreseen -/

/-- The program has shown a list, or it has reported why the file holds no rules. -/
def Outcome.TellsOfRules [Json.Nesting] (outcome : Outcome) (tree : FileTree)
    (file typed : String) : Prop :=
  (∃ items, outcome
      = ⟨0, (Terminal.start typed).wrote ((Json.arr items).indented ++ "\n"), none⟩) ∨
    ∃ fault message, readRules tree file = .error fault ∧ fault.message? = some message ∧
      outcome = ⟨1, (Terminal.start typed).complained (rulesReport file message), none⟩

namespace CommandLine

variable {file network : String} {cloud : CloudName} {asked : Option String}
  (line : CommandLine σ (.plan file cloud network asked)) (clouds : Clouds σ)

/-- A file that holds no rules is reported unless its values are nested too deep. -/
theorem tellsOfRules_iff_of_error [Json.Nesting] {fault : RulesFault}
    (hread : readRules line.host.files file = .error fault) :
    (line.outcome clouds).TellsOfRules line.host.files file line.typed ↔
      fault ≠ .document (.text .tooDeep) := by
  cases hmessage : fault.message? with
  | some message =>
    refine iff_of_true (.inr ⟨fault, message, hread, hmessage, ?_⟩) fun heq => ?_
    · exact line.outcome_of_error clouds hread hmessage
    · rw [message?_eq_none_iff.2 heq] at hmessage
      cases hmessage
  | none =>
    obtain rfl := message?_eq_none_iff.1 hmessage
    refine iff_of_false ?_ (not_not.2 rfl)
    rw [line.outcome_of_tooDeep clouds hread]
    rintro (⟨items, heq⟩ | ⟨fault, message, -, -, heq⟩)
    · exact Option.some_ne_none _ (congrArg Outcome.crash heq)
    · exact Option.some_ne_none _ (congrArg Outcome.crash heq)

/-- For drafts a list is shown if there is an address and no required rule halts. -/
theorem tellsOfRules_iff_of_ok [Json.Nesting] {current : List DraftRule}
    (hread : readRules line.host.files file = .ok current) :
    (line.outcome clouds).TellsOfRules line.host.files file line.typed ↔
      ∃ requester, line.address clouds = .ok requester ∧
        ∀ required ∈ policyOf cloud, ¬ DraftRule.HaltsFor current requester network required := by
  have hlist : (line.outcome clouds).TellsOfRules line.host.files file line.typed ↔
      ∃ items, line.outcome clouds
        = ⟨0, (Terminal.start line.typed).wrote ((Json.arr items).indented ++ "\n"), none⟩ := by
    refine or_iff_left ?_
    rintro ⟨fault, message, herror, -, -⟩
    rw [hread] at herror
    cases herror
  rw [hlist]
  cases haddress : line.address clouds with
  | error fault =>
    have hstatus := line.outcome_of_no_address clouds hread haddress
    refine iff_of_false ?_ ?_
    · rintro ⟨items, heq⟩
      rw [heq] at hstatus
      exact Nat.zero_ne_one hstatus
    · rintro ⟨requester, heq, -⟩
      cases heq
  | ok requester =>
    cases hplan : DraftRule.plan current requester network (policyOf cloud) with
    | error fault =>
      obtain ⟨required, hrequired, hhalts⟩ := DraftRule.plan_eq_error_iff.1 hplan
      refine iff_of_false ?_ ?_
      · rw [line.outcome_of_halt clouds hread haddress hplan]
        rintro ⟨items, heq⟩
        exact Option.some_ne_none _ (congrArg Outcome.crash heq)
      · rintro ⟨other, heq, hnone⟩
        cases heq
        exact hnone required hrequired hhalts
    | ok changes =>
      refine iff_of_true ⟨_, line.outcome_of_plan clouds hread haddress hplan⟩
        ⟨requester, rfl, fun required hrequired hhalts => ?_⟩
      rw [DraftRule.plan_eq_error_iff.2 ⟨required, hrequired, hhalts⟩] at hplan
      cases hplan

end CommandLine

/-- **With which files a plan ends as foreseen.** Either the file holds no rules, and the reason is
reported; or it holds drafts, the operator's address is known, and no required rule comes to compare a
source that is no text. Values that are nested too deep are never reported, and such a comparison ends
the program. Where all sources are texts, there is none. -/
theorem tellsOfRules_iff [Json.Nesting] {file network : String} {cloud : CloudName}
    {asked : Option String} (line : CommandLine σ (.plan file cloud network asked))
    (clouds : Clouds σ) :
    ((line.outcome clouds).TellsOfRules line.host.files file line.typed ↔
        readRules line.host.files file ≠ .error (.document (.text .tooDeep)) ∧
          ∀ current, readRules line.host.files file = .ok current →
            ∃ requester, line.address clouds = .ok requester ∧
              ∀ required ∈ policyOf cloud,
                ¬ DraftRule.HaltsFor current requester network required) ∧
      ((∃ current requester, readRules line.host.files file = .ok current ∧
          line.address clouds = .ok requester ∧
          ∃ required ∈ policyOf cloud, DraftRule.HaltsFor current requester network required) →
        line.outcome clouds = ⟨1, .start line.typed, some .sourceNotText⟩) ∧
      ∀ current requester, readRules line.host.files file = .ok current →
        line.address clouds = .ok requester →
        (∀ draft ∈ current, ∀ source ∈ draft.sources, (source.str?).isSome = true) →
        (line.outcome clouds).TellsOfRules line.host.files file line.typed := by
  refine ⟨?_, ?_, fun current requester hread haddress htexts => ?_⟩
  · cases hread : readRules line.host.files file with
    | error fault =>
      rw [line.tellsOfRules_iff_of_error clouds hread]
      constructor
      · intro hne
        refine ⟨fun heq => hne (Except.error.inj heq), fun current heq => ?_⟩
        cases heq
      · rintro ⟨hne, -⟩ rfl
        exact hne rfl
    | ok current =>
      rw [line.tellsOfRules_iff_of_ok clouds hread]
      constructor
      · intro h
        refine ⟨?_, fun other heq => Except.ok.inj heq ▸ h⟩
        rintro ⟨⟩
      · rintro ⟨-, h⟩
        exact h current rfl
  · rintro ⟨current, requester, hread, haddress, hhalts⟩
    exact line.outcome_of_halt clouds hread haddress (DraftRule.plan_eq_error_iff.2 hhalts)
  · rw [line.tellsOfRules_iff_of_ok clouds hread]
    exact ⟨requester, haddress, fun _ _ => DraftRule.not_haltsFor_of_texts htexts⟩

/-- A draft for WinRM with these sources, and nothing else. -/
def winRMDraft (sources : List Json) : DraftRule :=
  ⟨.str "WinRM", .tcp, sources, "*", .null⟩

/-- The plan for a file with one draft for WinRM. -/
def winRMLine (sources : List Json) :
    CommandLine Rehearsal (.plan "rules.json" .ec2 "10.0.0.0/16" (some "203.0.113.7")) :=
  planLine (DraftRule.document [winRMDraft sources]).indented

theorem readFile_winRMLine [Json.Nesting] {sources : List Json}
    (h : ∀ source ∈ sources, Json.Readable (Json.Nesting.limit - 3) source) :
    Json.readFile (winRMLine sources).host.files "rules.json"
      = .ok (DraftRule.document [winRMDraft sources]) := by
  have hdraft : (winRMDraft sources).Readable :=
    ⟨DraftRule.readable_text _ "WinRM", h, CodeText.unsplit_ofString "*", .scalar .null⟩
  exact readFile_of_document (List.forall_mem_singleton.2 hdraft) (List.forall_mem_nil _)
    (read_planLine _)

/-- Such a draft stops a plan only at its own sources. -/
theorem halts_of_haltsFor {sources : List Json} {requester network : String}
    {required : RequiredRule}
    (h : DraftRule.HaltsFor [winRMDraft sources] requester network required) :
    required.name = "WinRM" ∧
      (winRMDraft sources).Halts (required.source requester network) := by
  rcases h with ⟨-, before, draft, after, heq, -⟩ | ⟨-, draft, hfind, hhalts⟩
  · -- The draft is no draft for every protocol.
    exact absurd heq.symm (List.append_ne_nil_of_right_ne_nil before (List.cons_ne_nil draft after))
  · have hmem := List.mem_singleton.1 (List.mem_of_find?_eq_some hfind)
    have hnamed := List.find?_some hfind
    rw [hmem] at hnamed hhalts
    have hname : some (CodeText.ofString "WinRM") = some (CodeText.ofString required.name) :=
      beq_iff_eq.1 hnamed
    exact ⟨(CodeText.ofString_inj.1 (Option.some.inj hname)).symm, hhalts⟩

/-- A number after the address of the operator is never compared. -/
theorem unread_number_is_planned_for :
    let line := winRMLine [.str "203.0.113.7", .int 5]
    (line.outcome Rehearsal.clouds).TellsOfRules line.host.files "rules.json" line.typed := by
  intro line
  have hsources : ∀ source ∈ [Json.str "203.0.113.7", .int 5],
      Json.Readable (Json.Nesting.limit - 3) source :=
    List.forall_mem_cons.2 ⟨DraftRule.readable_text _ "203.0.113.7",
      List.forall_mem_singleton.2 (.scalar (.int 5 (by decide)))⟩
  have hread : readRules line.host.files "rules.json"
      = .ok [winRMDraft [.str "203.0.113.7", .int 5]] :=
    readRules_of_document (readFile_winRMLine hsources)
  refine (tellsOfRules_iff line Rehearsal.clouds).1.2 ⟨?_, fun current hcurrent => ?_⟩
  · rw [hread]
    rintro ⟨⟩
  · rw [hread] at hcurrent
    cases hcurrent
    refine ⟨"203.0.113.7", rfl, fun required hrequired hhalts => ?_⟩
    obtain ⟨hname, before, value, after, heq, hbefore, hvalue⟩ := halts_of_haltsFor hhalts
    have hsource : required.source "203.0.113.7" "10.0.0.0/16" = Address.canonical "203.0.113.7" := by
      simp only [policyOf, ec2Rules, List.mem_cons, List.not_mem_nil, or_false] at hrequired
      rcases hrequired with rfl | rfl | rfl | rfl
      · rfl
      · exact absurd hname (by decide)
      · exact absurd hname (by decide)
      · exact absurd hname (by decide)
    rw [hsource] at hbefore
    cases before with
    | nil =>
      obtain ⟨rfl, -⟩ := List.cons.inj heq
      cases hvalue
    | cons first before =>
      obtain ⟨rfl, -⟩ := List.cons.inj heq
      obtain ⟨text, htext, hdenies⟩ := hbefore _ List.mem_cons_self
      cases htext
      rw [DraftRule.spells_ofString, Address.canonical_canonical, beq_self_eq_true] at hdenies
      cases hdenies

/-- A number that is the only source of a rule for WinRM ends the program: the file is read, but
neither a list is shown nor a report made. -/
theorem number_as_source_ends_plan :
    let line := winRMLine [.int 5]
    Json.readFile line.host.files "rules.json" = .ok (DraftRule.document [winRMDraft [.int 5]]) ∧
      (line.outcome Rehearsal.clouds).crash = some .sourceNotText ∧
      ¬ (line.outcome Rehearsal.clouds).TellsOfRules line.host.files "rules.json" line.typed := by
  intro line
  have hdocument := readFile_winRMLine (List.forall_mem_singleton.2 (.scalar (.int 5 (by decide))))
  have hread : readRules line.host.files "rules.json" = .ok [winRMDraft [.int 5]] :=
    readRules_of_document hdocument
  have hhalts : DraftRule.HaltsFor [winRMDraft [.int 5]] "203.0.113.7" "10.0.0.0/16" winRMRule := by
    refine .inr ⟨?_, winRMDraft [.int 5], rfl, [], .int 5, [], rfl, List.forall_mem_nil _, rfl⟩
    rintro ⟨⟩
  have hplan : DraftRule.plan [winRMDraft [.int 5]] "203.0.113.7" "10.0.0.0/16" (policyOf .ec2)
      = .error .notText := DraftRule.plan_eq_error_iff.2 ⟨winRMRule, List.mem_cons_self, hhalts⟩
  refine ⟨hdocument, ?_, ?_⟩
  · rw [line.outcome_of_halt Rehearsal.clouds hread rfl hplan]
  · rw [line.tellsOfRules_iff_of_ok Rehearsal.clouds hread]
    rintro ⟨requester, haddress, hnone⟩
    obtain rfl : "203.0.113.7" = requester := Except.ok.inj haddress
    exact hnone winRMRule List.mem_cons_self hhalts

end Command

end NodeLedger
