import NodeLedger.Job
import NodeLedger.Text.Blank
import NodeLedger.Text.ControlSequence

/-!
# Terminals

A terminal holds what a program has written and the lines that are still to be typed. Lines are
written without control sequences, save that a typed line is shown as it was typed.

- `Shell`: a job with a terminal. It may end early, with an exit status or with a fault that nothing
  expects.
- `Shell.attempt`: a job whose expected faults are reported on the terminal.
- `Shell.confirm`: a question that is asked until it is answered.
-/

namespace NodeLedger

open Text

/-- What was written, and the lines that are still to be typed. -/
structure Terminal where
  output : String
  errors : String
  lines : List String
  deriving Repr, DecidableEq

namespace Terminal

/-- Typed text as lines. A last line without an end is a line if it is not empty. -/
def linesOf (typed : String) : List String :=
  let lines := fields '\n' (unifyNewlines typed.toList)
  (if lines.getLast? == some [] then lines.dropLast else lines).map String.ofList

/-- A terminal before anything is written, with the text that will be typed. -/
def start (typed : String) : Terminal :=
  ⟨"", "", linesOf typed⟩

end Terminal

/-- How a program ends before its end. -/
inductive Ending where
  | exit (status : Nat)
  | crash (fault : Fault)
  deriving Repr, DecidableEq

/-- A computation on a host and a terminal. -/
abbrev Shell (σ α : Type) : Type := ExceptT Ending (StateM (Terminal × Host σ)) α

namespace Shell

variable {σ α : Type}

/-- Write to the output. -/
def write (text : String) : Shell σ Unit :=
  modify fun (terminal, host) => ({ terminal with output := terminal.output ++ text }, host)

/-- Write a line to the output. Lone halves cannot be written; they end the program. -/
def writeLine (text : CodeText) : Shell σ Unit :=
  match text.visible.proper with
  | .ok line => write (line ++ "\n")
  | .error fault => throw (.crash (.halves fault))

/-- Write a line to the errors. -/
def complain (text : CodeText) : Shell σ Unit :=
  modify fun (terminal, host) =>
    ({ terminal with errors := terminal.errors ++ text.visible.shown ++ "\n" }, host)

/-- Report a failure, and end. -/
def fail (message : CodeText) : Shell σ α := do
  complain ("❌ " ++ message)
  throw (.exit 1)

/-- Do a job on the host. -/
def perform (job : Job σ α) : Shell σ (Except Fault α) := do
  let (terminal, host) ← get
  let (result, host) := job.runOn host
  set (terminal, host)
  return result

/-- A fault ends the program: an expected one after a report, any other as it is. -/
def giveUp (fault : Fault) : Shell σ α :=
  if fault.isOf .expected then fail fault.message else throw (.crash fault)

/-- Do a job; a fault ends the program. -/
def attempt (job : Job σ α) : Shell σ α := do
  match ← perform job with
  | .ok a => return a
  | .error fault => giveUp fault

/-- The answer that a line gives: an empty line says no. -/
def answerOf? (line : String) : Option Bool :=
  match lowerAscii (strip line) with
  | "y" | "yes" => some true
  | "n" | "no" | "" => some false
  | _ => none

/-- Ask a question for each line typed, until one of them answers it. -/
def confirmWith (question : String) : List String → Shell σ Bool
  | [] => do
    write s!"{question} [y/N]: "
    complain "Aborted!"
    throw (.exit 1)
  | line :: lines => do
    write (s!"{question} [y/N]: {line}" ++ "\n")
    modify fun (terminal, host) => ({ terminal with lines := lines }, host)
    match answerOf? line with
    | some answer => return answer
    | none =>
      writeLine "Error: invalid input"
      confirmWith question lines

/-- Ask a question until it is answered. If nothing more is typed, the program ends. -/
def confirm (question : String) : Shell σ Bool := do
  confirmWith question (← get).1.lines

end Shell

end NodeLedger
