import Mailroom.Command.Workspace
import Mailroom.Failure
import Mailroom.Notice
import Mailroom.Text.ControlSequence

/-!
# Reports of commands

What a command leaves behind: an exit status, lines on the two output channels, and the
files it has written.  A command that has to stop keeps all it did before.

Main definitions:

- `ExitStatus` lists the ways in which a command ends.
- `Report.stdout` and `Report.stderr` are the texts on the channels.  Lines of a command
  lose their control sequences; notices are shown as they are.
- `Task` is the work of a command, and `Task.report` its `Report`.
-/

namespace Mailroom

open Text

/-- How a command ends. -/
inductive ExitStatus
  /-- All went well; a program that was run has stopped. -/
  | success
  /-- An assembly, image or runtime error. -/
  | failure
  /-- Bad arguments, or a file that cannot be written. -/
  | badArguments
  /-- Any other error. -/
  | internalError
  /-- The step limit was used up. -/
  | stepLimit
  deriving DecidableEq, Repr

/-- The number that the system sees. -/
def ExitStatus.code : ExitStatus → Nat
  | success => 0
  | failure => 1
  | badArguments => 2
  | internalError => 3
  | stepLimit => 4

/-- An entry on the error channel. -/
inductive ErrorEntry
  | notice (notice : Notice)
  | line (text : String)
  deriving DecidableEq, Repr

/-- The name of a severity before a notice. -/
def Severity.label : Severity → String
  | .detail => "DEBUG"
  | .warning => "WARNING"

/-- An entry as it is shown.  Details are shown in verbose mode only, and only then is the
severity of a notice named. -/
def ErrorEntry.text? (verbose : Bool) : ErrorEntry → Option String
  | line text => some (withoutSequences text)
  | notice n =>
    if verbose then some (n.severity.label ++ ": " ++ n.text)
    else if n.severity = .warning then some n.text
    else none

/-- What a command leaves behind. -/
structure Report where
  exit : ExitStatus
  out : List String
  errors : List ErrorEntry
  workspace : Workspace

namespace Report

/-- The text on the output channel. -/
def stdout (r : Report) : String :=
  String.join (r.out.map (withoutSequences · ++ "\n"))

/-- The text on the error channel. -/
def stderr (r : Report) (verbose : Bool) : String :=
  String.join ((r.errors.filterMap (·.text? verbose)).map (· ++ "\n"))

end Report

/-! ## Tasks -/

/-- The traces of a command so far. -/
structure Traces where
  out : List String
  errors : List ErrorEntry
  workspace : Workspace

/-- The reason to stop: an exit status and a last line on the error channel. -/
structure Stop where
  exit : ExitStatus
  message : String
  deriving DecidableEq, Repr

/-- The work of a command. -/
abbrev Task :=
  ExceptT Stop (StateM Traces)

namespace Task

/-- Write lines to the output channel.  A channel that cannot encode them is left out of
account. -/
def say (lines : List String) : Task Unit :=
  modify fun t => { t with out := t.out ++ lines }

/-- Write entries to the error channel. -/
def tell (entries : List ErrorEntry) : Task Unit :=
  modify fun t => { t with errors := t.errors ++ entries }

/-- Pass notices on. -/
def notify (notices : List Notice) : Task Unit :=
  tell (notices.map .notice)

/-- Stop because of a failure of the tools. -/
def failWith {α : Type} (f : Failure) : Task α :=
  throw ⟨.failure, f.describe⟩

/-- Pass the notices of a journal on, and go on with its outcome; a failure stops the
command. -/
def ofJournal {ε α : Type} (describe : ε → Stop) (j : Journal ε α) : Task α := do
  notify j.notices
  match j.outcome with
  | .ok a => return a
  | .error e => throw (describe e)

/-- Write a file. -/
def writeFile (path : String) (content : Bytes) : Task Unit := do
  match (← get).workspace.write path content with
  | .ok ws => modify fun t => { t with workspace := ws }
  | .error e => throw ⟨.badArguments, "Error: " ++ e.message⟩

/-- The report of a task that has ended. -/
def conclude : Except Stop ExitStatus × Traces → Report
  | (.ok exit, t) => ⟨exit, t.out, t.errors, t.workspace⟩
  | (.error stop, t) => ⟨stop.exit, t.out, t.errors ++ [.line stop.message], t.workspace⟩

/-- Carry out a task that ends with an exit status. -/
def report (task : Task ExitStatus) (ws : Workspace) : Report :=
  conclude (task.run ⟨[], [], ws⟩)

end Task

end Mailroom
