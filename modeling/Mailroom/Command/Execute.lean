import Mailroom.Command.Report
import Mailroom.Machine.Emulator

/-!
# The executing command

Run a load image, and print every value that the machine prints on a line of its own.

Main definitions:

- `imageWords` reads a load image.
- `ExecuteRequest` is what the command line asks for.
- `ExecuteRequest.report?` is the outcome; there is none for a run that goes on forever.
-/

namespace Mailroom

open Text

/-- The words in a load image, with the notices of reading it. -/
def imageWords (path : String) (content : Bytes) : Task (List Word) := do
  if Image.isOdd content then
    Task.notify [.oddImage content.length]
  let words := Image.decode content
  Task.notify [.imageRead words.length path]
  return words

/-- A request to run an image.  The path is in its shown form. -/
structure ExecuteRequest where
  image : String
  content : Bytes
  inputs : List Int
  offset : Int
  entry : Int
  maxSteps : Option Int
  verbose : Bool

/-- The way a fault stops a command. -/
def Fault.stop (f : Fault) : Stop :=
  ⟨.failure, (Failure.machine f).describe⟩

namespace ExecuteRequest

/-- The emulator that a request asks for.  Without any input value nothing is queued. -/
def configuration (r : ExecuteRequest) (words : List Word) : Configuration :=
  ⟨words.map (·.val), r.offset, r.entry, if r.inputs = [] then none else some r.inputs,
    r.maxSteps⟩

/-- Read the image and build the emulator. -/
def loaded (r : ExecuteRequest) : Task Emulator := do
  let words ← imageWords r.image r.content
  let e ← Task.ofJournal Fault.stop (Emulator.new (r.configuration words))
  if r.verbose then
    Task.tell [.line ("Loaded " ++ decimal words.length ++ " words at mailbox " ++
      decimal r.offset)]
  return e

/-- The line for a printed value. -/
def outputLine (value : Int) : String :=
  "OUTPUT: " ++ decimal value

/-- Tell about a run that has ended. -/
def finish (r : ExecuteRequest) (e : Emulator) (result : Emulator.RunResult) :
    Task ExitStatus := do
  Task.say (result.emulator.outputs.toList.map outputLine)
  if r.verbose then
    Task.notify (e.runNotices none result)
  match result.ending with
  | .fault f => throw f.stop
  | .limitReached =>
    throw ⟨.stepLimit, "Error: no stop after " ++ decimal result.steps ++ " steps"⟩
  | .halted =>
    if r.verbose then
      Task.tell [.line ("Halted after " ++ decimal result.steps ++ " steps")]
    return .success

/-- Run an image.  There is no report on a run without a limit that has not ended after
`patience` steps. -/
def report? (patience : Nat) (r : ExecuteRequest) (ws : Workspace) : Option Report :=
  match r.loaded.run ⟨[], [], ws⟩ with
  | (.error stop, t) => some (Task.conclude (.error stop, t))
  | (.ok e, t) =>
    (e.run patience none).map fun result => Task.conclude ((r.finish e result).run t)

end ExecuteRequest

end Mailroom
