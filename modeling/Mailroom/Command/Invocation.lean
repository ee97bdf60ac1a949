import Mailroom.Command.Assemble
import Mailroom.Command.Disassemble
import Mailroom.Command.Execute
import Mailroom.Command.Options
import Mailroom.Text.Integer

/-!
# Invocations

The three commands with their options, from a command line to a report.

Main definitions:

- `Tool` names the commands, and `Tool.options` declares their options.
- `Tool.request` checks a command line; nothing is done when it is refused.
- `Tool.invoke` carries a command line out.
-/

namespace Mailroom

open Text

/-! ## The commands and their options -/

/-- The three commands. -/
inductive Tool
  | assembler
  | machine
  | disassembler
  deriving DecidableEq, Repr

/-- The version that the commands report. -/
def version : String :=
  "1.0.0"

namespace Tool

/-- The name that a command is called by. -/
def name : Tool → String
  | assembler => "lmasm"
  | machine => "lmvm"
  | disassembler => "lmdisasm"

/-- The command with the given name. -/
def ofName? (text : String) : Option Tool :=
  [assembler, machine, disassembler].find? (·.name == text)

/-- The options that all commands have. -/
def commonOptions : List OptionSpec :=
  [⟨"verbose", some 'v', false⟩, ⟨"version", none, false⟩, ⟨"help", none, false⟩]

/-- The options of each command. -/
def options : Tool → List OptionSpec
  | assembler =>
    [⟨"output", some 'o', true⟩, ⟨"listing", some 'l', true⟩, ⟨"symbols", some 's', true⟩,
      ⟨"strict-labels", none, false⟩] ++ commonOptions
  | machine =>
    [⟨"input", some 'i', true⟩, ⟨"offset", none, true⟩, ⟨"entry", none, true⟩,
      ⟨"max-steps", none, true⟩] ++ commonOptions
  | disassembler =>
    [⟨"output", some 'o', true⟩, ⟨"address", some 'a', true⟩, ⟨"count", some 'c', true⟩] ++
      commonOptions

/-- A line that shows how a command is called. -/
def synopsis (tool : Tool) : String :=
  let option := fun (spec : OptionSpec) =>
    "[--" ++ spec.long ++ (if spec.takesValue then " VALUE]" else "]")
  "Usage: " ++ tool.name ++ " " ++ " ".intercalate (tool.options.map option) ++ " FILE"

end Tool

/-! ## Values of options -/

/-- An integer value within bounds. -/
def integerValue (option : String) (least : Int) (greatest : Option Int) (text : String) :
    Except UsageError Int :=
  match integer? text.toList with
  | none => .error (.notAnInteger option text)
  | some n =>
    if n < least ∨ greatest.any (· < n) then .error (.outOfRange option n) else .ok n

/-- The value of an option that holds an integer, if the option occurs. -/
def Scanned.integer? (s : Scanned) (option : String) (least : Int) (greatest : Option Int) :
    Except UsageError (Option Int) :=
  match s.last? option with
  | none => .ok none
  | some text => (integerValue option least greatest text).map some

/-- The path of a file to write, in its shown form, if the option occurs.  A directory is
refused. -/
def Scanned.outputPath? (s : Scanned) (option : String) (ws : Workspace) :
    Except UsageError (Option String) :=
  match s.last? option with
  | none => .ok none
  | some path =>
    match ws.resolve path with
    | .directory => .error (.isDirectory path)
    | _ => .ok (some (shownPath path))

/-- The only argument: a file to read, with its path in its shown form. -/
def Scanned.inputFile (s : Scanned) (ws : Workspace) : Except UsageError (String × Bytes) :=
  match s.arguments with
  | [] => .error .missingArgument
  | [path] =>
    match ws.resolve path with
    | .file _ content => .ok (shownPath path, content)
    | .directory => .error (.isDirectory path)
    | _ => .error (.noSuchFile path)
  | words => .error (.surplusArguments words)

/-! ## Requests -/

/-- What a command line asks for. -/
inductive Request
  | version (tool : Tool)
  | help (tool : Tool)
  | assemble (request : AssembleRequest)
  | execute (request : ExecuteRequest)
  | disassemble (request : DisassembleRequest)

namespace Tool

/-- The file that an image is written to when no other is named. -/
def defaultImage : String :=
  "a.out"

/-- The request to assemble. -/
def assembleRequest (s : Scanned) (ws : Workspace) : Except UsageError AssembleRequest := do
  let (path, source) ← s.inputFile ws
  let output ← s.outputPath? "output" ws
  let listing ← s.outputPath? "listing" ws
  let symbols ← s.outputPath? "symbols" ws
  if output.isNone ∧ ws.resolve defaultImage = .directory then
    throw (.isDirectory defaultImage)
  return ⟨path, source, output.getD defaultImage, listing, symbols, s.has "strict-labels",
    s.has "verbose"⟩

/-- The request to run an image. -/
def executeRequest (s : Scanned) (ws : Workspace) : Except UsageError ExecuteRequest := do
  let (path, content) ← s.inputFile ws
  let inputs ← (s.all "input").mapM (integerValue "input" (-32768) (some 32767))
  let offset ← s.integer? "offset" 0 (some 99)
  let entry ← s.integer? "entry" 0 (some 99)
  let maxSteps ← s.integer? "max-steps" 1 none
  return ⟨path, content, inputs, offset.getD 0, entry.getD 0, maxSteps, s.has "verbose"⟩

/-- The request to disassemble an image. -/
def disassembleRequest (s : Scanned) (ws : Workspace) :
    Except UsageError DisassembleRequest := do
  let (path, content) ← s.inputFile ws
  let output ← s.outputPath? "output" ws
  let address ← s.integer? "address" 0 (some 99)
  let count ← s.integer? "count" 0 none
  return ⟨path, content, output, address.getD 0, count, s.has "verbose"⟩

/-- The request in a command line.  A question for the version or for help is answered
before the other options are looked at; the first such question counts. -/
def request (tool : Tool) (words : List String) (ws : Workspace) :
    Except UsageError Request := do
  let s ← scanWords tool.options words
  match s.options.find? (fun o => o.1 == "version" || o.1 == "help") with
  | some question =>
    return if question.1 == "version" then .version tool else .help tool
  | none =>
    match tool with
    | assembler => return .assemble (← assembleRequest s ws)
    | machine => return .execute (← executeRequest s ws)
    | disassembler => return .disassemble (← disassembleRequest s ws)

end Tool

/-! ## Carrying requests out -/

namespace Request

/-- The errors of a request are shown in full. -/
def verbose : Request → Bool
  | version _ => false
  | help _ => false
  | assemble r => r.verbose
  | execute r => r.verbose
  | disassemble r => r.verbose

/-- Carry a request out.  There is no report on a run without a limit that has not ended
after `patience` steps. -/
def report? (patience : Nat) (ws : Workspace) : Request → Option Report
  | version tool => some ⟨.success, [tool.name ++ ", version " ++ Mailroom.version], [], ws⟩
  | help tool => some ⟨.success, [tool.synopsis], [], ws⟩
  | assemble r => some (r.task.report ws)
  | execute r => r.report? patience ws
  | disassemble r => some (r.task.report ws)

end Request

/-- The wording of a refused command line. -/
def UsageError.message : UsageError → String
  | unknownOption word => "no such option: " ++ word
  | missingValue option => "option --" ++ option ++ " needs a value"
  | unexpectedValue option => "option --" ++ option ++ " takes no value"
  | missingArgument => "a file is missing"
  | surplusArguments words => "only one file is expected: " ++ " ".intercalate words
  | noSuchFile path => "there is no file " ++ quoted path
  | isDirectory path => quoted path ++ " is a directory"
  | notAnInteger option text => "--" ++ option ++ ": " ++ quoted text ++ " is not an integer"
  | outOfRange option value =>
    "--" ++ option ++ ": " ++ decimal value ++ " is out of range"

end Mailroom
