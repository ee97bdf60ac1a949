import Mailroom.Command.Execute
import Mailroom.Disassembly
import Mailroom.Text.Utf8

/-!
# The disassembling command

Show the words of a load image as text, or write the text to a file.

Main definitions:

- `DisassembleRequest` is what the command line asks for.
- `DisassembleRequest.task` is the work.
-/

namespace Mailroom

open Text

/-- A request to disassemble an image.  The paths are in their shown form. -/
structure DisassembleRequest where
  image : String
  content : Bytes
  output : Option String
  address : Int
  count : Option Int
  verbose : Bool

namespace DisassembleRequest

/-- The lines that the command shows: a heading, and the words. -/
def lines (r : DisassembleRequest) (words : List Word) : List String :=
  ["; Disassembly of " ++ baseName r.image,
    "; Size: " ++ decimal words.length ++ " words",
    "",
    disassemblyText .empty (words.map (·.val)) r.address r.count]

/-- Read the image, and show or write its words. -/
def task (r : DisassembleRequest) : Task ExitStatus := do
  let words ← imageWords r.image r.content
  match r.output with
  | none => Task.say (r.lines words)
  | some path =>
    Task.writeFile path (Utf8.encode (String.join ((r.lines words).map (· ++ "\n"))))
    if r.verbose then
      Task.tell [.line ("Output written to: " ++ path)]
  return .success

end DisassembleRequest

end Mailroom
