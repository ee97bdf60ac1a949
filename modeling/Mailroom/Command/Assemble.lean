import Mailroom.Assembly.Assembler
import Mailroom.Assembly.Listing
import Mailroom.Command.Report

/-!
# The assembling command

Assemble a source file into a load image, and on request write a listing and a symbol
file.  Nothing is written unless the whole source assembles.  The texts are read and written
as UTF-8, whatever encoding the surroundings call for.

Main definitions:

- `AssembleRequest` is what the command line asks for.
- `AssembleRequest.task` is the work.
-/

namespace Mailroom

open Text

/-- A request to assemble a file.  The paths are in their shown form. -/
structure AssembleRequest where
  input : String
  source : Bytes
  output : String
  listing : Option String
  symbols : Option String
  strict : Bool
  verbose : Bool

/-- The way a refused program stops a command. -/
def Refusal.stop : Refusal → Stop
  | report d => ⟨.failure, (Failure.assembly d).describe⟩
  | longNumeral cause => ⟨.internalError, "Internal error: " ++ cause.message⟩
  | badAddress cause => ⟨.internalError, "Internal error: " ++ cause.message⟩

/-- The way a refused file stops a command. -/
def FileRefusal.stop : FileRefusal → Stop
  | unreadable fault => ⟨.internalError, "Internal error: " ++ fault.message⟩
  | refused cause => cause.stop

namespace AssembleRequest

/-- A line for verbose mode. -/
def chat (r : AssembleRequest) (line : String) : Task Unit :=
  if r.verbose then Task.say [line] else pure ()

/-- Read the source file and assemble it; the assembler is returned with the words. -/
def assembled (r : AssembleRequest) : Task (Assembler × List Int) := do
  let (a, journal) := (Assembler.new r.strict).assembleFile r.input r.source
  let words ← Task.ofJournal FileRefusal.stop journal
  return (a, words)

/-- Write the load image; the number of its bytes is returned. -/
def writeImage (r : AssembleRequest) (words : List Int) : Task Nat := do
  match Image.encode words with
  | .error cause => Task.failWith (.image cause)
  | .ok bytes =>
    Task.writeFile r.output bytes
    Task.notify [.imageWritten bytes.length r.output]
    return bytes.length

/-- Write the listing, as UTF-8, if it is asked for. -/
def writeListing (r : AssembleRequest) (b : Build) : Task Unit := do
  match r.listing with
  | none => pure ()
  | some path =>
    Task.writeFile path (Utf8.encode b.listing)
    Task.notify [.listingWritten path]
    r.chat ("Wrote listing to " ++ path)

/-- Write the symbol file, as UTF-8, if it is asked for. -/
def writeSymbols (r : AssembleRequest) (b : Build) : Task Unit := do
  match r.symbols with
  | none => pure ()
  | some path =>
    Task.writeFile path (Utf8.encode b.symbolFile)
    Task.notify [.symbolsWritten path]
    r.chat ("Wrote symbols to " ++ path)

/-- Assemble, and write the image, the listing and the symbol file in this order. -/
def task (r : AssembleRequest) : Task ExitStatus := do
  r.chat ("Assembling " ++ r.input ++ "...")
  let (a, words) ← r.assembled
  let size ← r.writeImage words
  r.chat ("Wrote " ++ decimal words.length ++ " words (" ++ decimal size ++ " bytes) to " ++
    r.output)
  r.writeListing a.build
  r.writeSymbols a.build
  r.chat ("Assembly complete: " ++ decimal words.length ++ " words, " ++
    decimal a.build.symbols.size ++ " labels")
  return .success

end AssembleRequest

end Mailroom
