import Mailroom.Assembly.Build
import Mailroom.Assembly.SourceLine
import Mailroom.Path
import Mailroom.Text.Utf8

/-!
# The assembler

An assembler keeps its last build, so that listings and symbols can be asked for after
assembling.  A text that cannot be read leaves the last build alone.

Main definitions:

- `Assembler` is the strictness together with the last build.
- `Assembler.generate` builds from tokens, `Assembler.assemble` from a text and
  `Assembler.assembleFile` from a file; all return the assembler that is left, whatever the
  outcome.
-/

namespace Mailroom

open Text

/-- Why a file is not assembled. -/
inductive FileRefusal
  /-- The bytes of the file are no text. -/
  | unreadable (fault : Utf8.Fault)
  /-- The text in the file is refused. -/
  | refused (cause : Refusal)
  deriving DecidableEq, Repr

/-- An assembler after some work. -/
structure Assembler where
  strict : Bool
  build : Build
  deriving DecidableEq, Repr

namespace Assembler

/-- An assembler before any work. -/
def new (strict : Bool) : Assembler :=
  ⟨strict, .empty⟩

/-- Build a program from its tokens. -/
def generate (a : Assembler) (tokens : List Token) : Assembler × Journal Refusal (List Int) :=
  let (build, journal) := Build.ofTokens a.strict tokens
  ({ a with build := build }, ⟨journal.notices, journal.outcome.map fun _ => build.words⟩)

/-- Assemble a named text. -/
def assemble (a : Assembler) (file source : String) :
    Assembler × Journal Refusal (List Int) :=
  match (Reading.ofSource file 1 source).toExcept with
  | .error e => (a, ⟨[], .error e⟩)
  | .ok tokens =>
    let (left, journal) := a.generate tokens
    (left, ⟨.tokenized file tokens.length :: journal.notices, journal.outcome⟩)

/-- Assemble the file at a path, which holds the given bytes.  The text is named by the shown form
of the path. -/
def assembleFile (a : Assembler) (path : String) (bytes : List UInt8) :
    Assembler × Journal FileRefusal (List Int) :=
  let file := shownPath path
  match readTextFile bytes with
  | .error fault => (a, ⟨[.assembling file], .error (.unreadable fault)⟩)
  | .ok source =>
    let (left, journal) := a.assemble file source
    (left, ⟨.assembling file :: journal.notices, journal.outcome.mapError .refused⟩)

/-- A file with a text is assembled like the text under the shown form of the path. -/
theorem assembleFile_of_text {bytes : List UInt8} {source : String}
    (h : readTextFile bytes = .ok source) (a : Assembler) (path : String) :
    a.assembleFile path bytes = ((a.assemble (shownPath path) source).1,
      ⟨.assembling (shownPath path) :: (a.assemble (shownPath path) source).2.notices,
        (a.assemble (shownPath path) source).2.outcome.mapError .refused⟩) := by
  rw [assembleFile, h]

end Assembler

/-- Assemble a named text with a new assembler. -/
def assemble (strict : Bool) (file source : String) : Journal Refusal (List Int) :=
  ((Assembler.new strict).assemble file source).2

/-- Assemble a file with a new assembler. -/
def assembleFile (strict : Bool) (path : String) (bytes : List UInt8) :
    Journal FileRefusal (List Int) :=
  ((Assembler.new strict).assembleFile path bytes).2

end Mailroom
