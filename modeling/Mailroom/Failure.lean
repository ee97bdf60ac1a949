import Mailroom.Diagnostic
import Mailroom.Fault
import Mailroom.Image

/-!
# Failures of the tools

The failures of the assembler, of the image format and of the machine under one roof, as
the commands report them.

Main definitions:

- `Failure` joins the three families, and `Failure.text` is the wording of each.
- `Failure.describe` puts the name of the family before the wording.
-/

namespace Mailroom

/-- The part of the tools that a failure belongs to. -/
inductive Family
  | assembly
  | image
  | machine
  deriving DecidableEq, Repr

/-- The name of a family in reports. -/
def Family.label : Family → String
  | .assembly => "Assembly"
  | .image => "Image"
  | .machine => "Runtime"

/-- A failure of one of the tools. -/
inductive Failure
  | assembly (diagnostic : Diagnostic)
  | image (cause : Image.NotAWord)
  | machine (fault : Fault)
  /-- A general remark, of one family or of the tools as a whole. -/
  | remark (family : Option Family) (text : String)
  deriving DecidableEq, Repr

namespace Failure

/-- The family of a failure. -/
def family : Failure → Option Family
  | assembly _ => some .assembly
  | image _ => some .image
  | machine _ => some .machine
  | remark family _ => family

/-- The wording of a failure. -/
def text : Failure → String
  | assembly d => d.text
  | image cause => cause.message
  | machine fault => fault.message
  | remark _ text => text

/-- The wording of a failure after the name of its family. -/
def describe (f : Failure) : String :=
  match f.family with
  | some family => family.label ++ " error: " ++ f.text
  | none => "Error: " ++ f.text

end Failure

end Mailroom
