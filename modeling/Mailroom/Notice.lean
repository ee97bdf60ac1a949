import Mailroom.Diagnostic
import Mailroom.Opcode

/-!
# Notices

What the tools tell about their work besides its result.  Notices are values: an
operation returns the notices it made, in the order in which it made them.

Main definitions:

- `Notice` lists the events, `Notice.severity` grades them and `Notice.text` words them.
- `Journal` is an outcome together with the notices made on the way to it.
-/

namespace Mailroom

open Text

/-- How much a notice matters. -/
inductive Severity
  | detail
  | warning
  deriving DecidableEq, Repr

/-- An event in the work of a tool. -/
inductive Notice
  | assembling (path : String)
  | tokenized (file : String) (count : Nat)
  | slotsFound (count : Nat)
  | labelRedefined (location : SourceLocation) (label : String) (earlier : SourceLocation)
  | labelBound (label : String) (index : Nat)
  | labelsFound (count : Nat)
  | wordsEncoded (count : Nat)
  | oddImage (size : Nat)
  | imageWritten (size : Nat) (path : String)
  | imageRead (count : Nat) (path : String)
  | listingWritten (path : String)
  | symbolsWritten (path : String)
  | programLoaded (count : Nat) (offset : Int)
  | executing (address : Int) (word : Int) (op : Opcode) (acc : Int)
  | halted (steps : Nat)
  | limitReached (limit : Int)
  deriving DecidableEq, Repr

namespace Notice

/-- Redefined labels and odd images deserve a warning; all else is detail. -/
def severity : Notice → Severity
  | labelRedefined _ _ _ => .warning
  | oddImage _ => .warning
  | _ => .detail

/-- The wording of a notice. -/
def text : Notice → String
  | assembling path => "Assembling " ++ path
  | tokenized file count => "Tokenized " ++ file ++ ": " ++ decimal count ++ " tokens"
  | slotsFound count => "Pass 1: " ++ decimal count ++ " instruction slots"
  | labelRedefined location label earlier =>
    location.text ++ ": label " ++ inQuotes label ++ " redefined, first defined at " ++
      earlier.text
  | labelBound label index => "Label " ++ inQuotes label ++ " -> " ++ decimal index
  | labelsFound count => "Pass 2: " ++ decimal count ++ " labels"
  | wordsEncoded count => "Pass 3: encoded " ++ decimal count ++ " words"
  | oddImage size =>
    "Image has odd length " ++ decimal size ++ ", dropping trailing byte"
  | imageWritten size path => "Wrote " ++ decimal size ++ " bytes to " ++ path
  | imageRead count path => "Read " ++ decimal count ++ " words from " ++ path
  | listingWritten path => "Wrote listing to " ++ path
  | symbolsWritten path => "Wrote symbols to " ++ path
  | programLoaded count offset =>
    "Loaded " ++ decimal count ++ " words at offset " ++ decimal offset
  | executing address word op acc =>
    twoDigits address ++ ": " ++ padLeft 3 (decimal word) ++ " " ++ op.name ++ " acc=" ++
      decimal acc
  | halted steps => "Halted after " ++ decimal steps ++ " steps"
  | limitReached limit => "Stopped at step limit " ++ decimal limit

end Notice

/-- The warnings among some notices. -/
def warnings (notices : List Notice) : List Notice :=
  notices.filter (·.severity == .warning)

/-! ## Journals -/

/-- An outcome, and the notices made before it was reached. -/
structure Journal (ε α : Type) where
  notices : List Notice
  outcome : Except ε α

namespace Journal

variable {ε α β : Type}

/-- The outcome `a` without any notice. -/
def done (a : α) : Journal ε α :=
  ⟨[], .ok a⟩

/-- The failure `e` without any notice. -/
def refuse (e : ε) : Journal ε α :=
  ⟨[], .error e⟩

/-- One notice and no further outcome. -/
def note (n : Notice) : Journal ε Unit :=
  ⟨[n], .ok ()⟩

/-- Go on from an outcome; a failure ends the work, and the notices add up. -/
def andThen (j : Journal ε α) (f : α → Journal ε β) : Journal ε β :=
  match j.outcome with
  | .error e => ⟨j.notices, .error e⟩
  | .ok a => ⟨j.notices ++ (f a).notices, (f a).outcome⟩

instance : Monad (Journal ε) where
  pure := done
  bind := andThen

/-- An outcome without notices is passed on as it is. -/
@[simp] theorem pure_bind (a : α) (f : α → Journal ε β) :
    ((pure a : Journal ε α) >>= f) = f a :=
  rfl

/-- A refusal ends the work. -/
@[simp] theorem refuse_bind (e : ε) (f : α → Journal ε β) :
    ((refuse e : Journal ε α) >>= f) = refuse e :=
  rfl

/-- A notice comes before those of the work that follows. -/
@[simp] theorem note_bind (n : Notice) (f : Unit → Journal ε β) :
    ((note n : Journal ε Unit) >>= f) = ⟨n :: (f ()).notices, (f ()).outcome⟩ :=
  rfl

/-- Work goes on with an outcome, and its notices come after those before it. -/
theorem ok_bind (notices : List Notice) (a : α) (f : α → Journal ε β) :
    ((⟨notices, .ok a⟩ : Journal ε α) >>= f) =
      ⟨notices ++ (f a).notices, (f a).outcome⟩ :=
  rfl

/-- The work after an outcome decides how it ends. -/
theorem outcome_bind_of_ok {j : Journal ε α} {a : α} (h : j.outcome = .ok a)
    (f : α → Journal ε β) : (j >>= f).outcome = (f a).outcome := by
  obtain ⟨notices, outcome⟩ := j
  subst h
  rfl

/-- A failure is the outcome of all work after it. -/
theorem outcome_bind_of_error {j : Journal ε α} {e : ε} (h : j.outcome = .error e)
    (f : α → Journal ε β) : (j >>= f).outcome = .error e := by
  obtain ⟨notices, outcome⟩ := j
  subst h
  rfl

/-- Work that ends well has gone on with an outcome. -/
theorem exists_of_outcome_bind {j : Journal ε α} {f : α → Journal ε β} {b : β}
    (h : (j >>= f).outcome = .ok b) : ∃ a, j.outcome = .ok a ∧ (f a).outcome = .ok b := by
  cases houtcome : j.outcome with
  | error e =>
    rw [outcome_bind_of_error houtcome] at h
    contradiction
  | ok a =>
    rw [outcome_bind_of_ok houtcome] at h
    exact ⟨a, rfl, h⟩

end Journal

end Mailroom
