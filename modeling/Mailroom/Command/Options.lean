/-!
# Options

The words of a command line, divided into options and arguments.

- A long option is a word of its own; its value follows after an equals sign or as the
  next word.
- Short options may share a word; the value of the last one is the rest of the word or
  the next word.
- Two hyphens end the options.  All other words are arguments, wherever they stand.

Main definitions:

- `OptionSpec` declares an option, and `scanWords` divides a command line.
- `Scanned.last?`, `Scanned.all` and `Scanned.has` look options up.
-/

namespace Mailroom

/-- An option of a command: its long name, perhaps a short one, and whether a value goes
with it. -/
structure OptionSpec where
  long : String
  short : Option Char
  takesValue : Bool
  deriving DecidableEq, Repr

/-- Why a command line is refused. -/
inductive UsageError
  | unknownOption (word : String)
  | missingValue (option : String)
  | unexpectedValue (option : String)
  | missingArgument
  | surplusArguments (words : List String)
  | noSuchFile (path : String)
  | isDirectory (path : String)
  | notAnInteger (option text : String)
  | outOfRange (option : String) (value : Int)
  deriving DecidableEq, Repr

/-- A divided command line: options by their long names with their values, and the
arguments, both in order. -/
structure Scanned where
  options : List (String × Option String)
  arguments : List String
  deriving DecidableEq, Repr

namespace Scanned

/-- The value of the last occurrence of an option. -/
def last? (s : Scanned) (long : String) : Option String :=
  ((s.options.filter (·.1 == long)).getLast?).bind (·.2)

/-- The values of all occurrences of an option. -/
def all (s : Scanned) (long : String) : List String :=
  (s.options.filter (·.1 == long)).filterMap (·.2)

/-- An option occurs. -/
def has (s : Scanned) (long : String) : Bool :=
  s.options.any (·.1 == long)

end Scanned

/-! ## Single words -/

/-- The options in one word, and the option that still waits for its value. -/
structure WordOptions where
  found : List (String × Option String)
  waiting : Option String
  deriving DecidableEq, Repr

/-- Read the short options of a word. -/
def shortOptions (specs : List OptionSpec) : List Char → Except UsageError WordOptions
  | [] => .ok ⟨[], none⟩
  | c :: rest =>
    match specs.find? (·.short == some c) with
    | none => .error (.unknownOption (String.ofList ['-', c]))
    | some spec =>
      if spec.takesValue then
        match rest with
        | [] => .ok ⟨[], some spec.long⟩
        | _ :: _ => .ok ⟨[(spec.long, some (String.ofList rest))], none⟩
      else
        (shortOptions specs rest).map fun w => { w with found := (spec.long, none) :: w.found }

/-- Read a word that begins with a hyphen.  The part before an equals sign is looked up as
a long option; a word with two hyphens can be nothing else. -/
def optionWord (specs : List OptionSpec) (word : List Char) : Except UsageError WordOptions :=
  let name := word.takeWhile (· ≠ '=')
  let value : Option String :=
    match word.dropWhile (· ≠ '=') with
    | [] => none
    | _ :: rest => some (String.ofList rest)
  match specs.find? (fun spec => ("--" ++ spec.long).toList == name) with
  | some spec =>
    match spec.takesValue, value with
    | true, some text => .ok ⟨[(spec.long, some text)], none⟩
    | true, none => .ok ⟨[], some spec.long⟩
    | false, some _ => .error (.unexpectedValue spec.long)
    | false, none => .ok ⟨[(spec.long, none)], none⟩
  | none =>
    match word with
    | '-' :: '-' :: _ => .error (.unknownOption (String.ofList name))
    | _ => shortOptions specs word.tail

/-! ## Command lines -/

/-- Divide a command line. -/
def scanWords (specs : List OptionSpec) : List String → Except UsageError Scanned
  | [] => .ok ⟨[], []⟩
  | word :: rest =>
    match word.toList with
    | ['-', '-'] => .ok ⟨[], rest⟩
    | '-' :: c :: cs =>
      match optionWord specs ('-' :: c :: cs) with
      | .error e => .error e
      | .ok ⟨found, none⟩ =>
        (scanWords specs rest).map fun s => { s with options := found ++ s.options }
      | .ok ⟨found, some long⟩ =>
        match rest with
        | [] => .error (.missingValue long)
        | value :: rest =>
          (scanWords specs rest).map fun s =>
            { s with options := found ++ (long, some value) :: s.options }
    | _ => (scanWords specs rest).map fun s => { s with arguments := word :: s.arguments }

end Mailroom
