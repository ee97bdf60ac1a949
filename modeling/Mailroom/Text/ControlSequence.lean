/-!
# Control sequences

A terminal takes some runs of characters as orders and does not show them: an escape
character and an opening bracket, then parameters and intermediate characters, and one
final character.

Main definitions:

- `afterSequence?` looks for the rest of a sequence behind an escape character.
- `withoutSequences` leaves all sequences out of a text; what only begins like a sequence
  stays.
-/

namespace Mailroom.Text

/-- The character that begins a sequence. -/
def escapeCharacter : Char :=
  '\x1b'

/-- A parameter of a sequence: a digit, a colon, a semicolon, or one of the four characters
after them. -/
def isParameter (c : Char) : Bool :=
  decide (0x30 ≤ c.toNat) && decide (c.toNat ≤ 0x3F)

/-- An intermediate character of a sequence: a space or one of the fifteen characters after
it. -/
def isIntermediate (c : Char) : Bool :=
  decide (0x20 ≤ c.toNat) && decide (c.toNat ≤ 0x2F)

/-- The last character of a sequence: a letter, or one of the other ASCII characters from
the at sign to the tilde. -/
def isFinal (c : Char) : Bool :=
  decide (0x40 ≤ c.toNat) && decide (c.toNat ≤ 0x7E)

/-- What follows after a sequence whose escape character has been read. -/
def afterSequence? : List Char → Option (List Char)
  | '[' :: body =>
    match (body.dropWhile isParameter).dropWhile isIntermediate with
    | c :: rest => if isFinal c then some rest else none
    | [] => none
  | _ => none

/-- A stretch of text between two escape characters, together with the first of them, as a
terminal shows it. -/
def shownStretch (stretch : List Char) : List Char :=
  (afterSequence? stretch).getD (escapeCharacter :: stretch)

/-- A text without its control sequences.  No sequence holds an escape character behind its
first one, so the stretches between escape characters can be looked at one by one. -/
def withoutSequences (text : String) : String :=
  match text.toList.splitOn escapeCharacter with
  | [] => ""
  | first :: stretches => String.ofList (first ++ stretches.flatMap shownStretch)

/-- A text without escape characters is shown as it is. -/
theorem withoutSequences_of_no_escape {text : String}
    (h : ∀ c ∈ text.toList, c ≠ escapeCharacter) : withoutSequences text = text := by
  have hs : text.toList.splitOn escapeCharacter = [text.toList] :=
    List.splitOnP_eq_singleton fun c hc => by simpa using h c hc
  simp [withoutSequences, hs]

end Mailroom.Text
