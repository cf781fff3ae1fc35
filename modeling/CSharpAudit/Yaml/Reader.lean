import CSharpAudit.Yaml.Source

/-!
# Reading YAML character by character

A reader stands at a place of a text and knows its line and column, because indentation matters. It
asks for the characters ahead of it before it looks at them.

## Main definitions

* `Yaml.Reader` — a place in a text
* `Yaml.Read` — a step of reading, which may find a fault
* `Yaml.Read.need` — asks for characters ahead
* `Yaml.Read.skip`, `Yaml.Read.newline` — go over a character or over a line break
-/

namespace CSharpAudit.Yaml

/-! ### Characters -/

/-- Whether a character ends a line. -/
def isBreak (c : Char) : Bool :=
  c == '\n' || c == '\r' || c == '\u0085' || c == '\u2028' || c == '\u2029'

def isBlank (c : Char) : Bool := c == ' ' || c == '\t'

/-- Whether a character is a blank or ends a line. -/
def isSpace (c : Char) : Bool := isBlank c || isBreak c

/-- Whether a place, given by the character there, ends a line. -/
def endsLine (c : Option Char) : Bool := c.all isBreak

/-- Whether a place, given by the character there, ends a word: a blank, a line end or the end. -/
def endsWord (c : Option Char) : Bool := c.all isSpace

/-- Whether a character may stand in a name. -/
def isNameChar (c : Char) : Bool := c.isAlphanum || c == '_' || c == '-'

/-- The mark of the byte order. -/
def byteOrderMark : Char := '\uFEFF'

/-! ### Places -/

/-- A place in a text. -/
structure Reader where
  /-- The characters ahead. -/
  rest : List Char
  index : Nat := 0
  line : Nat := 0
  column : Nat := 0
  /-- Whether a line has ended behind the last character that is no blank. -/
  lineEnded : Bool := false
  /-- How many characters are decoded, the end of the text included once it is found. -/
  ready : Nat := 0
  /-- How many characters are decoded with each further piece. -/
  pieces : List Nat := []
  /-- What is wrong behind the pieces. -/
  problem : Option Problem := none
  /-- Whether the characters kept in memory begin with the mark of the byte order. They are kept
  from the place on where a piece was decoded last. -/
  marked : Bool := false
  deriving Inhabited

/-- The beginning of a text. -/
def Reader.ofSource (s : Source) : Reader :=
  { rest := s.chars, pieces := s.pieces, problem := s.problem }

/-- The character so many places ahead; nothing at the end. -/
def Reader.peek (r : Reader) (ahead : Nat) : Option Char := r.rest[ahead]?

/-- Whether a document begins or ends here. -/
def Reader.atDocumentMark (r : Reader) : Bool :=
  r.column == 0 && (["---".toList, "...".toList].any (·.isPrefixOf r.rest)) && endsWord (r.peek 3)

/-- A step of reading. -/
abbrev Read := StateT Reader (Except Fault)

namespace Read

/-- Asks for so many characters ahead. A piece that is needed and malformed is a fault. -/
def need (count : Nat) : Read Unit := do
  let r ← get
  let wanted := r.index + count
  if r.ready < wanted then
    let marked := r.peek 0 == some byteOrderMark
    match r.pieces.dropWhile (· < wanted) with
    | ready :: pieces => set { r with ready, pieces, marked }
    | [] => match r.problem with
      | some p => throw ⟨0, p⟩
      | none => set { r with ready := r.pieces.getLast?.getD r.ready + 1, pieces := [], marked }

/-- The character so many places ahead. -/
def peek (ahead : Nat) : Read (Option Char) := do return (← get).peek ahead

/-- Whether the next character is a given one. -/
def sees (c : Char) : Read Bool := do return (← peek 0) == some c

/-- Goes over a character of a line. -/
def skip : Read Unit := modify fun r => match r.rest with
  | [] => r
  | c :: rest => { r with rest, index := r.index + 1, column := r.column + 1,
                          lineEnded := r.lineEnded && isBlank c }

/-- Goes over characters of a line. -/
def skipMany : Nat → Read Unit
  | 0 => pure ()
  | count + 1 => do skip; skipMany count

/-- Goes over a line break, if there is one, and gives the characters that stand for it. -/
def newline : Read String := do
  let r ← get
  let next (rest : List Char) (taken : Nat) : Reader :=
    { r with rest, index := r.index + taken, line := r.line + 1, column := 0, lineEnded := true }
  match r.rest with
  | '\r' :: '\n' :: rest => set (next rest 2); return "\n"
  | c :: rest =>
    if isBreak c then
      set (next rest 1)
      return if c == '\u2028' || c == '\u2029' then c.toString else "\n"
    else return ""
  | [] => return ""

/-- Goes over the characters that fulfil a condition. -/
def skipWhileFrom (p : Char → Bool) : Nat → Read Unit
  | 0 => pure ()
  | fuel + 1 => do
    need 1
    if (← peek 0).any p then
      skip
      skipWhileFrom p fuel

/-- Goes over the characters that fulfil a condition. -/
def skipWhile (p : Char → Bool) : Read Unit := do skipWhileFrom p ((← get).rest.length + 1)

/-- Reads the characters that fulfil a condition. -/
def takeWhile (p : Char → Bool) : Read (List Char) := do
  let taken := (← get).rest.takeWhile p
  skipWhile p
  return taken

/-- A fault here, in something that began on the given line. -/
def fail {α : Type} (start : Nat) (p : Problem) : Read α := do
  throw (.ofText start (← get).line p)

/-- A fault here unless a condition holds, in something that began on the given line. -/
def check (start : Nat) (ok : Bool) (p : Problem) : Read Unit :=
  if ok then pure () else fail start p

/-! ### Comments -/

/-- How far ahead a comment is looked for. -/
def commentReach : Nat := 512

/-- Where a comment begins on the line, so many places ahead, if there is one and only blanks stand
before it. -/
def commentAhead : (fuel ahead : Nat) → Read (Option Nat)
  | 0, _ => return none
  | fuel + 1, ahead => do
    need (ahead + 1)
    match ← peek ahead with
    | some c =>
      if isBlank c then commentAhead fuel (ahead + 1)
      else return if c == '#' then some ahead else none
    | none => return none

/-- Goes over the comment behind a token, unless its line has ended. -/
def skipLineComment : Read Unit := do
  if !(← get).lineEnded then
    if let some ahead ← commentAhead commentReach 0 then
      skipMany ahead
      skipWhile (!isBreak ·)

/-- Where a further comment begins, so many places ahead, with nothing but blanks and line ends
before it. -/
def nextComment : (fuel ahead : Nat) → Read (Option Nat)
  | 0, _ => return none
  | fuel + 1, ahead => do
    need (ahead + 1)
    match ← peek ahead with
    | some c =>
      if isBlank c || c == '\n' || c == '\r' then nextComment fuel (ahead + 1)
      else return if c == '#' then some ahead else none
    | none => return none

/-- Goes over blanks and line breaks up to a place. -/
def skipTo (index : Nat) : Nat → Read Unit
  | 0 => pure ()
  | fuel + 1 => do
    if (← get).index < index then
      need 1
      if (← peek 0).any isBreak then
        need 2
        let _ ← newline
      else skip
      skipTo index fuel

/-- Goes over the comment here and over all that follow it, with nothing but blanks and empty lines
between them. -/
def skipCommentsFrom : Nat → Read Unit
  | 0 => pure ()
  | fuel + 1 => do
    skipWhile (!isBreak ·)
    need 2
    if (← peek 0).any fun c => c == '\n' || c == '\r' then
      if let some ahead ← nextComment (commentReach - 1) 1 then
        skipTo ((← get).index + ahead) (ahead + 1)
        skipCommentsFrom fuel

/-- Goes over the comment here and over all that follow it. -/
def skipComments : Read Unit := do skipCommentsFrom ((← get).rest.length + 1)

end Read

end CSharpAudit.Yaml
