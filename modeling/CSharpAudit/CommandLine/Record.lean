/-!
# Lists in an argument

An argument may hold several texts, which are divided by commas. A text in quotation marks may hold
commas, line ends and, written twice, quotation marks. Only the first line that is not empty counts.

## Main definitions

* `Record.parse` — the texts of an argument
-/

namespace CSharpAudit.Record

/-- A place in an argument: a line and a byte of that line, both from one. -/
structure Place where
  line : Nat := 1
  column : Nat := 1
  deriving DecidableEq, Repr, Inhabited

/-- The place behind a character. A line feed begins a new line unless nothing follows it. -/
def Place.next (p : Place) (c : Char) (rest : List Char) : Place :=
  if c == '\n' && !rest.isEmpty then ⟨p.line + 1, 1⟩ else { p with column := p.column + c.utf8Size }

/-- What is wrong with a quotation mark: it stands inside a text that does not begin with one, or a
text that does begin with one is not ended by one. -/
inductive Misquote where
  | bare
  | unpaired
  deriving DecidableEq, Repr, Inhabited

/-- Why an argument holds no list. -/
inductive Fault where
  | misquote (what : Misquote) (place : Place)
  | nothing
  deriving DecidableEq, Repr, Inhabited

/-- The message for users. -/
def Misquote.message : Misquote → String
  | bare => "bare \" in non-quoted-field"
  | unpaired => "extraneous or missing \" in quoted-field"

/-- The message for users, if the list begins at the given line. -/
def Fault.message (start : Nat) : Fault → String
  | misquote what place =>
    (if place.line == start then "" else "record on line " ++ toString start ++ "; ")
      ++ "parse error on line " ++ toString place.line ++ ", column " ++ toString place.column
      ++ ": " ++ what.message
  | nothing => "EOF"

/-- Reads a text in quotation marks from behind the first, and gives what follows the last. -/
def quoted : (place : Place) → (read : List Char) → List Char →
    Except Fault (String × Place × List Char)
  | place, _, [] => .error (.misquote .unpaired place)
  | place, read, '"' :: '"' :: cs =>
    quoted { place with column := place.column + 2 } ('"' :: read) cs
  | place, read, '"' :: cs => match cs with
    | [] | ',' :: _ | '\n' :: _ => .ok (String.ofList read.reverse, place.next '"' cs, cs)
    | _ => .error (.misquote .unpaired place)
  | place, read, c :: cs => quoted (place.next c cs) (c :: read) cs

/-- Reads a text without quotation marks, and gives what follows it. -/
def plain : (place : Place) → (read : List Char) → List Char →
    Except Fault (String × Place × List Char)
  | place, read, c :: cs =>
    if c == '"' then .error (.misquote .bare place)
    else if c == ',' || c == '\n' then .ok (String.ofList read.reverse, place, c :: cs)
    else plain (place.next c cs) (c :: read) cs
  | place, read, [] => .ok (String.ofList read.reverse, place, [])

/-- The texts of a line. -/
def fields : Nat → Place → List Char → Except Fault (List String)
  | 0, _, _ => .ok []
  | fuel + 1, place, cs => do
    let (text, place, rest) ← match cs with
      | '"' :: cs => quoted (place.next '"' cs) [] cs
      | cs => plain place [] cs
    match rest with
    | ',' :: rest => return text :: (← fields fuel (place.next ',' rest) rest)
    | _ => return [text]

/-- Line ends as line feeds; a carriage return at the very end is dropped. -/
def unifyLines : List Char → List Char
  | [] => []
  | ['\r'] => []
  | '\r' :: '\n' :: cs => '\n' :: unifyLines cs
  | c :: cs => c :: unifyLines cs

/-- The texts of an argument; an empty one holds none. The error is told in a message. -/
def parse (s : String) : Except String (List String) :=
  if s.isEmpty then .ok []
  else
    let cs := unifyLines s.toList
    let start := (cs.takeWhile (· == '\n')).length + 1
    let found := match cs.drop (start - 1) with
      | [] => Except.error Fault.nothing
      | cs => fields (cs.length + 1) ⟨start, 1⟩ cs
    found.mapError (Fault.message start)

end CSharpAudit.Record
