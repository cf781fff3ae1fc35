import CSharpAudit.Json.Basic

/-!
# Reading JSON

A JSON text is one value, with blanks allowed around every part. A text that is not well formed has
a first character that cannot stand where it does, or ends too early.

## Main definitions

* `Json.Fault` — why a text is not JSON
* `Json.parse` — the value that a text writes, or what is wrong with it
-/

namespace CSharpAudit.Json

/-- What is being read when a character cannot stand where it does. -/
inductive Context where
  | value
  | key
  | afterKey
  | afterField
  | afterItem
  | afterAll
  | string
  | escape
  | hexadecimal
  | number
  | fraction
  | exponent
  /-- A word, with the character that must come next. -/
  | word (word : String) (next : Char)
  | depth
  deriving DecidableEq, Repr, Inhabited

namespace Context

/-- The wording of a context. -/
def text : Context → String
  | value => "looking for beginning of value"
  | key => "looking for beginning of object key string"
  | afterKey => "after object key"
  | afterField => "after object key:value pair"
  | afterItem => "after array element"
  | afterAll => "after top-level value"
  | string => "in string literal"
  | escape => "in string escape code"
  | hexadecimal => "in \\u hexadecimal character escape"
  | number => "in numeric literal"
  | fraction => "after decimal point in numeric literal"
  | exponent => "in exponent of numeric literal"
  | word w next => "in literal " ++ w ++ " (expecting " ++ Text.Quoted.char next ++ ")"
  | depth => "exceeded max depth"

/-- Whether a blank can come next. -/
def allowsBlank : Context → Bool
  | value | key | afterKey | afterField | afterItem | afterAll | string => true
  | _ => false

end Context

/-- Why a text is not JSON. -/
inductive Fault where
  | unexpected (c : Char) (context : Context)
  | ended
  deriving DecidableEq, Repr, Inhabited

namespace Fault

/-- What is wrong in a context at some text. A text that ends is continued with a blank. -/
def of (context : Context) : List Char → Fault
  | c :: _ => .unexpected c context
  | [] => if context.allowsBlank then .ended else .unexpected ' ' context

/-- The wording of a fault. Of a character outside of ASCII its first byte is shown. -/
def text : Fault → String
  | unexpected c context =>
    let shown := ((Text.Utf8.bytes c.toString).head?.map fun b => Char.ofNat b.toNat).getD c
    "invalid character " ++ Text.Quoted.char shown ++ " " ++ context.text
  | ended => "unexpected end of JSON input"

end Fault

namespace Parser

/-- What is read from a text, and the text behind it. -/
abbrev Rest (α : Type) := α × List Char

/-- How many arrays and objects may stand in each other. -/
def maxDepth : Nat := 10000

def isBlank (c : Char) : Bool := c == ' ' || c == '\t' || c == '\n' || c == '\r'

/-- The text behind leading blanks. -/
def skip (cs : List Char) : List Char := cs.dropWhile isBlank

def hexValue? (c : Char) : Option Nat :=
  if '0' ≤ c ∧ c ≤ '9' then some (c.toNat - '0'.toNat)
  else if 'a' ≤ c ∧ c ≤ 'f' then some (c.toNat - 'a'.toNat + 10)
  else if 'A' ≤ c ∧ c ≤ 'F' then some (c.toNat - 'A'.toNat + 10)
  else none

/-- The number written by so many hexadecimal digits at the head of a text, behind those of `n`. -/
def hexadecimal (n : Nat) : Nat → List Char → Except Fault (Rest Nat)
  | 0, cs => .ok (n, cs)
  | count + 1, cs => match cs.head?.bind hexValue? with
    | some d => hexadecimal (16 * n + d) count (cs.drop 1)
    | none => .error (.of .hexadecimal cs)

/-- The character written by a `\u` escape, `cs` being the text behind the `u`. A pair of surrogates
writes one character, a single surrogate writes U+FFFD. -/
def unicodeEscape (cs : List Char) : Except Fault (Rest Char) := do
  let (n, rest) ← hexadecimal 0 4 cs
  if n < 0xD800 || n ≥ 0xE000 then return (Char.ofNat n, rest)
  if n < 0xDC00 then
    if let '\\' :: 'u' :: rest' := rest then
      let (m, rest'') ← hexadecimal 0 4 rest'
      if m ≥ 0xDC00 && m < 0xE000 then
        return (Char.ofNat (0x10000 + (n - 0xD800) * 0x400 + (m - 0xDC00)), rest'')
  return ('\uFFFD', rest)

/-- The characters up to the closing quotation mark, behind those read, which stand in reverse. -/
def stringBody (fuel : Nat) (read cs : List Char) : Except Fault (Rest (List Char)) :=
  match fuel, cs with
  | 0, _ | _, [] => .error .ended
  | fuel + 1, c :: rest =>
    if c == '"' then .ok (read.reverse, rest)
    else if c.toNat < 0x20 then .error (.of .string cs)
    else if c == '\\' then
      match rest with
      | '"' :: rest => stringBody fuel ('"' :: read) rest
      | '\\' :: rest => stringBody fuel ('\\' :: read) rest
      | '/' :: rest => stringBody fuel ('/' :: read) rest
      | 'b' :: rest => stringBody fuel ('\x08' :: read) rest
      | 'f' :: rest => stringBody fuel ('\x0c' :: read) rest
      | 'n' :: rest => stringBody fuel ('\n' :: read) rest
      | 'r' :: rest => stringBody fuel ('\r' :: read) rest
      | 't' :: rest => stringBody fuel ('\t' :: read) rest
      | 'u' :: rest => do
        let (d, rest) ← unicodeEscape rest
        stringBody fuel (d :: read) rest
      | rest => .error (.of .escape rest)
    else stringBody fuel (c :: read) rest

/-- The text up to the closing quotation mark, and what follows it. -/
def string (cs : List Char) : Except Fault (Rest String) := do
  let (ds, rest) ← stringBody (cs.length + 1) [] cs
  return (String.ofList ds, rest)

/-- The digits at the head of a text, of which there must be one. -/
def digits (context : Context) (cs : List Char) : Except Fault (Rest (List Char)) :=
  match cs.span Char.isDigit with
  | ([], rest) => .error (.of context rest)
  | (ds, rest) => .ok (ds, rest)

/-- The integer at the head of a text; a zero stands alone. -/
def whole : List Char → Except Fault (Rest (List Char))
  | '0' :: rest => .ok (['0'], rest)
  | cs => digits .number cs

/-- The fraction at the head of a text, if there is one. -/
def fraction : List Char → Except Fault (Rest (List Char))
  | '.' :: rest => do
    let (ds, rest) ← digits .fraction rest
    return ('.' :: ds, rest)
  | cs => .ok ([], cs)

/-- The exponent at the head of a text, if there is one. -/
def exponent : List Char → Except Fault (Rest (List Char))
  | e :: rest =>
    if e == 'e' || e == 'E' then do
      let sign := (rest.take 1).filter fun c => c == '+' || c == '-'
      let (ds, rest) ← digits .exponent (rest.drop sign.length)
      return (e :: sign ++ ds, rest)
    else .ok ([], e :: rest)
  | [] => .ok ([], [])

/-- The number at the head of a text: a sign, an integer, a fraction and an exponent, of which all
but the integer may be missing. -/
def number (cs : List Char) : Except Fault (Rest Json) := do
  let sign := (cs.take 1).filter (· == '-')
  let (n, rest) ← whole (cs.drop sign.length)
  let (f, rest) ← fraction rest
  let (e, rest) ← exponent rest
  return (.number (String.ofList (sign ++ n ++ f ++ e)), rest)

/-- The text behind the rest of a word. -/
def word (w : String) : List Char → List Char → Except Fault (List Char)
  | [], cs => .ok cs
  | d :: ds, c :: cs => if c == d then word w ds cs else .error (.of (.word w d) (c :: cs))
  | d :: _, [] => .error (.of (.word w d) [])

/-- The value that a word at the head of a text stands for. -/
def constant (w : String) (v : Json) (cs : List Char) : Except Fault (Rest Json) :=
  (word w w.toList cs).map fun rest => (v, rest)

mutual

/-- The value at the head of a text, and what follows it. So many arrays and objects may still stand
in each other. -/
def value (fuel depth : Nat) (cs : List Char) : Except Fault (Rest Json) :=
  match fuel with
  | 0 => .error .ended
  | fuel + 1 =>
    match skip cs with
    | '"' :: rest => (string rest).map fun (s, rest) => (.string s, rest)
    | '[' :: rest => match depth, skip rest with
      | 0, _ => .error (.unexpected '[' .depth)
      | _, ']' :: rest => .ok (.array [], rest)
      | depth + 1, rest => (items fuel depth rest).map fun (vs, rest) => (.array vs, rest)
    | '{' :: rest => match depth, skip rest with
      | 0, _ => .error (.unexpected '{' .depth)
      | _, '}' :: rest => .ok (.object [], rest)
      | depth + 1, rest => (fields fuel depth rest).map fun (fs, rest) => (.object fs, rest)
    | 'n' :: rest => constant "null" .null ('n' :: rest)
    | 't' :: rest => constant "true" (.bool true) ('t' :: rest)
    | 'f' :: rest => constant "false" (.bool false) ('f' :: rest)
    | rest =>
      if rest.head?.any fun c => c == '-' || c.isDigit then number rest
      else .error (.of .value rest)

/-- The items of an array up to the closing bracket, and what follows it. -/
def items (fuel depth : Nat) (cs : List Char) : Except Fault (Rest (List Json)) :=
  match fuel with
  | 0 => .error .ended
  | fuel + 1 => do
    let (v, rest) ← value fuel depth cs
    match skip rest with
    | ',' :: rest =>
      let (vs, rest) ← items fuel depth rest
      return (v :: vs, rest)
    | ']' :: rest => return ([v], rest)
    | rest => throw (.of .afterItem rest)

/-- The fields of an object up to the closing brace, and what follows it. -/
def fields (fuel depth : Nat) (cs : List Char) : Except Fault (Rest (List (String × Json))) :=
  match fuel with
  | 0 => .error .ended
  | fuel + 1 =>
    match skip cs with
    | '"' :: rest => do
      let (name, rest) ← string rest
      match skip rest with
      | ':' :: rest =>
        let (v, rest) ← value fuel depth rest
        match skip rest with
        | ',' :: rest =>
          let (fs, rest) ← fields fuel depth rest
          return ((name, v) :: fs, rest)
        | '}' :: rest => return ([(name, v)], rest)
        | rest => throw (.of .afterField rest)
      | rest => throw (.of .afterKey rest)
    | rest => .error (.of .key rest)

end

end Parser

/-- The value that a text writes, or what is wrong with it. -/
def parse (text : String) : Except Fault Json := do
  let cs := text.toList
  let (v, rest) ← Parser.value (2 * cs.length + 2) Parser.maxDepth cs
  match Parser.skip rest with
  | [] => return v
  | rest => throw (.of .afterAll rest)

/-- The value that a text writes, or nothing when the text is not well formed. -/
def parse? (text : String) : Option Json := (parse text).toOption

end CSharpAudit.Json
