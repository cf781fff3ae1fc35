import CSharpAudit.Json.Basic
import CSharpAudit.Number.Basic
import CSharpAudit.Text.Letter
import CSharpAudit.Text.Mark
import CSharpAudit.Yaml.Reader
import CSharpAudit.Yaml.Scalar

/-!
# Writing YAML

Every entry stands on a line of its own, four blanks right of the one it belongs to. A text is
written plainly if it is read back as it is, in quotation marks otherwise, and as a block if it has
several lines. A name that is long or has several lines is marked as a name.

## Main definitions

* `Yaml.Style`, `Yaml.styleOf` — how a text is written
* `Yaml.styled` — a text in a style
* `Yaml.naturalLess` — the order of names in which numbers count by their values
* `Yaml.render` — a document as YAML
-/

namespace CSharpAudit.Yaml

/-! ### Styles -/

/-- How a text is written. -/
inductive Style where
  | plain | single | double | literal
  deriving DecidableEq, Repr, Inhabited

/-- Whether a character can be written as it is. -/
def isPrintable (c : Char) : Bool :=
  let n := c.toNat
  n == 0x0A || (0x20 ≤ n && n ≤ 0x7E) || (0xA0 ≤ n && n ≤ 0xFFFD && n != 0xFEFF)

/-- The characters with those that follow them. -/
def pairs (cs : List Char) : List (Char × Char) := cs.zip (cs.drop 1)

/-- Whether a text has a blank before a line end. -/
def blankBeforeBreak (cs : List Char) : Bool := (pairs cs).any fun (a, b) => a == ' ' && isBreak b

/-- Whether a text has a blank before a line end, or a character that needs an escape. -/
def needsEscape (cs : List Char) : Bool :=
  cs.any (fun c => !isPrintable c) || blankBeforeBreak cs

/-- Whether a text has a mark that would end it or begin something else if it were plain. -/
def hasIndicator (cs : List Char) : Bool :=
  let blankOrEnd (c : Option Char) := c.all isBlank
  let first := match cs with
    | [] => false
    | c :: rest => "#,[]\x7b\x7d&*!|>'\"%@`".toList.contains c
      || ((c == '?' || c == '-') && blankOrEnd rest.head?)
  let marks := cs.take 3
  first || marks == ['-', '-', '-'] || marks == ['.', '.', '.'] || cs.getLast? == some ':'
    || (pairs cs).any fun (a, b) => (a == ':' && isBlank b) || (isSpace a && b == '#')

/-- Whether a text may be written plainly. -/
def plainAllowed (cs : List Char) : Bool :=
  !(needsEscape cs || hasIndicator cs || cs.any isBreak || cs.head? == some ' '
    || cs.getLast? == some ' ')

/-- Whether a text may be written in single quotation marks. -/
def singleAllowed (cs : List Char) : Bool :=
  !(needsEscape cs || (pairs cs).any fun (a, b) => isBreak a && b == ' ')

/-- Whether a text may be written as a block. -/
def blockAllowed (cs : List Char) : Bool :=
  !(cs.any (fun c => c != '\t' && !isPrintable c) || blankBeforeBreak cs
    || cs.getLast? == some ' ')

/-- Whether a text is a number in the base sixty, with colons between the digits. -/
def isSexagesimal (cs : List Char) : Bool :=
  let cs := if cs.head? == some '-' || cs.head? == some '+' then cs.drop 1 else cs
  match (String.ofList cs).splitOn ":" with
  | [] | [_] => false
  | first :: rest =>
    let whole (s : String) := s.toList.all fun c => c.isDigit || c == '_'
    let sixty (s : String) := match s.toList with
      | [a] => a.isDigit
      | [a, b] => '0' ≤ a && a ≤ '5' && b.isDigit
      | _ => false
    let last (s : String) := match s.splitOn "." with
      | [a] => sixty a
      | [a, b] => sixty a && whole b
      | _ => false
    first.toList.head?.any Char.isDigit && whole first && rest.dropLast.all sixty
      && rest.getLast?.any last

/-- Whether a text stands for a truth value in older versions of the format. -/
def isOldBool (s : String) : Bool :=
  ["y", "Y", "yes", "Yes", "YES", "on", "On", "ON",
    "n", "N", "no", "No", "NO", "off", "Off", "OFF"].contains s

/-- How a text is written. -/
def styleOf (s : String) : Style :=
  let cs := s.toList
  if cs.contains '\n' then if blockAllowed cs then .literal else .double
  else if Scalar.ofText true s != .text || isSexagesimal cs || isOldBool s then .double
  else if plainAllowed cs then .plain
  else if singleAllowed cs then .single
  else .double

/-! ### Texts -/

/-- A character between double quotation marks, by its number. -/
def escapedChar (c : Char) : String :=
  let hex (width n : Nat) : String :=
    let ds := (Nat.toDigits 16 n).map Char.toUpper
    String.ofList (List.replicate (width - ds.length) '0' ++ ds)
  "\\" ++ match c.toNat with
  | 0x00 => "0"
  | 0x07 => "a"
  | 0x08 => "b"
  | 0x09 => "t"
  | 0x0A => "n"
  | 0x0B => "v"
  | 0x0C => "f"
  | 0x0D => "r"
  | 0x1B => "e"
  | 0x22 => "\""
  | 0x5C => "\\"
  | 0x85 => "N"
  | 0xA0 => "_"
  | 0x2028 => "L"
  | 0x2029 => "P"
  | n => if n ≤ 0xFF then "x" ++ hex 2 n else if n ≤ 0xFFFF then "u" ++ hex 4 n
    else "U" ++ hex 8 n

/-- A text between double quotation marks. Behind a mark of the byte order at its beginning, every
character is escaped. -/
def doubleQuoted (s : String) : String :=
  let marked := s.toList.head? == some byteOrderMark
  let char (c : Char) : String :=
    if marked || !isPrintable c || isBreak c || c == '"' || c == '\\' then escapedChar c
    else c.toString
  "\"" ++ String.join (s.toList.map char) ++ "\""

/-- So many blanks. -/
def blanks (n : Nat) : String := String.ofList (List.replicate n ' ')

/-- The characters of a text, with blanks up to a column behind its line breaks unless the line is
empty; `fresh` tells that a line has just begun. -/
def indentedText (column : Nat) : (fresh : Bool) → List Char → String
  | _, [] => ""
  | fresh, c :: rest =>
    if isBreak c then c.toString ++ indentedText column true rest
    else (if fresh then blanks column else "") ++ c.toString ++ indentedText column false rest

/-- The marks behind that of a block: the indentation if the text begins with a blank or a line end,
and what is done at its end. -/
def blockHints (cs : List Char) : String :=
  let indent := if cs.head?.any fun c => c == ' ' || isBreak c then "4" else ""
  let chomping := match cs.reverse with
    | [] => "-"
    | [c] => if isBreak c then "+" else "-"
    | c :: d :: _ => if !isBreak c then "-" else if isBreak d then "+" else ""
  indent ++ chomping

/-- A text in its style. The lines of a block stand at the given column. -/
def styled (column : Nat) (s : String) : String :=
  let cs := s.toList
  match styleOf s with
  | .plain => s
  | .single => "'" ++ indentedText column false (s.replace "'" "''").toList ++ "'"
  | .double => doubleQuoted s
  | .literal =>
    let begun := cs.head?.any isBreak
    "|" ++ blockHints cs ++ (if begun then "" else "\n") ++ indentedText column true cs

/-- A text with what ends its line, unless its last line has ended. -/
def textLine (column : Nat) (s : String) : String :=
  let text := styled column s
  if styleOf s == .literal && s.toList.getLast?.any isBreak then text else text ++ "\n"

/-- Whether a name stands before its colon on one line: it has no line breaks and at most 128
bytes. -/
def isSimpleName (s : String) : Bool := !s.toList.any isBreak && s.utf8ByteSize ≤ 128

/-- A name and the colon behind it, at a column; its own lines stand at the column `inner`. A name
without characters is quoted. -/
def nameText (column inner : Nat) (s : String) : String :=
  if isSimpleName s then styled inner s ++ ":"
  else "? " ++ textLine inner s ++ blanks column ++ ":"

/-! ### Order -/

/-- The number that the digits at the head of a text write, in a signed word, and how many there
are. Digits count by the distance of their characters from the digit zero. -/
def leadingNumber (start : Int) (cs : List Char) : Int × Nat :=
  let ds := cs.takeWhile Text.isDecimalDigit
  (ds.foldl (fun n c => wrap (10 * n + (c.toNat - 48))) start, ds.length)

/-- Whether a name stands before another: letters count by their numbers and stand behind all else,
except behind a digit, and digits count together. `before` are the characters that both share, the
last first. -/
def naturalLessFrom : (before a b : List Char) → Bool
  | before, x :: a, y :: b =>
    if x == y then naturalLessFrom (x :: before) a b
    else
      let digits := before.head?.any Text.isDecimalDigit
      match Text.isLetter x, Text.isLetter y with
      | true, true => x < y
      | true, false => digits
      | false, true => !digits
      | false, false =>
        let behind := before.takeWhile Text.isDecimalDigit
        let shared := (x == '0' || y == '0') && behind.any (· != '0')
        let start := if shared then 1 else 0
        let (m, mLength) := leadingNumber start (x :: a)
        let (n, nLength) := leadingNumber start (y :: b)
        if m != n then m < n else if mLength != nLength then mLength < nLength else x < y
  | _, a, b => a.length < b.length

/-- Whether a name stands before another in the order in which numbers count by their values. -/
def naturalLess (a b : String) : Bool := naturalLessFrom [] a.toList b.toList

/-! ### Documents -/

mutual

/-- A value behind its name or mark; `column` is where its parts stand. -/
def value (column : Nat) : Json → String
  | .null => " null\n"
  | .bool b => if b then " true\n" else " false\n"
  | .number literal => " " ++ literal ++ "\n"
  | .string s => " " ++ textLine column s
  | .array [] => " []\n"
  | .array items => "\n" ++ itemLines column items
  | .object [] => " \x7b\x7d\n"
  | .object fields => "\n" ++ fieldLines column fields

/-- The items of a list, each on its lines. -/
def itemLines (column : Nat) : List Json → String
  | [] => ""
  | v :: rest => blanks column ++ "-" ++ value (column + 2) v ++ itemLines column rest

/-- The fields of an object, each on its lines. -/
def fieldLines (column : Nat) : List (String × Json) → String
  | [] => ""
  | (name, v) :: rest =>
    let inner := 4 * (column / 4 + 1)
    blanks column ++ nameText column inner name ++ value inner v ++ fieldLines column rest

end

/-- A document as YAML. -/
def render : Json → String
  | .object (field :: fields) => fieldLines 0 (field :: fields)
  | v => ((value 0 v).drop 1).toString

end CSharpAudit.Yaml
