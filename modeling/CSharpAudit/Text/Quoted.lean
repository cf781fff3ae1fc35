import CSharpAudit.Text.Printable
import CSharpAudit.Text.Utf8

/-!
# Quoted text

Messages show pieces of source text between quotation marks. A printable character is written as
itself, the mark and the backslash with a backslash before them, and every other character by an
escape: a letter for the seven usual controls, else its number in hexadecimal.

## Main definitions

* `Quoted.text`, `Quoted.bytes` — a text or byte list between double quotation marks
* `Quoted.char` — a character between single quotation marks
-/

namespace CSharpAudit.Text.Quoted

/-- The last `width` hexadecimal digits of a number, in lower case. -/
def hex (width n : Nat) : String :=
  String.ofList ((List.range width).reverse.map fun i => Nat.digitChar ((n >>> (4 * i)) % 16))

/-- A character inside text quoted by `mark`. -/
def escape (mark c : Char) : String :=
  if c == mark || c == '\\' then "\\" ++ c.toString
  else if isPrintable c then c.toString
  else match c.toNat with
    | 0x07 => "\\a"
    | 0x08 => "\\b"
    | 0x0C => "\\f"
    | 0x0A => "\\n"
    | 0x0D => "\\r"
    | 0x09 => "\\t"
    | 0x0B => "\\v"
    | n =>
      if n < 0x20 || n == 0x7F then "\\x" ++ hex 2 n
      else if n < 0x10000 then "\\u" ++ hex 4 n
      else "\\U" ++ hex 8 n

/-- A piece of a byte list inside text quoted by `mark`; a stray byte is shown by its number. -/
def escapePiece (mark : Char) : Utf8.Piece → String
  | .char c => escape mark c
  | .stray b => "\\x" ++ hex 2 b.toNat

/-- A text between double quotation marks. -/
def text (s : String) : String := "\"" ++ String.join (s.toList.map (escape '"')) ++ "\""

/-- A byte list, read as UTF-8, between double quotation marks. -/
def bytes (bs : List UInt8) : String :=
  "\"" ++ String.join ((Utf8.pieces bs).map (escapePiece '"')) ++ "\""

/-- A character between single quotation marks. -/
def char (c : Char) : String := "'" ++ escape '\'' c ++ "'"

end CSharpAudit.Text.Quoted
