import CSharpAudit.Number.Basic
import CSharpAudit.Source.Position
import CSharpAudit.Text.Utf8

/-!
# Documents

A document is a source text with the name of its file. It turns byte ranges into locations through
the table of its line starts.

## Main definitions

* `Location` — a place in a file, with the number of bytes it covers
* `Document` — a file name and a source text
* `Document.lineStarts` — the offsets at which the lines start
* `Document.locate` — the location of a byte range
-/

namespace CSharpAudit

/-- A place in a file; line and column count from one, the column and the length in bytes. -/
structure Location where
  file : String := ""
  line : Int := 0
  column : Int := 0
  length : Int := 0
  deriving DecidableEq, Repr, Inhabited

/-- File, line and column. -/
def Location.text (l : Location) : String :=
  l.file ++ ":" ++ toString l.line ++ ":" ++ toString l.column

/-- A source text with the name of its file. -/
structure Document where
  file : String
  source : List UInt8
  deriving Inhabited

namespace Document

/-- The offsets behind the line ends of a text that itself starts at `offset`. -/
def lineStartsFrom (offset : Nat) : List UInt8 → List Nat
  | [] => []
  | b :: bs =>
    if b == newline then (offset + 1) :: lineStartsFrom (offset + 1) bs
    else lineStartsFrom (offset + 1) bs

/-- The offsets at which the lines of a document start. -/
def lineStarts (d : Document) : List Nat := 0 :: lineStartsFrom 0 d.source

/-- The nearest number in the range from zero to `limit`. -/
def clamp (limit : Nat) (n : Int) : Nat := min n.toNat limit

/-- The location of the bytes from `start` on; both numbers are first clamped to the text. -/
def locate (d : Document) (start length : Int) : Location :=
  let start := clamp d.source.length start
  let before := d.lineStarts.takeWhile (· ≤ start)
  { file := d.file
    line := before.length
    column := start - before.getLast?.getD 0 + 1
    length := clamp (d.source.length - start) length }

/-- The location of a range; an inverted range covers nothing. -/
def locateRange (d : Document) (start stop : Int) : Location :=
  d.locate start (wrap (stop - start))

/-- The line that holds an offset. -/
def lineOf (d : Document) (offset : Int) : Nat :=
  let place := clamp d.source.length offset
  (d.lineStarts.takeWhile (· ≤ place)).length

/-- The lines that hold some offsets. -/
def linesOf (d : Document) (offsets : List Nat) : List Nat :=
  let starts := d.lineStarts
  let size := d.source.length
  offsets.map fun o =>
    let place := min o size
    (starts.takeWhile (· ≤ place)).length

/-- The number of lines that a range touches, at least one. -/
def linesBetween (d : Document) (start stop : Int) : Nat :=
  max (d.lineOf stop + 1 - d.lineOf start) 1

/-- Whether a byte belongs to a line end. -/
def isLineEnd (b : UInt8) : Bool := b == newline || b == 13

/-- The bytes of a line without its line end; nothing for a line that the document lacks. -/
def lineBytes (d : Document) (line : Int) : List UInt8 :=
  if line < 1 then []
  else match d.lineStarts[line.toNat - 1]? with
    | none => []
    | some start =>
      let stop := d.lineStarts[line.toNat]?.getD d.source.length
      (((d.source.drop start).take (stop - start)).reverse.dropWhile isLineEnd).reverse

/-- A line without its line end. -/
def lineText (d : Document) (line : Int) : String := Text.Utf8.text (d.lineBytes line)

end Document

end CSharpAudit
