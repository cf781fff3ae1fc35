import CSharpAudit.Yaml.Fault

/-!
# The characters of a YAML text

The bytes of a text are in UTF-8 or, if a mark of the byte order tells so, in UTF-16. They are
decoded in pieces of 512 bytes, and only as far as the text is read: what is wrong with a piece
shows when the piece is needed.

## Main definitions

* `Yaml.Encoding` — the encodings, and `Yaml.Encoding.next`, the first character of some bytes
* `Yaml.Source` — the characters of a text and how many there are in each piece
* `Yaml.Source.ofBytes` — the characters of some bytes
-/

namespace CSharpAudit.Yaml

/-- An encoding of texts. -/
inductive Encoding where
  | utf8
  | utf16 (bigEndian : Bool)
  deriving DecidableEq, Repr, Inhabited

namespace Encoding

/-- The encoding that a mark of the byte order shows, and the bytes behind the mark. -/
def detect : List UInt8 → Encoding × List UInt8
  | 0xFF :: 0xFE :: rest => (.utf16 false, rest)
  | 0xFE :: 0xFF :: rest => (.utf16 true, rest)
  | 0xEF :: 0xBB :: 0xBF :: rest => (.utf8, rest)
  | bytes => (.utf8, bytes)

/-- The first of some bytes, decoded. -/
inductive Step where
  /-- A character with this number takes so many bytes. -/
  | char (number width : Nat)
  /-- The bytes end within a character. -/
  | incomplete (p : Problem)
  | malformed (p : Problem)

/-- How many bytes a character takes, by its first byte. -/
def width? (b : UInt8) : Option Nat :=
  if b < 0x80 then some 1
  else if 0xC0 ≤ b && b < 0xE0 then some 2
  else if 0xE0 ≤ b && b < 0xF0 then some 3
  else if 0xF0 ≤ b && b < 0xF8 then some 4
  else none

/-- Whether a byte continues a character. -/
def continues (b : UInt8) : Bool := 0x80 ≤ b && b < 0xC0

/-- The first character in UTF-8; the first byte stands apart. -/
def nextUtf8 (b : UInt8) (rest : List UInt8) : Step :=
  match width? b with
  | none => .malformed .leadingByte
  | some 1 => .char b.toNat 1
  | some width =>
    let more := rest.take (width - 1)
    if more.length < width - 1 then .incomplete .incompleteSequence
    else if !more.all continues then .malformed .trailingByte
    else
      let first := b.toNat % (if width == 2 then 0x20 else if width == 3 then 0x10 else 0x08)
      let number := more.foldl (fun n c => 0x40 * n + c.toNat % 0x40) first
      let least := if width == 2 then 0x80 else if width == 3 then 0x800 else 0x10000
      if number < least then .malformed .overlongSequence
      else if (0xD800 ≤ number && number ≤ 0xDFFF) || number > 0x10FFFF then
        .malformed .surrogateSequence
      else .char number width

/-- The number that two bytes write. -/
def unit (bigEndian : Bool) (a b : UInt8) : Nat :=
  if bigEndian then 0x100 * a.toNat + b.toNat else 0x100 * b.toNat + a.toNat

/-- The first character in UTF-16. -/
def nextUtf16 (bigEndian : Bool) : List UInt8 → Step
  | a :: b :: rest =>
    let high := unit bigEndian a b
    if 0xDC00 ≤ high && high ≤ 0xDFFF then .malformed .lowSurrogate
    else if 0xD800 ≤ high && high ≤ 0xDBFF then match rest with
      | c :: d :: _ =>
        let low := unit bigEndian c d
        if 0xDC00 ≤ low && low ≤ 0xDFFF then
          .char (0x10000 + 0x400 * (high - 0xD800) + (low - 0xDC00)) 4
        else .malformed .missingLowSurrogate
      | _ => .incomplete .incompletePair
    else .char high 2
  | _ => .incomplete .incompleteUnit

/-- Whether a character may stand in a text. -/
def allowed (n : Nat) : Bool :=
  n == 0x09 || n == 0x0A || n == 0x0D || (0x20 ≤ n && n ≤ 0x7E) || n == 0x85
    || (0xA0 ≤ n && n ≤ 0xD7FF) || (0xE000 ≤ n && n ≤ 0xFFFD) || (0x10000 ≤ n && n ≤ 0x10FFFF)

/-- The first character of some bytes. -/
def next (e : Encoding) (b : UInt8) (rest : List UInt8) : Step :=
  let step := match e with
    | .utf8 => nextUtf8 b rest
    | .utf16 bigEndian => nextUtf16 bigEndian (b :: rest)
  match step with
  | .char number width =>
    if allowed number then .char number width else .malformed .controlCharacter
  | step => step

/-- The characters of some bytes, the last first, up to a place where they are incomplete or
malformed; then the bytes from there on and the problem, which is final if the bytes are
malformed. -/
def decodeFrom (e : Encoding) : Nat → List Char → List UInt8 →
    List Char × List UInt8 × Option (Problem × Bool)
  | 0, cs, bytes => (cs, bytes, none)
  | _, cs, [] => (cs, [], none)
  | fuel + 1, cs, b :: rest => match e.next b rest with
    | .char number width =>
      decodeFrom e fuel (Char.ofNat number :: cs) (rest.drop (width - 1))
    | .incomplete p => (cs, b :: rest, some (p, false))
    | .malformed p => (cs, b :: rest, some (p, true))

end Encoding

/-- The characters of a text, as far as its pieces are well-formed. -/
structure Source where
  chars : List Char := []
  /-- How many characters there are up to the end of each piece. -/
  pieces : List Nat := []
  /-- What is wrong behind the last of the pieces. -/
  problem : Option Problem := none
  deriving Repr, Inhabited

namespace Source

/-- How many bytes are decoded at once. -/
def pieceSize : Nat := 512

/-- Adds the characters of the bytes of a piece, and then of those behind it. `cs` are the
characters so far, the last first. A character that is cut off at the end of a piece belongs to the
next one. -/
def extend (e : Encoding) : Nat → (cs : List Char) → (count : Nat) → (ends : List Nat) →
    (piece rest : List UInt8) → Source
  | 0, cs, _, ends, _, _ => ⟨cs.reverse, ends.reverse, none⟩
  | fuel + 1, cs, count, ends, piece, rest =>
    match e.decodeFrom piece.length [] piece with
    | (_, _, some (p, true)) => ⟨cs.reverse, ends.reverse, some p⟩
    | (more, left, cut) =>
      let cs := more ++ cs
      let count := count + more.length
      let ends := count :: ends
      if rest.isEmpty then ⟨cs.reverse, ends.reverse, cut.map (·.1)⟩
      else
        let size := pieceSize - left.length
        extend e fuel cs count ends (left ++ rest.take size) (rest.drop size)

/-- The characters of some bytes. A text without bytes counts as an empty line. -/
def ofBytes (bytes : List UInt8) : Source :=
  let bytes := if bytes.isEmpty then [0x0A] else bytes
  let (e, first) := Encoding.detect (bytes.take pieceSize)
  extend e (bytes.length + 1) [] 0 [] first (bytes.drop pieceSize)

end Source

end CSharpAudit.Yaml
