/-!
# Reading bytes as UTF-8

A source file is a list of bytes. Read as UTF-8, it is a list of characters in which each byte that
belongs to no well-formed sequence stands alone.

The name of a file may have such stray bytes. Where two such names must not be mixed up, each of
these bytes is written as a zero and two digits; so is a zero itself, and what was written can be
told apart from all else.

## Main definitions

* `Utf8.Piece` — a well-formed character or a stray byte
* `Utf8.next` — the first piece of a byte list and the number of bytes it takes
* `Utf8.pieces` — all pieces of a byte list
* `Utf8.text` — the characters, with U+FFFD for each stray byte
* `Stray.keep` — a text in which stray bytes are kept apart
* `Stray.shown` — the text as people see it, with U+FFFD for each stray byte
* `Stray.isFree` — whether nothing had to be kept apart
-/

namespace CSharpAudit.Text.Utf8

/-- A piece of a byte list read as UTF-8. -/
inductive Piece where
  | char (c : Char)
  | stray (b : UInt8)
  deriving DecidableEq, Repr, Inhabited

/-- The character that stands for a stray byte. -/
def replacement : Char := '\uFFFD'

/-- The character that a piece is read as. -/
def Piece.toChar : Piece → Char
  | .char c => c
  | .stray _ => replacement

/-- Whether a byte continues a sequence. -/
def isContinuation (b : UInt8) : Bool := 0x80 ≤ b && b ≤ 0xBF

/-- The six payload bits of a continuation byte. -/
def payload (b : UInt8) : Nat := b.toNat % 0x40

/-- The range of the second byte of a sequence of three or four bytes. It is narrower than that of
other continuation bytes where a wider one would admit overlong forms, surrogates or numbers above
U+10FFFF. -/
def secondByteOk (b0 b1 : UInt8) : Bool :=
  if b0 == 0xE0 then 0xA0 ≤ b1 && b1 ≤ 0xBF
  else if b0 == 0xED then 0x80 ≤ b1 && b1 ≤ 0x9F
  else if b0 == 0xF0 then 0x90 ≤ b1 && b1 ≤ 0xBF
  else if b0 == 0xF4 then 0x80 ≤ b1 && b1 ≤ 0x8F
  else isContinuation b1

/-- The piece at the head of a nonempty byte list and the number of its bytes behind the first. -/
def next (b0 : UInt8) (rest : List UInt8) : Piece × Nat :=
  if b0 < 0x80 then (.char (Char.ofNat b0.toNat), 0)
  else if b0 < 0xC2 then (.stray b0, 0)
  else if b0 < 0xE0 then
    match rest with
    | b1 :: _ =>
      if isContinuation b1 then (.char (Char.ofNat (b0.toNat % 0x20 * 0x40 + payload b1)), 1)
      else (.stray b0, 0)
    | _ => (.stray b0, 0)
  else if b0 < 0xF0 then
    match rest with
    | b1 :: b2 :: _ =>
      if secondByteOk b0 b1 && isContinuation b2 then
        (.char (Char.ofNat (b0.toNat % 0x10 * 0x1000 + payload b1 * 0x40 + payload b2)), 2)
      else (.stray b0, 0)
    | _ => (.stray b0, 0)
  else if b0 < 0xF5 then
    match rest with
    | b1 :: b2 :: b3 :: _ =>
      if secondByteOk b0 b1 && isContinuation b2 && isContinuation b3 then
        (.char (Char.ofNat (b0.toNat % 0x08 * 0x40000 + payload b1 * 0x1000 + payload b2 * 0x40
          + payload b3)), 3)
      else (.stray b0, 0)
    | _ => (.stray b0, 0)
  else (.stray b0, 0)

/-- The pieces of a byte list. -/
def pieces : List UInt8 → List Piece
  | [] => []
  | b :: rest => (next b rest).1 :: pieces (rest.drop (next b rest).2)
termination_by bs => bs.length
decreasing_by simp only [List.length_drop, List.length_cons]; omega

/-- The text of a byte list, with U+FFFD for each stray byte. -/
def text (bs : List UInt8) : String := String.ofList ((pieces bs).map Piece.toChar)

/-- The bytes of a text. -/
def bytes (s : String) : List UInt8 := s.toUTF8.toList

end CSharpAudit.Text.Utf8

namespace CSharpAudit.Text.Stray

/-- The mark before the digits of a byte. -/
def mark : Char := '\x00'

/-- A byte as a mark and two digits. -/
def digits (b : UInt8) : List Char :=
  [mark, Nat.digitChar (b.toNat / 16), Nat.digitChar (b.toNat % 16)]

/-- The text of a byte list in which stray bytes are kept apart. -/
def keep (bs : List UInt8) : String :=
  String.ofList ((Utf8.pieces bs).flatMap fun
    | .char c => if c == mark then digits 0 else [c]
    | .stray b => digits b)

/-- The characters of a text as people see it. -/
def shownChars : List Char → List Char
  | c :: high :: low :: cs =>
    if c == mark then
      (if high == '0' && low == '0' then mark else Utf8.replacement) :: shownChars cs
    else c :: shownChars (high :: low :: cs)
  | cs => cs

/-- The text as people see it, with U+FFFD for each stray byte. -/
def shown (s : String) : String := String.ofList (shownChars s.toList)

/-- Whether nothing had to be kept apart. -/
def isFree (s : String) : Bool := !s.toList.contains mark

end CSharpAudit.Text.Stray
