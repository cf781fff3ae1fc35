import CSharpAudit.Source.SyntaxError
import CSharpAudit.Text.CharSet
import CSharpAudit.Text.Letter
import CSharpAudit.Text.Mark

/-!
# From bytes to tokens

The lexer cuts a source text, given as bytes, into pieces: white space, comments, preprocessor
lines and tokens. Each scanner looks at the bytes behind its first one and says how many of them
belong to the piece, so every byte of the text belongs to exactly one piece.

## Main definitions

* `Lexer.number`, `Lexer.quoted`, `Lexer.interpolated`, … — the extent of each class of token
* `Lexer.piece` — the piece at the head of a text
* `lex` — the tokens of a text and whether it enables nullable references
-/

namespace CSharpAudit

namespace Lexer

/-- A fault, with its distance from the start of the piece in which it was found. -/
structure Fault where
  distance : Nat
  cause : SyntaxError.Cause

/-- The byte of an ASCII character. -/
def ascii (c : Char) : UInt8 := c.toNat.toUInt8

/-- The bytes of a text that is given by its characters, which need not be decoded for them. -/
theorem ascii_ofList (cs : List Char) : (String.ofList cs).toList.map ascii = cs.map ascii := by
  rw [String.toList_ofList]

theorem ascii_ofList_append (cs ds : List Char) :
    (String.ofList cs ++ String.ofList ds).toList.map ascii = (cs ++ ds).map ascii := by
  rw [String.toList_append, String.toList_ofList, String.toList_ofList]

/-- Whether a byte is one of some ASCII characters. -/
def isOneOf (chars : String) (b : UInt8) : Bool := chars.toList.any fun c => ascii c == b

def isDigit (b : UInt8) : Bool := ascii '0' ≤ b && b ≤ ascii '9'

def isHexDigit (b : UInt8) : Bool :=
  isDigit b || (ascii 'a' ≤ b && b ≤ ascii 'f') || (ascii 'A' ≤ b && b ≤ ascii 'F')

/-- Whether a text begins with some ASCII characters. -/
def startsWith (chars : String) (bs : List UInt8) : Bool :=
  (chars.toList.map ascii).isPrefixOf bs

/-- The number of leading bytes that satisfy a test. -/
def countWhile (p : UInt8 → Bool) (bs : List UInt8) : Nat := (bs.takeWhile p).length

/-- The number of bytes before the first occurrence of `needle`. -/
def indexOf? (needle : List UInt8) : List UInt8 → Option Nat
  | [] => if needle.isEmpty then some 0 else none
  | b :: rest =>
    if needle.isPrefixOf (b :: rest) then some 0 else (indexOf? needle rest).map (· + 1)

/-! ### Identifiers -/

def isIdentStart (c : Char) : Bool := c == '_' || Text.isLetter c

def isIdentPart (c : Char) : Bool :=
  c == '_' || Text.isLetter c || Text.isDecimalDigit c || Text.isNonspacingMark c
    || Text.isConnector c

/-- The number of leading bytes that continue an identifier. -/
def identTail : List UInt8 → Nat
  | [] => 0
  | b :: rest =>
    let (piece, more) := Text.Utf8.next b rest
    if isIdentPart piece.toChar then more + 1 + identTail (rest.drop more) else 0
termination_by bs => bs.length
decreasing_by simp only [List.length_drop, List.length_cons]; omega

/-- The number of bytes of the identifier at the head of a text, if there is one. -/
def identifier? : List UInt8 → Option Nat
  | [] => none
  | b :: rest =>
    let (piece, more) := Text.Utf8.next b rest
    if isIdentStart piece.toChar then some (more + 1 + identTail (rest.drop more)) else none

/-! ### Numbers -/

def isDigitOrBar (b : UInt8) : Bool := isDigit b || b == ascii '_'

/-- The number of bytes of a fraction: a point with a digit behind it, and more digits. -/
def fraction : List UInt8 → Nat
  | point :: d :: rest =>
    if point == ascii '.' && isDigit d then 1 + countWhile isDigitOrBar (d :: rest) else 0
  | _ => 0

/-- The number of bytes of an exponent; its digits may be missing. -/
def exponent : List UInt8 → Nat
  | e :: rest =>
    if isOneOf "eE" e then
      let sign := if (rest.head?.map (isOneOf "+-")).getD false then 1 else 0
      1 + sign + countWhile isDigitOrBar (rest.drop sign)
    else 0
  | [] => 0

/-- The class and the number of bytes of the number at the head of a text. Behind `0x` and `0b`
stand hexadecimal digits; a fraction, an exponent or one of the suffixes `f`, `d` and `m` makes the
number real. -/
def number (bs : List UInt8) : TokenKind × Nat :=
  let radix := startsWith "0x" bs || startsWith "0X" bs || startsWith "0b" bs || startsWith "0B" bs
  let whole :=
    if radix then 2 + countWhile (fun b => isHexDigit b || b == ascii '_') (bs.drop 2)
    else countWhile isDigitOrBar bs
  let frac := if radix then 0 else fraction (bs.drop whole)
  let exp := if radix then 0 else exponent (bs.drop (whole + frac))
  let suffix := (bs.drop (whole + frac + exp)).takeWhile (isOneOf "uUlLfFdDmM")
  let isReal := frac != 0 || exp != 0 || suffix.any (isOneOf "fFdDmM")
  (if isReal then .real else .int, whole + frac + exp + suffix.length)

/-! ### Literals -/

/-- The number of bytes up to and with the closing `mark` of a literal on one line, where a
backslash hides the byte behind it. -/
def quoted (mark : UInt8) : List UInt8 → Except SyntaxError.Cause Nat
  | [] => .error .unterminatedLiteral
  | b :: rest =>
    if b == ascii '\\' then
      match rest with
      | [] => .error .unterminatedLiteral
      | _ :: rest => (quoted mark rest).map (· + 2)
    else if b == newline then .error .newlineInLiteral
    else if b == mark then .ok 1
    else (quoted mark rest).map (· + 1)

/-- The number of bytes up to and with the closing `mark` of a literal inside an interpolation
hole, which may span lines. -/
def nested? (mark : UInt8) : List UInt8 → Option Nat
  | [] => none
  | b :: rest =>
    if b == ascii '\\' then
      match rest with
      | [] => none
      | _ :: rest => (nested? mark rest).map (· + 2)
    else if b == mark then some 1
    else (nested? mark rest).map (· + 1)

/-- The number of bytes up to and with the closing quotation mark of a verbatim string, in which a
doubled mark stands for itself. -/
def verbatim? : List UInt8 → Option Nat
  | [] => none
  | b :: rest =>
    if b == ascii '"' then
      match rest with
      | c :: rest => if c == ascii '"' then (verbatim? rest).map (· + 2) else some 1
      | [] => some 1
    else (verbatim? rest).map (· + 1)

/-- The number of bytes up to and with the closing quotation mark of an interpolated string.
`depth` counts the open braces around the current byte and `pos` the bytes read so far. -/
def interpolated (isVerbatim : Bool) (depth pos : Nat) : List UInt8 → Except Fault Nat
  | [] => .error ⟨0, .unterminatedInterpolated⟩
  | b :: rest =>
    let doubled := rest.head? == some b
    if depth == 0 && (b == ascii '{' || b == ascii '}') && doubled then
      interpolated isVerbatim depth (pos + 2) (rest.drop 1)
    else if b == ascii '{' then interpolated isVerbatim (depth + 1) (pos + 1) rest
    else if b == ascii '}' && depth > 0 then interpolated isVerbatim (depth - 1) (pos + 1) rest
    else if depth > 0 && (b == ascii '"' || b == ascii '\'') then
      match nested? b rest with
      | none => .error ⟨pos, .unterminatedLiteral⟩
      | some n => interpolated isVerbatim depth (pos + 1 + n) (rest.drop n)
    else if depth == 0 && !isVerbatim && b == ascii '\\' then
      interpolated isVerbatim depth (pos + 2) (rest.drop 1)
    else if depth == 0 && b == ascii '"' then
      if isVerbatim && doubled then interpolated isVerbatim depth (pos + 2) (rest.drop 1)
      else .ok (pos + 1)
    else if depth == 0 && !isVerbatim && b == newline then .error ⟨0, .newlineInInterpolated⟩
    else interpolated isVerbatim depth (pos + 1) rest
termination_by bs => bs.length
decreasing_by all_goals simp only [List.length_drop, List.length_cons]; omega

/-- The number of bytes of a raw string: it opens and closes with the same number of quotation
marks. -/
def raw? (bs : List UInt8) : Option Nat :=
  let marks := countWhile (· == ascii '"') bs
  (indexOf? (List.replicate marks (ascii '"')) (bs.drop marks)).map (marks + · + marks)

/-! ### Pieces -/

/-- A piece of a source text. Each carries the number of its bytes behind the first one. -/
inductive Piece where
  /-- White space or a comment. -/
  | trivia (more : Nat)
  /-- A documentation line. -/
  | doc (line : String) (more : Nat)
  /-- A preprocessor line. -/
  | directive (enablesNullable : Bool) (more : Nat)
  /-- A token, which leaves out the first `lead` bytes of the piece. -/
  | token (kind : TokenKind) (lead more : Nat)

/-- The number of bytes of a piece behind the first one. -/
def Piece.more : Piece → Nat
  | trivia n | doc _ n | directive _ n | token _ _ n => n

/-- A comment up to the end of its line. With exactly three slashes it is a documentation line. -/
def lineComment (bs : List UInt8) : Piece :=
  let line := bs.takeWhile (· != newline)
  if startsWith "///" line && !startsWith "////" line then
    .doc (Text.trimBlank (Text.Utf8.text (line.drop 3))) (line.length - 1)
  else .trivia (line.length - 1)

/-- A preprocessor line, `rest` being the bytes behind the number sign. -/
def directive (rest : List UInt8) : Piece :=
  let line := rest.takeWhile (· != newline)
  .directive ((Text.words (Text.Utf8.text line)).take 2 == ["nullable", "enable"]) line.length

/-- The white space or comment at the head of a text, if there is one. `fresh` says that only
blanks precede on the line. -/
def trivia? (fresh : Bool) (b : UInt8) (rest : List UInt8) : Except Fault (Option Piece) :=
  if isOneOf " \t\r\n\x0c\x0b" b then .ok (some (.trivia 0))
  else if startsWith "//" (b :: rest) then .ok (some (lineComment (b :: rest)))
  else if startsWith "/*" (b :: rest) then
    match indexOf? [ascii '*', ascii '/'] (rest.drop 1) with
    | none => .error ⟨0, .unterminatedComment⟩
    | some n => .ok (some (.trivia (n + 3)))
  else if b == ascii '#' && fresh then .ok (some (directive rest))
  else if b ≥ 0x80 then
    let (piece, more) := Text.Utf8.next b rest
    .ok (if Text.isBlank piece.toChar then some (.trivia more) else none)
  else .ok none

/-- The token of a string that starts with `lead` bytes of marks and goes on for `extent` bytes. -/
def stringToken (lead : Nat) (extent : Option Nat) (fault : SyntaxError.Cause) :
    Except Fault (Option Piece) :=
  match extent with
  | none => .error ⟨0, fault⟩
  | some n => .ok (some (.token .string 0 (lead + n - 1)))

/-- The token of an interpolated string that starts with `lead` bytes of marks. -/
def interpolatedToken (isVerbatim : Bool) (lead : Nat) (bs : List UInt8) :
    Except Fault (Option Piece) :=
  (interpolated isVerbatim 0 lead (bs.drop lead)).map fun n => some (.token .string 0 (n - 1))

/-- The token of a literal on one line, `rest` being the bytes behind its opening `mark`. -/
def quotedToken (kind : TokenKind) (mark : UInt8) (rest : List UInt8) :
    Except Fault (Option Piece) :=
  match quoted mark rest with
  | .error cause => .error ⟨0, cause⟩
  | .ok n => .ok (some (.token kind 0 n))

/-- The token of a literal or of a prefixed identifier at the head of a text, if one of the marks
`@`, `$`, `"` and `'` opens it. -/
def marked? (b : UInt8) (rest : List UInt8) : Except Fault (Option Piece) :=
  let bs := b :: rest
  if b == ascii '@' then
    if startsWith "\"" rest then stringToken 2 (verbatim? (rest.drop 1)) .unterminatedVerbatim
    else if startsWith "$\"" rest then interpolatedToken true 3 bs
    else .ok ((identifier? rest).map (.token .ident 1 ·))
  else if b == ascii '$' then
    if startsWith "\"\"\"" rest then stringToken 1 (raw? rest) .unterminatedRaw
    else if startsWith "\"" rest then interpolatedToken false 2 bs
    else if startsWith "@\"" rest then interpolatedToken true 3 bs
    else if startsWith "$" rest then
      let signs := countWhile (· == ascii '$') bs
      if startsWith "\"\"\"" (bs.drop signs) then
        stringToken signs (raw? (bs.drop signs)) .unterminatedRaw
      else .ok none
    else .ok none
  else if b == ascii '"' then
    if startsWith "\"\"\"" bs then stringToken 0 (raw? bs) .unterminatedRaw
    else quotedToken .string b rest
  else if b == ascii '\'' then quotedToken .char b rest
  else .ok none

/-- The number or punctuator at the head of a text. -/
def plain (b : UInt8) (rest : List UInt8) : Except Fault Piece :=
  let bs := b :: rest
  if isDigit b || (b == ascii '.' && (rest.head?.map isDigit).getD false) then
    let (kind, n) := number bs
    .ok (.token kind 0 (n - 1))
  else
    match punctuators.find? (startsWith · bs) with
    | some p => .ok (.token .punct 0 (p.length - 1))
    | none => .error ⟨0, .unexpectedChar (Text.Utf8.next b rest).1.toChar⟩

/-- The piece at the head of a text. -/
def piece (fresh : Bool) (b : UInt8) (rest : List UInt8) : Except Fault Piece := do
  if let some p ← trivia? fresh b rest then return p
  match identifier? (b :: rest) with
  | some n =>
    let word := Text.Utf8.text ((b :: rest).take n)
    return .token (if keywords.contains word then .keyword else .ident) 0 (n - 1)
  | none =>
    if let some p ← marked? b rest then return p
    plain b rest

/-! ### The whole text -/

/-- What the lexer knows between two pieces. -/
structure State where
  /-- The number of bytes read. -/
  offset : Nat := 0
  /-- Whether only blanks, tabs and carriage returns were read on the current line. -/
  fresh : Bool := true
  /-- The documentation lines read since the last token, last first. -/
  docs : List String := []
  nullable : Bool := false

/-- Whether a line is still fresh behind one more byte. -/
def freshAfter (fresh : Bool) (b : UInt8) : Bool :=
  if b == newline then true
  else fresh && (b == ascii ' ' || b == ascii '\t' || b == ascii '\r')

/-- The documentation of the next token. -/
def State.doc (s : State) : String := "\n".intercalate s.docs.reverse

/-- The state behind a piece that consists of the bytes `bs`. -/
def State.advance (s : State) (p : Piece) (bs : List UInt8) : State where
  offset := s.offset + bs.length
  fresh := bs.foldl freshAfter s.fresh
  docs :=
    match p with
    | .doc line _ => line :: s.docs
    | .token .. => []
    | _ => s.docs
  nullable :=
    match p with
    | .directive true _ => true
    | _ => s.nullable

/-- The token that a piece consisting of the bytes `bs` yields, if it is one. -/
def State.token? (s : State) (p : Piece) (bs : List UInt8) : Option Token :=
  match p with
  | .token kind lead _ =>
    some ⟨kind, Text.Utf8.text (bs.drop lead), ⟨s.offset + lead, s.offset + bs.length⟩, s.doc⟩
  | _ => none

/-- The tokens of the rest of a text, up to and with the end-of-file token, and whether nullable
references are enabled. -/
def run (s : State) : List UInt8 → Except SyntaxError (List Token × Bool)
  | [] => .ok ([⟨.eof, "", ⟨s.offset, s.offset⟩, s.doc⟩], s.nullable)
  | b :: rest =>
    match piece s.fresh b rest with
    | .error f => .error ⟨s.offset + f.distance, f.cause⟩
    | .ok p => do
      let bs := b :: rest.take p.more
      let (tokens, nullable) ← run (s.advance p bs) (rest.drop p.more)
      return ((s.token? p bs).toList ++ tokens, nullable)
termination_by bs => bs.length

/-- The bytes of the byte-order mark. -/
def byteOrderMark : List UInt8 := [0xEF, 0xBB, 0xBF]

end Lexer

/-- The tokens of a source text, the last of which marks the end of the file, and whether a
`#nullable enable` directive stands in it. A leading byte-order mark is skipped. -/
def lex (source : List UInt8) : Except SyntaxError (List Token × Bool) :=
  if Lexer.byteOrderMark.isPrefixOf source then
    Lexer.run { offset := 3, fresh := false } (source.drop 3)
  else Lexer.run {} source

end CSharpAudit
