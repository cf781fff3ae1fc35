import CSharpAudit.Text.Utf8
import CSharpAudit.Yaml.Content

/-!
# Scanning YAML

A YAML text is read as tokens. Indentation shows in tokens that begin and end block collections, so
that all else is independent of the layout.

The scanner turns a text into tokens, as many as are asked for. Whether a text is the key of a
mapping shows only at the colon behind it; so each place where a key may begin is kept in mind, and
the tokens that begin a mapping and a key are put there once the colon comes.

## Main definitions

* `Yaml.Token`, `Yaml.Lexeme` — a token, and the line on which it begins
* `Yaml.Scanner` — the state of a scan: a place in the text and the tokens that wait
* `Yaml.Scan` — a step of a scan
* `Yaml.Scan.fetch` — adds the next token to those that wait
* `Yaml.Scan.head`, `Yaml.Scan.drop` — the first token that waits, and going over it
-/

namespace CSharpAudit.Yaml

/-! ### Tokens -/

/-- A token of a YAML text. -/
inductive Token where
  | streamStart
  | streamEnd
  /-- The version of the format that a text is written in. -/
  | version (major minor : Nat)
  /-- What the handle of a tag stands for. -/
  | handle (name stem : String)
  | documentStart
  | documentEnd
  | blockSequenceStart
  | blockMappingStart
  | blockEnd
  | flowSequenceStart
  | flowSequenceEnd
  | flowMappingStart
  | flowMappingEnd
  | blockEntry
  | flowEntry
  | key
  | value
  | alias (name : String)
  | anchor (name : String)
  | tag (handle suffix : String)
  /-- A text, with quotation marks or as a block unless `plain`. -/
  | scalar (text : String) (plain : Bool)
  deriving DecidableEq, Repr, Inhabited

/-- A token and the line on which it begins, counted from zero. -/
structure Lexeme where
  token : Token
  line : Nat
  deriving DecidableEq, Repr, Inhabited

/-! ### The state of a scan -/

/-- A place where the key of a mapping may have begun. -/
structure KeyPlace where
  /-- The number of tokens before it. -/
  token : Nat
  /-- Whether nothing but a key may stand there. -/
  required : Bool
  index : Nat
  line : Nat
  column : Nat

/-- The state of a scan. -/
structure Scanner where
  reader : Reader
  /-- The tokens that wait. -/
  queue : List Lexeme := [⟨.streamStart, 0⟩]
  /-- How many tokens were taken before them. -/
  taken : Nat := 0
  indent : Int := -1
  /-- The indentations around the present one. -/
  indents : List Int := []
  /-- Whether a key may begin here. -/
  keyAllowed : Bool := true
  /-- Where a key may have begun, for each pair of brackets around the place, the innermost first,
  and outside of all. -/
  keys : List (Option KeyPlace) := [none]

/-- Whether the scanner stands inside brackets. -/
def Scanner.inFlow (s : Scanner) : Bool := s.keys.length > 1

/-- The place where a key may have begun at the present depth. -/
def Scanner.key? (s : Scanner) : Option KeyPlace := s.keys.head?.join

/-- The same without that place. -/
def Scanner.clearKey (s : Scanner) : Scanner := { s with keys := none :: s.keys.drop 1 }

/-- A step of a scan. -/
abbrev Scan := StateT Scanner (Except Fault)

namespace Scan

/-- A step of reading as a step of a scan. -/
def reading {α : Type} (step : Read α) : Scan α := fun s =>
  (step s.reader).map fun (a, reader) => (a, { s with reader })

/-- Adds a token behind those that wait. -/
def push (t : Token) (line : Nat) : Scan Unit :=
  modify fun s => { s with queue := s.queue ++ [⟨t, line⟩] }

/-- Adds a token that begins here and goes over its characters. -/
def mark (count : Nat) (t : Token) : Scan Unit := do
  push t (← get).reader.line
  reading (Read.skipMany count)

/-- Tells whether a key may begin here. -/
def allowKey (allowed : Bool) : Scan Unit := modify fun s => { s with keyAllowed := allowed }

/-! ### Keys -/

/-- Forgets the place where a key may have begun, unless only a key may stand there. -/
def dropKey : Scan Unit := do
  let s ← get
  if let some k := s.key? then
    if k.required then reading (Read.fail k.line .noColon)
  set s.clearKey

/-- Keeps in mind that a key may begin here. -/
def saveKey : Scan Unit := do
  let s ← get
  if s.keyAllowed then
    let r := s.reader
    let required := !s.inFlow && s.indent == r.column
    dropKey
    let k : KeyPlace := ⟨s.taken + s.queue.length, required, r.index, r.line, r.column⟩
    modify fun s => { s with keys := some k :: s.keys.drop 1 }

/-- Whether a key that began at a place may still end here: on the same line and not too far. A key
that is missing though nothing else may stand at a place is a fault. -/
def keyHolds (k : KeyPlace) : Scan Bool := do
  let r := (← get).reader
  if k.line < r.line || k.index + 1024 < r.index then
    if k.required then reading (Read.fail k.line .noColon)
    return false
  else return true

/-! ### Indentation -/

/-- The line that is named when collections are too deep. -/
def depthLine : Scan Nat := do return ((← get).key?.map (·.line)).getD 0

/-- Begins a block collection at a column that is right of the present indentation; its token, which
begins on the given line, stands before as many tokens as wait behind the given number. -/
def openBlock (column number line : Nat) (t : Token) : Scan Unit := do
  let s ← get
  if !s.inFlow && s.indent < column then
    reading (Read.check (← depthLine) (s.indents.length < maxDepth) .tooDeep)
    set { s with indents := s.indent :: s.indents, indent := column,
                 queue := s.queue.insertIdx (number - s.taken) ⟨t, line⟩ }

/-- Begins a block collection here, at the end of the tokens. -/
def openBlockHere (t : Token) : Scan Unit := do
  let s ← get
  openBlock s.reader.column (s.taken + s.queue.length) s.reader.line t

/-- Ends the block collections whose entries stand right of a column. -/
def closeBlocksFrom (column : Int) (line : Nat) : List Int → Scan Unit
  | [] => pure ()
  | outer :: rest => do
    if (← get).indent > column then
      push .blockEnd line
      modify fun s => { s with indent := outer, indents := rest }
      closeBlocksFrom column line rest

/-- Ends the block collections whose entries stand right of a column, on the given line. -/
def closeBlocks (column : Int) (line : Nat) : Scan Unit := do
  let s ← get
  if !s.inFlow then closeBlocksFrom column line s.indents

/-- Ends everything that is open, before a document or the whole text ends. -/
def endDocument : Scan Unit := do
  closeBlocks (-1) (← get).reader.line
  dropKey
  allowKey false

/-! ### Blanks and comments -/

/-- Goes over blanks, comments and empty lines. At the beginning of a line, where a key may begin, a
tab is no blank. -/
def skipToTokenFrom : Nat → Scan Unit
  | 0 => pure ()
  | fuel + 1 => do
    reading (Read.need 1)
    let r := (← get).reader
    if r.column == 0 && r.marked then reading Read.skip
    let s ← get
    reading (Read.skipWhile fun c => c == ' ' || (c == '\t' && (s.inFlow || !s.keyAllowed)))
    if ← reading (Read.sees '#') then reading Read.skipComments
    if (← reading (Read.peek 0)).any isBreak then
      reading (Read.need 2)
      let _ ← reading Read.newline
      if !(← get).inFlow then allowKey true
      skipToTokenFrom fuel

/-- Goes over blanks, comments and empty lines. -/
def skipToToken : Scan Unit := do skipToTokenFrom ((← get).reader.rest.length + 1)

/-! ### Directives -/

/-- A number of a version. -/
def versionNumber (start : Nat) : Read Nat := do
  let digits ← Read.takeWhile Char.isDigit
  Read.check start (digits.length ≤ 2) .longVersion
  Read.check start (!digits.isEmpty) .noVersion
  return digits.foldl (fun n c => 10 * n + (c.toNat - 48)) 0

/-- The bytes of the character whose escaped bytes stand at a place; `left` tells how many are to
follow, if the first one has been read. -/
def escapedBytes (start : Nat) : Nat → (left : Option Nat) → Read (List UInt8)
  | 0, _ => return []
  | fuel + 1, left => do
    Read.need 3
    match (← get).rest with
    | '%' :: a :: b :: _ =>
      match Read.hexNumber? [a, b] with
      | none => Read.fail start .noEscapedByte
      | some n =>
        let byte := UInt8.ofNat n
        let left ← match left with
          | none => match Encoding.width? byte with
            | none => Read.fail start .escapedLeadingByte
            | some width => pure (width - 1)
          | some left =>
            Read.check start (Encoding.continues byte) .escapedTrailingByte
            pure (left - 1)
        Read.skipMany 3
        if left == 0 then return [byte]
        else return byte :: (← escapedBytes start fuel (some left))
    | _ => Read.fail start .noEscapedByte

/-- Whether a character may stand in a tag. -/
def isTagChar (c : Char) : Bool := isNameChar c || ";/?:@&=+$,.!~*'()[]".toList.contains c

/-- The text of a tag, with escaped bytes, from the given beginning on. -/
def tagTextFrom (start : Nat) : Nat → List UInt8 → Read (List UInt8)
  | 0, text => return text
  | fuel + 1, text => do
    Read.need 1
    match ← Read.peek 0 with
    | some c =>
      if c == '%' then tagTextFrom start fuel (text ++ (← escapedBytes start 4 none))
      else if isTagChar c then
        Read.skip
        tagTextFrom start fuel (text ++ [UInt8.ofNat c.toNat])
      else return text
    | none => return text

/-- The text of a tag. `head` is what was read of it before; there must be more unless the tag has
begun. -/
def tagText (start : Nat) (begun : Bool) (head : String) : Read String := do
  let r ← get
  let text ← tagTextFrom start (r.rest.length + 1) (Text.Utf8.bytes head)
  Read.check start (begun || (← get).index != r.index) .noTagText
  return Text.Utf8.text text

/-- The handle of a tag: a name between exclamation marks or a single mark. In a directive it must
be complete. -/
def tagHandle (start : Nat) (directive : Bool) : Read String := do
  Read.need 1
  Read.check start (← Read.sees '!') .noExclamationMark
  Read.skip
  let name := "!" ++ String.ofList (← Read.takeWhile isNameChar)
  if ← Read.sees '!' then
    Read.skip
    return name.push '!'
  else
    Read.check start (!directive || name == "!") .noExclamationMark
    return name

/-- What a directive tells, behind its name. -/
def directiveValue (start : Nat) (name : String) : Read Token := do
  if name == "YAML" then
    Read.skipWhile isBlank
    let major ← versionNumber start
    Read.check start (← Read.sees '.') .noVersionPoint
    Read.skip
    return .version major (← versionNumber start)
  else if name == "TAG" then
    Read.skipWhile isBlank
    let handle ← tagHandle start true
    Read.need 1
    Read.check start ((← Read.peek 0).any isBlank) .noBlank
    Read.skipWhile isBlank
    let stem ← tagText start false ""
    Read.need 1
    Read.check start (endsWord (← Read.peek 0)) .noBlankOrBreak
    return .handle handle stem
  else Read.fail start .unknownDirective

/-- A directive and the rest of its line. -/
def directiveLine (start : Nat) : Read Token := do
  Read.skip
  let name ← Read.takeWhile isNameChar
  Read.check start (!name.isEmpty) .noDirectiveName
  Read.check start (endsWord (← Read.peek 0)) .directiveName
  let t ← directiveValue start (String.ofList name)
  Read.skipWhile isBlank
  if ← Read.sees '#' then Read.skipWhile (!isBreak ·)
  Read.check start (endsLine (← Read.peek 0)) .noCommentOrBreak
  if (← Read.peek 0).isSome then
    Read.need 2
    let _ ← Read.newline
  return t

/-- A directive. -/
def directive : Scan Unit := do
  endDocument
  let line := (← get).reader.line
  push (← reading (directiveLine line)) line

/-! ### Other tokens -/

/-- The mark where a document begins or ends. -/
def documentMark (t : Token) : Scan Unit := do
  endDocument
  mark 3 t

/-- An entry of a block sequence. -/
def blockEntry : Scan Unit := do
  let s ← get
  if !s.inFlow then
    reading (Read.check s.reader.line s.keyAllowed .entryNotAllowed)
    openBlockHere .blockSequenceStart
  dropKey
  allowKey true
  mark 1 .blockEntry

/-- A key that is marked as such. -/
def explicitKey : Scan Unit := do
  let s ← get
  if !s.inFlow then
    reading (Read.check s.reader.line s.keyAllowed .keyNotAllowed)
    openBlockHere .blockMappingStart
  dropKey
  allowKey (!s.inFlow)
  mark 1 .key

/-- The colon before a value, which shows whether a key has gone before. -/
def valueMark : Scan Unit := do
  let s ← get
  let key? ← match s.key? with
    | some k => do pure (if ← keyHolds k then some k else none)
    | none => pure none
  modify (·.clearKey)
  match key? with
  | some k =>
    modify fun s => { s with queue := s.queue.insertIdx (k.token - s.taken) ⟨.key, k.line⟩ }
    openBlock k.column k.token k.line .blockMappingStart
    allowKey false
  | none =>
    if !s.inFlow then
      reading (Read.check s.reader.line s.keyAllowed .valueNotAllowed)
      openBlockHere .blockMappingStart
    allowKey (!s.inFlow)
  mark 1 .value

/-- The name of an anchor, behind its mark. -/
def anchorName (start : Nat) : Read String := do
  Read.skip
  let name ← Read.takeWhile isNameChar
  let next ← Read.peek 0
  Read.check start (!name.isEmpty && (endsWord next || next.any ("?:,]\x7d%@`".toList.contains ·)))
    .anchorName
  return String.ofList name

/-- An anchor or the name of one. -/
def anchor (token : String → Token) : Scan Unit := do
  saveKey
  allowKey false
  let line := (← get).reader.line
  push (token (← reading (anchorName line))) line

/-- A tag: an exclamation mark and a word, a handle between two exclamation marks and a word, or a
whole tag between angles. -/
def tagToken (start : Nat) : Read Token := do
  Read.need 2
  let t ← if (← Read.peek 1) == some '<' then do
      Read.skipMany 2
      let text ← tagText start false ""
      Read.check start (← Read.sees '>') .noAngle
      Read.skip
      pure (.tag "" text)
    else do
      let handle ← tagHandle start false
      if handle.length > 1 && handle.endsWith "!" then pure (.tag handle (← tagText start false ""))
      else
        let suffix ← tagText start true (handle.drop 1).toString
        pure (if suffix.isEmpty then .tag "" "!" else .tag "!" suffix)
  Read.need 1
  Read.check start (endsWord (← Read.peek 0)) .noBlankOrBreak
  return t

/-- A tag. -/
def tag : Scan Unit := do
  saveKey
  allowKey false
  let line := (← get).reader.line
  push (← reading (tagToken line)) line

/-- A block text. -/
def blockText (literal : Bool) : Scan Unit := do
  dropKey
  allowKey true
  let s ← get
  push (.scalar (← reading (Read.block literal s.indent)) false) s.reader.line

/-- A quoted text. -/
def quotedText (single : Bool) : Scan Unit := do
  saveKey
  allowKey false
  let line := (← get).reader.line
  push (.scalar (← reading (Read.quoted single)) false) line

/-- A plain text. If a line ended behind it, a key may follow. -/
def plainText : Scan Unit := do
  saveKey
  let s ← get
  let (text, ended) ← reading (Read.plain s.inFlow (s.indent + 1).toNat)
  push (.scalar text true) s.reader.line
  allowKey ended

/-- Begins a collection in brackets. -/
def openFlow (t : Token) : Scan Unit := do
  saveKey
  modify fun s => { s with keys := none :: s.keys }
  reading (Read.check 0 ((← get).keys.length ≤ maxDepth + 1) .tooDeep)
  allowKey true
  mark 1 t

/-- Ends a collection in brackets. -/
def closeFlow (t : Token) : Scan Unit := do
  dropKey
  modify fun s => { s with keys := if s.inFlow then s.keys.drop 1 else s.keys }
  allowKey false
  mark 1 t

/-- Separates the entries of a collection in brackets. -/
def flowEntry : Scan Unit := do
  dropKey
  allowKey true
  mark 1 .flowEntry

/-- The end of the text. -/
def streamEnd : Scan Unit := do
  modify fun s =>
    let r := s.reader
    if r.column == 0 then s else { s with reader := { r with column := 0, line := r.line + 1 } }
  endDocument
  push .streamEnd (← get).reader.line

/-- The characters that no plain text begins with. -/
def indicators : List Char := "-?:,[]\x7b\x7d#&*!|>'\"%@`".toList

/-- Whether a plain text may begin with a character that is followed by the given one. -/
def beginsPlain (flow : Bool) (c : Char) (next : Option Char) : Bool :=
  !(isSpace c || indicators.contains c) || (c == '-' && !next.any isBlank)
    || (!flow && (c == '?' || c == ':') && !endsWord next)

/-- The token that begins with a character. -/
def token (c : Char) : Scan Unit := do
  let s ← get
  let next := s.reader.peek 1
  if c == '[' then openFlow .flowSequenceStart
  else if c == '\x7b' then openFlow .flowMappingStart
  else if c == ']' then closeFlow .flowSequenceEnd
  else if c == '\x7d' then closeFlow .flowMappingEnd
  else if c == ',' then flowEntry
  else if c == '-' && endsWord next then blockEntry
  else if c == '?' && (s.inFlow || endsWord next) then explicitKey
  else if c == ':' && (s.inFlow || endsWord next) then valueMark
  else if c == '*' then anchor .alias
  else if c == '&' then anchor .anchor
  else if c == '!' then tag
  else if c == '|' && !s.inFlow then blockText true
  else if c == '>' && !s.inFlow then blockText false
  else if c == '\'' then quotedText true
  else if c == '"' then quotedText false
  else if beginsPlain s.inFlow c next then plainText
  else reading (Read.fail s.reader.line .noToken)

/-! ### The tokens that wait -/

/-- Adds the next token to those that wait. -/
def fetch : Scan Unit := do
  reading (Read.need 1)
  let line := (← get).reader.line
  skipToToken
  closeBlocks (← get).reader.column line
  reading (Read.need 4)
  let r := (← get).reader
  match r.peek 0 with
  | none => streamEnd
  | some c =>
    if r.column == 0 && c == '%' then directive
    else if r.atDocumentMark then
      documentMark (if c == '-' then .documentStart else .documentEnd)
    else
      token c
      if (← get).queue.getLast?.all (·.token != .blockEntry) then reading Read.skipLineComment

/-- Whether a key may have begun at the first token that waits. -/
def headMayBeKey : Scan Bool := do
  let s ← get
  match s.keys.find? fun k => k.any (·.token == s.taken) with
  | some (some k) => keyHolds k
  | _ => return false

/-- Adds tokens until three wait and none of them is still to be put before the first one. -/
def fill : Nat → Scan Unit
  | 0 => pure ()
  | fuel + 1 => do
    if (← get).queue.length < 3 || (← headMayBeKey) then
      fetch
      fill fuel

/-- The first token that waits. -/
def head : Scan Lexeme := do
  fill ((← get).reader.rest.length + 4)
  return (← get).queue.headD ⟨.streamEnd, 0⟩

/-- Goes over the first token that waits. -/
def drop : Scan Unit := modify fun s => { s with queue := s.queue.drop 1, taken := s.taken + 1 }

end Scan

end CSharpAudit.Yaml
