import CSharpAudit.Source.SyntaxError
import CSharpAudit.Syntax.Node

/-!
# Parsers over a token list

A parser reads tokens from the front of a list. The token that marks the end of the file is never
consumed: when the list is empty it is the current token for good.

## Main definitions

* `Grammar.Input`, `Grammar.Cursor` — what a parser reads, and how far it has come
* `Grammar.Parser` — a reading of tokens that yields a value or a fault
* `Grammar.attempt`, `Grammar.lookahead` — speculative readings
* `Grammar.repeatWhile`, `Grammar.separated`, `Grammar.listUntil`, `Grammar.extend` — the loops of
  the grammar; each round of a loop consumes a token, so the tokens left bound their number
* `Grammar.Rules` — the productions that a nested construct may start again
-/

namespace CSharpAudit.Grammar

/-- What stays fixed while a file is parsed. -/
structure Input where
  source : List UInt8
  /-- The token that marks the end of the file. -/
  eof : Token

/-- How far a parser has come. -/
structure Cursor where
  /-- The tokens not yet consumed, without the one that marks the end of the file. -/
  rest : List Token
  /-- The end of the last token consumed, zero before the first one. -/
  lastEnd : Nat := 0

/-- A reading of tokens. -/
abbrev Parser := ReaderT Input (StateT Cursor (Except SyntaxError))

/-! ### Single tokens -/

/-- The token `n` places behind the current one. -/
def peek (n : Nat) : Parser Token := do
  return ((← get).rest[n]?).getD (← read).eof

/-- The current token. -/
def current : Parser Token := peek 0

/-- The byte offset of the current token. -/
def offset : Parser Nat := do return (← current).span.start

/-- Consumes the current token, unless it marks the end of the file. -/
def advance : Parser Token := do
  let t ← current
  modify fun c =>
    match c.rest with
    | [] => c
    | t :: rest => ⟨rest, t.span.stop⟩
  return t

/-- Consumes the current token and the `n` tokens behind it. -/
def advanceBy : Nat → Parser Unit
  | 0 => pure ()
  | n + 1 => do
    discard advance
    advanceBy n

/-- The text from `start` to the end of the last token consumed. -/
def spanFrom (start : Nat) : Parser Span := do return ⟨start, (← get).lastEnd⟩

/-- Stops at the current token. -/
def fail {α : Type} (cause : SyntaxError.Cause) : Parser α := do
  throw ⟨← offset, cause⟩

/-- Stops at the current token, which the cause mentions. -/
def failAt {α : Type} (cause : Token → SyntaxError.Cause) : Parser α := do
  fail (cause (← current))

/-- Whether the token `n` places behind the current one is the given punctuator or keyword. -/
def peekIs (n : Nat) (text : String) : Parser Bool := do return (← peek n).is text

/-- Whether the current token is the given punctuator or keyword. -/
def is (text : String) : Parser Bool := peekIs 0 text

/-- Whether the current token is one of the given punctuators and keywords. -/
def isOneOf (texts : List String) : Parser Bool := do
  let t ← current
  return texts.any t.is

/-- Whether the current token is the given contextual keyword. -/
def isWord (text : String) : Parser Bool := do return (← current).isWord text

def isIdent : Parser Bool := do return (← current).isIdent

/-- Whether an identifier stands `n` places behind the current token. -/
def peekIdent (n : Nat) : Parser Bool := do return (← peek n).isIdent

def atEnd : Parser Bool := do return (← current).kind == .eof

/-- Whether the current token and the one behind it touch. -/
def touchesNext : Parser Bool := do
  return (← peek 0).span.stop == (← peek 1).span.start

/-- Whether the next token and the one behind it touch. -/
def nextTouches : Parser Bool := do
  return (← peek 1).span.stop == (← peek 2).span.start

/-- Whether the current token is anything but the given punctuator or keyword. -/
def isNot (text : String) : Parser Bool := do return !(← is text)

/-- Consumes the current token if `condition` holds. -/
def acceptIf (condition : Parser Bool) : Parser Bool := do
  if ← condition then
    discard advance
    return true
  return false

/-- Consumes the current token if it is the given one. -/
def accept (text : String) : Parser Bool := acceptIf (is text)

/-- Consumes the current token if it is the given contextual keyword. -/
def acceptWord (text : String) : Parser Bool := acceptIf (isWord text)

/-- Consumes the current token if it is one of the given ones and yields its text, else the empty
text. -/
def textOf (texts : List String) : Parser String := do
  if ← isOneOf texts then return (← advance).text else return ""

/-- Consumes the given token. -/
def expect (text : String) : Parser Token := do
  if ← is text then advance else failAt (.expected text)

/-- Consumes an identifier. -/
def expectIdent : Parser Token := do
  if ← isIdent then advance else failAt .expectedIdentifier

/-- Consumes an identifier and yields its text. -/
def identText : Parser String := do return (← expectIdent).text

/-- Consumes an identifier, if there is one, and yields its text, else the empty text. -/
def optionalIdent : Parser String := do
  if ← isIdent then return (← advance).text else return ""

/-! ### Optional parts -/

/-- The part that stands here if `condition` holds. -/
def optionalPart {α : Type} (condition : Parser Bool) (part : Parser α) : Parser (Option α) := do
  if ← condition then return some (← part) else return none

/-- The list that stands here if `condition` holds. -/
def optionalList {α : Type} (condition : Parser Bool) (part : Parser (List α)) :
    Parser (List α) := do
  if ← condition then part else return []

/-- Reads the part that stands here if `condition` holds, and drops it. -/
def skipIf {α : Type} (condition : Parser Bool) (part : Parser α) : Parser Unit := do
  if ← condition then discard part

/-- A part of something that must be closed before the end of the file. -/
def unlessEnd {α : Type} (cause : SyntaxError.Cause) (part : Parser α) : Parser α := do
  if ← atEnd then fail cause else part

/-! ### Speculation -/

/-- A reading that may fail; on failure nothing is consumed. Only a fault of the text counts as
failure, a reading without end does not. -/
def attempt {α : Type} (p : Parser α) : Parser (Option α) := fun input cursor =>
  match p input cursor with
  | .ok (a, cursor) => .ok (some a, cursor)
  | .error e => if e.cause.isEndless then .error e else .ok (none, cursor)

/-- A reading that may fail and consumes nothing either way. -/
def lookahead {α : Type} (p : Parser α) : Parser (Option α) := fun input cursor =>
  match p input cursor with
  | .ok (a, _) => .ok (some a, cursor)
  | .error e => if e.cause.isEndless then .error e else .ok (none, cursor)

/-! ### Loops -/

/-- The number of tokens not yet consumed. -/
def tokensLeft : Parser Nat := do return (← get).rest.length

/-- One more than the number of tokens left, which no loop that consumes tokens exceeds. -/
def bound : Parser Nat := do return (← tokensLeft) + 1

/-- Goes on with a loop behind a round that began with `left` tokens. A round that consumed none of
them would be repeated for ever. -/
def nextRound {α : Type} (left : Nat) (next : Parser α) : Parser α := do
  if (← tokensLeft) < left then next else fail .stalled

/-- Repeats `item` while `condition` holds, at most `fuel` times. -/
def repeatFuel {α : Type} (condition : Parser Bool) (item : Parser α) : Nat → Parser (List α)
  | 0 => fail .stalled
  | fuel + 1 => do
    let left ← tokensLeft
    if ← condition then
      let a ← item
      return a :: (← nextRound left (repeatFuel condition item fuel))
    else return []

/-- Repeats `item` while `condition` holds. -/
def repeatWhile {α : Type} (condition : Parser Bool) (item : Parser α) : Parser (List α) := do
  repeatFuel condition item (← bound)

/-- The items behind the first one of a list without a closing token. -/
def moreItems {α : Type} (item : Parser α) : Parser (List α) := repeatWhile (accept ",") item

/-- One or more items with commas between them. -/
def separated {α : Type} (item : Parser α) : Parser (List α) := do
  let a ← item
  return a :: (← moreItems item)

/-- Items up to the token `closing`, at most `fuel` of them; see `listUntil`. -/
def listUntilFuel {α : Type} (closing : String) (item : Parser α) : Nat → Parser (List α)
  | 0 => fail .stalled
  | fuel + 1 => do
    let left ← tokensLeft
    if ← is closing then return []
    let a ← item
    if ← accept "," then return a :: (← nextRound left (listUntilFuel closing item fuel))
    else return [a]

/-- Items with commas between them. The list ends at the token `closing`, which may follow a comma,
or behind an item without a comma. -/
def listUntil {α : Type} (closing : String) (item : Parser α) : Parser (List α) := do
  listUntilFuel closing item (← bound)

/-- A list of items between two tokens. -/
def enclosed {α : Type} (opening closing : String) (item : Parser α) : Parser (List α) := do
  discard <| expect opening
  let items ← listUntil closing item
  discard <| expect closing
  return items

/-- Extends `a` by `step` as long as it yields a value, at most `fuel` times. -/
def extendFuel {α : Type} (step : α → Parser (Option α)) : Nat → α → Parser α
  | 0, _ => fail .stalled
  | fuel + 1, a => do
    let left ← tokensLeft
    match ← step a with
    | some a => nextRound left (extendFuel step fuel a)
    | none => return a

/-- Extends `a` by `step` as long as it yields a value. -/
def extend {α : Type} (step : α → Parser (Option α)) (a : α) : Parser α := do
  extendFuel step (← bound) a

/-- The opening brace. -/
def openBrace : String := "\x7b"

/-- The closing brace. -/
def closeBrace : String := "\x7d"

/-- The number of brackets open behind token `t`, with one more than `depth` open before it. -/
def openBehind (opening closing : String) (depth : Nat) (t : Token) : Nat :=
  if t.is opening then depth + 2 else if t.is closing then depth else depth + 1

/-- Consumes tokens until `depth` open brackets are closed. -/
def skipOpen (opening closing : String) : Nat → Nat → Parser Unit
  | 0, _ => fail .stalled
  | _ + 1, 0 => pure ()
  | fuel + 1, depth + 1 => do
    let left ← tokensLeft
    let t ← unlessEnd (.unbalanced opening) advance
    nextRound left (skipOpen opening closing fuel (openBehind opening closing depth t))

/-- Consumes a bracketed group that starts at the current token. -/
def skipBalanced (opening closing : String) : Parser Unit := do
  discard <| expect opening
  skipOpen opening closing ((← bound) + 1) 1

/-- The productions that a nested construct may start again. Each of them is called only after a
token has been consumed, so the depth of nesting is bounded by the number of tokens. -/
structure Rules where
  type : Parser TypeRef
  expr : Parser Node
  unary : Parser Node
  /-- A binary expression whose operators have at least the given precedence. -/
  binary : Nat → Parser Node
  pattern : Parser Node
  primaryPattern : Parser Node
  initializer : Parser (List Node × Span)
  block : Parser Node
  statement : Parser Node
  member : Parser Node
  namespaceDecl : Parser (NamespaceDecl Node)

end CSharpAudit.Grammar
