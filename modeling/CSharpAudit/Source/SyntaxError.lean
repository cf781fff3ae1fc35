import CSharpAudit.Source.Position
import CSharpAudit.Text.Quoted
import CSharpAudit.Token.Basic

/-!
# Syntax errors

Reading a file stops at the first fault. A fault has a place and a cause; the wording of all causes
is in one function.

## Main definitions

* `SyntaxError.Cause` — why a source text is refused
* `SyntaxError.Cause.isEndless` — the causes that no text reaches
* `SyntaxError` — a cause and the byte offset where it was found
* `SyntaxError.message` — the wording, with line and column
-/

namespace CSharpAudit

/-- Why a source text is refused. In the grammatical causes `found` is the token at the place of the
fault. -/
inductive SyntaxError.Cause where
  | unterminatedComment
  | newlineInLiteral
  | unterminatedLiteral
  | unterminatedVerbatim
  | newlineInInterpolated
  | unterminatedInterpolated
  | unterminatedRaw
  | unexpectedChar (c : Char)
  | expected (text : String) (found : Token)
  | expectedIdentifier (found : Token)
  | expectedType (found : Token)
  | expectedMemberName (found : Token)
  | expectedTypeDeclaration (found : Token)
  | expectedCaseLabel (found : Token)
  | expectedOperator (found : Token)
  | expectedConstructorCall
  | unexpectedInExpression (found : Token)
  | unexpectedAccessor (kind : String)
  | unbalanced (opening : String)
  | shortTupleType
  | shortTuple
  | tryWithoutHandler
  | unterminatedBlock
  | unterminatedSwitch
  | unterminatedSection
  | unterminatedType (kind name : String)
  | unterminatedNamespace (name : String)
  | repeatedFileScope
  | nestedFileScope (name : String)
  /-- One reading of an ambiguous construct does not fit; another one is tried. -/
  | otherReading
  /-- A construct is nested more deeply than there are tokens, which no text reaches. -/
  | tooDeep
  /-- A loop went round without consuming a token, which no text reaches. -/
  | stalled
  deriving DecidableEq, Repr, Inhabited

/-- Whether a cause tells of a reading without end rather than of a fault in the text. -/
def SyntaxError.Cause.isEndless : SyntaxError.Cause → Bool
  | .tooDeep | .stalled => true
  | _ => false

/-- The first fault of a source text. -/
structure SyntaxError where
  offset : Int
  cause : SyntaxError.Cause
  deriving DecidableEq, Repr, Inhabited

namespace SyntaxError

/-- A token as a message shows it: its class and its quoted source text. -/
def describe (source : List UInt8) (t : Token) : String :=
  if t.kind == .eof then t.kind.description
  else t.kind.description ++ " "
    ++ Text.Quoted.bytes ((source.drop t.span.start).take t.span.length)

/-- The wording of a cause; quoted tokens are read from the source text. -/
def Cause.text (source : List UInt8) : Cause → String
  | unterminatedComment => "unterminated block comment"
  | newlineInLiteral => "newline in literal"
  | unterminatedLiteral => "unterminated literal"
  | unterminatedVerbatim => "unterminated verbatim string"
  | newlineInInterpolated => "newline in interpolated string"
  | unterminatedInterpolated => "unterminated interpolated string"
  | unterminatedRaw => "unterminated raw string"
  | unexpectedChar c => "unexpected character " ++ Text.Quoted.char c
  | expected text found =>
    "expected " ++ Text.Quoted.text text ++ ", found " ++ describe source found
  | expectedIdentifier found => "expected identifier, found " ++ describe source found
  | expectedType found => "expected type, found " ++ describe source found
  | expectedMemberName found => "expected member name, found " ++ describe source found
  | expectedTypeDeclaration found => "expected type declaration, found " ++ describe source found
  | expectedCaseLabel found => "expected case label, found " ++ describe source found
  | expectedOperator found => "expected overloadable operator, found " ++ describe source found
  | expectedConstructorCall => "expected 'base' or 'this' in constructor initializer"
  | unexpectedInExpression found => "unexpected " ++ describe source found ++ " in expression"
  | unexpectedAccessor kind => "unexpected accessor " ++ Text.Quoted.text kind
  | unbalanced opening => "unbalanced " ++ Text.Quoted.text opening
  | shortTupleType => "tuple type needs at least two elements"
  | shortTuple => "tuple needs at least two elements"
  | tryWithoutHandler => "try statement needs a catch or finally clause"
  | unterminatedBlock => "unterminated block"
  | unterminatedSwitch => "unterminated switch"
  | unterminatedSection => "unterminated switch section"
  | unterminatedType kind name => "unterminated " ++ kind ++ " " ++ name
  | unterminatedNamespace name => "unterminated namespace " ++ name
  | repeatedFileScope => "multiple file-scoped namespaces"
  | nestedFileScope name => "file-scoped namespace inside namespace " ++ name
  | otherReading => "not a declaration"
  | tooDeep => "nesting too deep"
  | stalled => "no progress"

/-- The offset of a fault, neither behind the end of the source text nor in front of its
beginning. -/
def place (source : List UInt8) (e : SyntaxError) : Nat :=
  (max 0 (min e.offset source.length)).toNat

/-- The line and column of a fault. -/
def position (source : List UInt8) (e : SyntaxError) : Position :=
  .ofOffset source (e.place source)

/-- The wording of a fault, with its line and column in front. -/
def message (source : List UInt8) (e : SyntaxError) : String :=
  let p := e.position source
  toString p.line ++ ":" ++ toString p.column ++ ": " ++ e.cause.text source

end SyntaxError

end CSharpAudit
