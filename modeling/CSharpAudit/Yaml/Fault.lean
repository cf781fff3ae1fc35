/-!
# What can be wrong with a YAML text

## Main definitions

* `Yaml.Problem` — a reason why a text is malformed, and its wording
* `Yaml.Fault` — a problem and the line that is named with it
-/

namespace CSharpAudit.Yaml

/-- The greatest depth of collections inside each other. -/
def maxDepth : Nat := 10000

/-- A reason why a text is malformed. -/
inductive Problem where
  -- bytes
  | leadingByte
  | incompleteSequence
  | trailingByte
  | overlongSequence
  | surrogateSequence
  | controlCharacter
  | incompleteUnit
  | lowSurrogate
  | incompletePair
  | missingLowSurrogate
  -- tokens
  | noColon
  | tooDeep
  | entryNotAllowed
  | keyNotAllowed
  | valueNotAllowed
  | noToken
  | noDirectiveName
  | directiveName
  | unknownDirective
  | noVersion
  | noVersionPoint
  | longVersion
  | noBlank
  | noBlankOrBreak
  | noCommentOrBreak
  | anchorName
  | noAngle
  | noExclamationMark
  | noTagText
  | noEscapedByte
  | escapedLeadingByte
  | escapedTrailingByte
  | zeroIndentation
  | tabInIndentation
  | tabInPlain
  | markInQuoted
  | endInQuoted
  | unknownEscape
  | noHexDigits
  | escapedCharacter
  -- nodes
  | noDocumentStart
  | secondVersion
  | otherVersion
  | secondHandle
  | unknownHandle
  | noContent
  | noKey
  | noDash
  | noCommaOrBracket
  | noCommaOrBrace
  deriving DecidableEq, Repr, Inhabited

/-- The wording of a problem. -/
def Problem.text : Problem → String
  | leadingByte => "invalid leading UTF-8 octet"
  | incompleteSequence => "incomplete UTF-8 octet sequence"
  | trailingByte => "invalid trailing UTF-8 octet"
  | overlongSequence => "invalid length of a UTF-8 sequence"
  | surrogateSequence => "invalid Unicode character"
  | controlCharacter => "control characters are not allowed"
  | incompleteUnit => "incomplete UTF-16 character"
  | lowSurrogate => "unexpected low surrogate area"
  | incompletePair => "incomplete UTF-16 surrogate pair"
  | missingLowSurrogate => "expected low surrogate area"
  | noColon => "could not find expected ':'"
  | tooDeep => "exceeded max depth of " ++ toString maxDepth
  | entryNotAllowed => "block sequence entries are not allowed in this context"
  | keyNotAllowed => "mapping keys are not allowed in this context"
  | valueNotAllowed => "mapping values are not allowed in this context"
  | noToken => "found character that cannot start any token"
  | noDirectiveName => "could not find expected directive name"
  | directiveName => "found unexpected non-alphabetical character"
  | unknownDirective => "found unknown directive name"
  | noVersion => "did not find expected version number"
  | noVersionPoint => "did not find expected digit or '.' character"
  | longVersion => "found extremely long version number"
  | noBlank => "did not find expected whitespace"
  | noBlankOrBreak => "did not find expected whitespace or line break"
  | noCommentOrBreak => "did not find expected comment or line break"
  | anchorName => "did not find expected alphabetic or numeric character"
  | noAngle => "did not find the expected '>'"
  | noExclamationMark => "did not find expected '!'"
  | noTagText => "did not find expected tag URI"
  | noEscapedByte => "did not find URI escaped octet"
  | escapedLeadingByte => "found an incorrect leading UTF-8 octet"
  | escapedTrailingByte => "found an incorrect trailing UTF-8 octet"
  | zeroIndentation => "found an indentation indicator equal to 0"
  | tabInIndentation => "found a tab character where an indentation space is expected"
  | tabInPlain => "found a tab character that violates indentation"
  | markInQuoted => "found unexpected document indicator"
  | endInQuoted => "found unexpected end of stream"
  | unknownEscape => "found unknown escape character"
  | noHexDigits => "did not find expected hexdecimal number"
  | escapedCharacter => "found invalid Unicode character escape code"
  | noDocumentStart => "did not find expected <document start>"
  | secondVersion => "found duplicate %YAML directive"
  | otherVersion => "found incompatible YAML document"
  | secondHandle => "found duplicate %TAG directive"
  | unknownHandle => "found undefined tag handle"
  | noContent => "did not find expected node content"
  | noKey => "did not find expected key"
  | noDash => "did not find expected '-' indicator"
  | noCommaOrBracket => "did not find expected ',' or ']'"
  | noCommaOrBrace => "did not find expected ',' or '\x7d'"

/-- A problem and the line that is named with it; zero names none. -/
structure Fault where
  line : Nat
  problem : Problem
  deriving DecidableEq, Repr, Inhabited

namespace Fault

/-- The line that is named of two, counted from zero: that where something began, unless it is the
first one, and that where the problem is otherwise. -/
def nearer (start place : Nat) : Nat := if start != 0 then start else place

/-- A problem among the characters: lines are named as they are counted by people, but the first one
is never named. -/
def ofText (start place : Nat) (p : Problem) : Fault :=
  let line := nearer start place
  ⟨if line == 0 then 0 else line + 1, p⟩

/-- A problem among the tokens: the line before is named. -/
def ofTokens (start place : Nat) (p : Problem) : Fault := ⟨nearer start place, p⟩

/-- The wording of a fault. -/
def text (f : Fault) : String :=
  (if f.line == 0 then "" else "line " ++ toString f.line ++ ": ") ++ f.problem.text

end Fault

end CSharpAudit.Yaml
