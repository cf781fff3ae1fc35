import CSharpAudit.Source.Position

/-!
# Tokens

A token is one lexeme of a C# source file: its class, its text, the bytes it covers and the
documentation comment that stands before it.

## Main definitions

* `TokenKind` — the classes of lexemes
* `Token` — a lexeme
* `keywords`, `predefinedTypes`, `punctuators` — the fixed vocabularies
-/

namespace CSharpAudit

/-- The classes of lexemes. -/
inductive TokenKind where
  | eof | ident | keyword | int | real | string | char | punct
  deriving DecidableEq, Repr, Inhabited

/-- The words that describe a class of lexemes in a message. -/
def TokenKind.description : TokenKind → String
  | .eof => "end of file"
  | .ident => "identifier"
  | .keyword => "keyword"
  | .int | .real => "number"
  | .string => "string"
  | .char => "char"
  | .punct => "punctuation"

/-- One lexeme. -/
structure Token where
  kind : TokenKind
  /-- The text covered, with U+FFFD for each byte that is not UTF-8. -/
  text : String
  span : Span
  /-- The lines of the `///` comments before the token, joined by newlines. -/
  doc : String := ""
  deriving DecidableEq, Repr, Inhabited

/-- Whether a token is the given punctuator or keyword. -/
def Token.is (t : Token) (text : String) : Bool :=
  (t.kind == .punct || t.kind == .keyword) && t.text == text

/-- Whether a token is the given contextual keyword, which is lexed as an identifier. -/
def Token.isWord (t : Token) (text : String) : Bool := t.kind == .ident && t.text == text

def Token.isIdent (t : Token) : Bool := t.kind == .ident

/-- The reserved words. -/
def keywords : List String :=
  ["abstract", "as", "base", "bool", "break", "byte", "case", "catch", "char", "checked", "class",
   "const", "continue", "decimal", "default", "delegate", "do", "double", "else", "enum", "event",
   "explicit", "extern", "false", "finally", "fixed", "float", "for", "foreach", "goto", "if",
   "implicit", "in", "int", "interface", "internal", "is", "lock", "long", "namespace", "new",
   "null", "object", "operator", "out", "override", "params", "private", "protected", "public",
   "readonly", "ref", "return", "sbyte", "sealed", "short", "sizeof", "stackalloc", "static",
   "string", "struct", "switch", "this", "throw", "true", "try", "typeof", "uint", "ulong",
   "unchecked", "unsafe", "ushort", "using", "virtual", "void", "volatile", "while"]

/-- The reserved words that name a type. -/
def predefinedTypes : List String :=
  ["bool", "byte", "char", "decimal", "double", "float", "int", "long", "object", "sbyte", "short",
   "string", "uint", "ulong", "ushort", "void"]

/-- The punctuators, longer ones first, so that the first one that fits is the longest. The tokens
`>>`, `>>>` and `>>=` are missing: they are read as several tokens and joined by the grammar. -/
def punctuators : List String :=
  ["<<=", "??=", "...",
   "=>", "==", "!=", "<=", ">=", "&&", "||", "++", "--", "+=", "-=", "*=", "/=", "%=",
   "&=", "|=", "^=", "<<", "->", "::", "??", "?.", "..",
   "\x7b", "\x7d", "(", ")", "[", "]", ";", ",", ".", ":", "?", "+", "-", "*", "/", "%",
   "&", "|", "^", "!", "~", "=", "<", ">", "@"]

/-- Whether a token is a reserved word that names a type. -/
def Token.isPredefinedType (t : Token) : Bool :=
  t.kind == .keyword && predefinedTypes.contains t.text

end CSharpAudit
