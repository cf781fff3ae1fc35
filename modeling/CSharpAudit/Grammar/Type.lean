import CSharpAudit.Grammar.Parser

/-!
# The grammar of types and names

## Main definitions

* `Grammar.qualifiedName` — a dotted name
* `Grammar.type` — a type with its nullable, pointer and array marks
* `Grammar.typeArgs` — a list of type arguments
* `Grammar.typeArgsInExpr?` — type arguments behind a name in an expression, where `<` may also be
  an operator
-/

namespace CSharpAudit.Grammar

/-- The segments behind the first one of a dotted name. -/
def moreSegments : Parser (List String) :=
  repeatWhile (do return (← is ".") && (← peekIdent 1)) do
    discard advance
    return (← advance).text

/-- The first segment of a name; an alias qualifier such as `global::` is dropped. -/
def firstSegment : Parser String := do
  let name ← identText
  if ← accept "::" then identText else return name

/-- A dotted name. -/
def qualifiedName : Parser String := do
  let first ← firstSegment
  return ".".intercalate (first :: (← moreSegments))

variable (self : Rules)

/-- One type argument, which may be missing as in `<,>`. -/
def typeArg : Parser TypeRef := do
  if (← is ",") || (← is ">") then return .omitted else self.type

/-- A list of type arguments in angle brackets. -/
def typeArgs : Parser (List TypeRef) := do
  discard <| expect "<"
  let args ← separated (typeArg self)
  discard <| expect ">"
  return args

/-- The type arguments at the current place, if there are any; they replace those read before. -/
def replaceArgs (args : List TypeRef) : Parser (List TypeRef) := do
  if ← is "<" then typeArgs self else return args

/-- A dotted name with type arguments, as a type without span and marks. Of arguments behind
several segments the last ones count. -/
def namedType : Parser TypeRef := do
  let first ← firstSegment
  let (segments, args) ← extend (fun ((segments, args) : List String × List TypeRef) => do
      if (← is ".") && (← peekIdent 1) then
        discard advance
        let segment := (← advance).text
        return some (segment :: segments, ← replaceArgs self args)
      else return none)
    ([first], ← replaceArgs self [])
  return { span := .none, name := ".".intercalate segments.reverse, args }

/-- An element of a tuple type: a type and perhaps a name. -/
def tupleElement : Parser (TypeRef × String) := do
  let t ← self.type
  return (t, ← optionalIdent)

/-- A tuple type, without span and marks. -/
def tupleType : Parser TypeRef := do
  discard <| expect "("
  let elements ← separated (tupleElement self)
  discard <| expect ")"
  if elements.length < 2 then fail .shortTupleType
  return { span := .none, name := TypeRef.tupleName, args := elements.map (·.1),
           tupleNames := elements.map (·.2) }

/-- An array mark: a bracket pair with commas inside. -/
def arrayMark : Parser Unit := do
  discard advance
  discard <| repeatWhile (accept ",") (pure ())
  discard <| expect "]"

/-- Whether an array mark stands at the current place. -/
def atArrayMark : Parser Bool := do
  return (← is "[") && ((← peekIs 1 "]") || (← peekIs 1 ","))

/-- Adds the mark at the current place to a type. A question mark before a point or a bracket
belongs to an expression. -/
def typeMark (t : TypeRef) : Parser (Option TypeRef) := do
  if (← is "?") && !(← peekIs 1 ".") && !(← peekIs 1 "[") then
    discard advance
    return some { t with nullable := true }
  else if ← is "*" then
    discard advance
    return some { t with pointer := true }
  else if ← atArrayMark then
    arrayMark
    return some { t with rank := t.rank + 1 }
  else return none

/-- A reserved word that names a type, as a type without span and marks. -/
def predefinedType : Parser TypeRef := do
  let t ← advance
  return { span := .none, name := t.text }

/-- A type without span and marks. -/
def unmarkedType : Parser TypeRef := do
  let t ← current
  if t.is "(" then tupleType self
  else if t.isPredefinedType then predefinedType
  else if t.isIdent then namedType self
  else failAt .expectedType

/-- A type. -/
def type : Parser TypeRef := do
  let start ← offset
  let marked ← extend typeMark (← unmarkedType self)
  return { marked with span := ← spanFrom start }

/-- The type behind `new`, without span and marks. -/
def unmarkedNewType : Parser TypeRef := do
  let t ← current
  if t.isPredefinedType then predefinedType
  else if t.is "(" then tupleType self
  else namedType self

/-- The type behind `new`, which ends before a bracket with an array size. -/
def newType : Parser TypeRef := do
  let start ← offset
  let base ← unmarkedNewType self
  let nullable ← acceptIf do return (← is "?") && !(← peekIs 1 ".")
  let marks ← repeatWhile atArrayMark arrayMark
  return { base with nullable := base.nullable || nullable, rank := base.rank + marks.length,
                     span := ← spanFrom start }

/-- The punctuators that may follow a generic name in an expression. -/
def typeArgFollowers : List String :=
  ["(", ")", "]", "\x7d", ":", ";", ",", ".", "?", "==", "!=", "|", "^", "&&", "||", "&", "[", "?.",
   "=>"]

/-- Type arguments behind a name in an expression. They count only if the token behind them may
follow a generic name. -/
def typeArgsInExpr? : Parser (Option (List TypeRef)) :=
  attempt do
    let args ← typeArgs self
    let t ← current
    if t.kind == .eof || (t.kind == .punct && typeArgFollowers.contains t.text) then return args
    else fail .otherReading

/-- The type arguments behind a name in an expression, none if `<` is an operator there. -/
def typeArgsInExpr : Parser (List TypeRef) := do
  if ← is "<" then return (← typeArgsInExpr? self).getD [] else return []

/-- Whether a type with an identifier behind it stands at the current place. -/
def atTypeThenIdent : Parser Bool := do
  return ((← lookahead do discard <| type self; isIdent)).getD false

end CSharpAudit.Grammar
