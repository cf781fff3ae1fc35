import CSharpAudit.Grammar.Type
import CSharpAudit.Syntax.Expression

/-!
# The grammar of expressions and patterns

Binary operators are read by precedence climbing. A parenthesis may open a cast, a lambda, a tuple
or a grouped expression; which one it is, is settled by looking ahead.

## Main definitions

* `Grammar.precedence?` — the precedence of a binary operator
* `Grammar.expr` — an expression with assignments, lambdas and `throw`
* `Grammar.binary` — a binary expression above a given precedence
* `Grammar.pattern` — a pattern behind `is` or `case`
-/

namespace CSharpAudit.Grammar

/-! ### Operators -/

/-- The precedence of `??`, the weakest binary operator. -/
def coalescePrecedence : Nat := 1

/-- The precedence of the relational operators, `is` and `as`. -/
def relationalPrecedence : Nat := 8

/-- The precedence of the shift operators. -/
def shiftPrecedence : Nat := 9

/-- The precedence of a binary operator written as one punctuator; higher binds tighter. -/
def precedence? (op : String) : Option Nat :=
  match op with
  | "??" => some coalescePrecedence
  | "||" => some 2
  | "&&" => some 3
  | "|" => some 4
  | "^" => some 5
  | "&" => some 6
  | "==" | "!=" => some 7
  | "<" | ">" | "<=" | ">=" => some relationalPrecedence
  | "<<" => some shiftPrecedence
  | "+" | "-" => some 10
  | ".." => some 11
  | "*" | "/" | "%" => some 12
  | _ => none

/-- The assignment operators that are single tokens. -/
def assignmentOps : List String :=
  ["=", "+=", "-=", "*=", "/=", "%=", "&=", "|=", "^=", "<<=", "??="]

/-- A binary operator at the current place. -/
structure Operator where
  text : String
  precedence : Nat
  /-- The number of tokens that write the operator. -/
  width : Nat := 1

/-- The binary operator at the current place. Touching `>` tokens write the right shifts, and `>`
with a touching `>=` is no binary operator but an assignment. -/
def binaryOp? : Parser (Option Operator) := do
  let t ← current
  if t.kind == .keyword && (t.text == "is" || t.text == "as") then
    return some ⟨t.text, relationalPrecedence, 1⟩
  else if t.kind != .punct then return none
  else
    let joined := t.text == ">" && (← touchesNext)
    if joined && (← peekIs 1 ">") then
      if (← peekIs 2 ">") && (← nextTouches) then return some ⟨">>>", shiftPrecedence, 3⟩
      else return some ⟨">>", shiftPrecedence, 2⟩
    else if joined && (← peekIs 1 ">=") then return none
    else return (precedence? t.text).map fun p => ⟨t.text, p, 1⟩

/-- Whether a token can begin an operand. -/
def startsOperand (t : Token) : Bool :=
  match t.kind with
  | .ident | .int | .real | .string | .char => true
  | .keyword =>
    ["this", "base", "new", "typeof", "default", "sizeof", "true", "false", "null", "checked",
     "unchecked", "stackalloc", "delegate"].contains t.text || predefinedTypes.contains t.text
  | .punct => ["(", "!", "~", "[", "@"].contains t.text
  | .eof => false

/-- Whether a token is one of the words that continue a pattern. -/
def continuesPattern (t : Token) : Bool := t.isWord "and" || t.isWord "or" || t.isWord "when"

/-- Whether the token at the current place can name the variable of a pattern. -/
def atDesignation : Parser Bool := do
  let t ← current
  return t.isIdent && !continuesPattern t

variable (self : Rules)

/-! ### Attributes, arguments and parameters -/

/-- The name before an argument and its colon, or empty. -/
def argumentName : Parser String := do
  if (← isIdent) && (← peekIs 1 ":") && !(← peekIs 2 ":") then
    let name := (← advance).text
    discard advance
    return name
  else return ""

/-- The value of an argument. Behind `out` a declaration may stand. -/
def argumentValue (modifier : String) : Parser Node := do
  if modifier == "out" && (← atTypeThenIdent self) then
    let start ← offset
    let t ← type self
    let varName := (← advance).text
    return .declExpr (← spanFrom start) (if t.name == "var" then none else some t) varName
  else self.expr

/-- An argument, with a name before a colon and a `ref`, `out` or `in` before the value. -/
def argument : Parser (Argument Node) := do
  let start ← offset
  let name ← argumentName
  let modifier ← textOf ["ref", "out", "in"]
  let value ← argumentValue self modifier
  return { span := ← spanFrom start, name, modifier, value }

/-- A list of arguments between two tokens. -/
def arguments (opening closing : String) : Parser (List (Argument Node)) :=
  enclosed opening closing (argument self)

/-- The attribute behind an optional target. -/
def oneAttribute (target : String) : Parser (Attribute Node) := do
  let start ← offset
  let name ← qualifiedName
  skipIf (is "<") (typeArgs self)
  let args ← optionalList (is "(") (arguments self "(" ")")
  return { span := ← spanFrom start, target, name, args }

/-- The word before the attributes of a group and its colon, or empty. -/
def attributeTarget : Parser String := do
  let t ← current
  if (t.kind == .ident || t.kind == .keyword) && (← peekIs 1 ":") && !(← peekIs 2 ":") then
    advanceBy 2
    return t.text
  else return ""

/-- Consumes the comma between two attributes; behind the comma the group may also end. -/
def acceptNextAttribute : Parser Bool := do
  if ← accept "," then isNot "]" else return false

/-- One bracketed group of attributes. -/
def attributeGroup : Parser (List (Attribute Node)) := do
  discard advance
  let target ← attributeTarget
  let first ← oneAttribute self target
  let more ← repeatWhile acceptNextAttribute (oneAttribute self target)
  discard <| expect "]"
  return first :: more

/-- The attribute groups at the current place. -/
def attributes : Parser (List (Attribute Node)) := do
  return (← repeatWhile (is "[") (attributeGroup self)).flatten

/-- The keywords that may precede the type of a parameter. -/
def paramModifiers : List String := ["ref", "out", "in", "params", "this", "readonly"]

/-- Whether a parameter modifier stands at the current place. -/
def atParamModifier : Parser Bool := do
  let t ← current
  return (t.kind == .keyword && paramModifiers.contains t.text)
    || (t.isWord "scoped" && (← peek 1).kind != .punct)

/-- The modifier that a parameter keeps: the first one, or the last `this`. -/
def keptModifier (mods : List String) : String :=
  if mods.contains "this" then "this" else mods.head?.getD ""

/-- A parameter. -/
def param : Parser (Param Node) := do
  let start ← offset
  let attributes ← optionalList (is "[") (attributes self)
  let mods ← repeatWhile atParamModifier do return (← advance).text
  let t ← type self
  let name ← expectIdent
  let default ← optionalPart (accept "=") self.expr
  return { span := ← spanFrom start, name := name.text, nameSpan := name.span, type := some t,
           modifier := keptModifier mods, default, attributes }

/-- A list of parameters between two tokens. -/
def params (opening closing : String) : Parser (List (Param Node)) :=
  enclosed opening closing (param self)

/-! ### Lambdas -/

/-- The number of tokens from an opening parenthesis to the one that closes it. `depth` counts the
parentheses open before the first token. -/
def closingParen? (depth : Nat) : List Token → Option Nat
  | [] => none
  | t :: rest =>
    if t.is "(" then (closingParen? (depth + 1) rest).map (· + 1)
    else if t.is ")" then
      if depth ≤ 1 then some 0 else (closingParen? (depth - 1) rest).map (· + 1)
    else (closingParen? depth rest).map (· + 1)

/-- A parameter of a lambda, which may lack a type. -/
def lambdaParam : Parser (Param Node) := do
  if (← isIdent) && ((← peekIs 1 ",") || (← peekIs 1 ")")) then
    let name ← advance
    return { span := name.span, name := name.text, nameSpan := name.span }
  else param self

/-- The body of a lambda. -/
def lambdaBody : Parser Node := do
  if ← is openBrace then self.block else self.expr

/-- A lambda whose parameters start `lead` tokens behind the current one, if there is one. -/
def lambdaFrom? (isAsync : Bool) (lead : Nat) : Parser (Option Node) := do
  let start ← offset
  if (← peekIdent lead) && (← peekIs (lead + 1) "=>") then
    advanceBy lead
    let name ← advance
    discard advance
    let body ← lambdaBody self
    let params := [{ span := name.span, name := name.text, nameSpan := name.span }]
    return some (.lambda (← spanFrom start) params body isAsync)
  else if ← peekIs lead "(" then
    match closingParen? 0 ((← get).rest.drop lead) with
    | none => return none
    | some n =>
      if ← peekIs (lead + n + 1) "=>" then
        advanceBy lead
        let params ← enclosed "(" ")" (lambdaParam self)
        discard <| expect "=>"
        let body ← lambdaBody self
        return some (.lambda (← spanFrom start) params body isAsync)
      else return none
  else return none

/-- A lambda, if one stands at the current place. -/
def lambda? : Parser (Option Node) := do
  let isAsync := (← isWord "async") && ((← peekIdent 1) || (← peekIs 1 "("))
  let lead := if isAsync then 1 else 0
  let lead := if ← peekIs lead "static" then lead + 1 else lead
  lambdaFrom? self isAsync lead

/-! ### Primary expressions -/

/-- An expression or a nested list in a braced list. -/
def initializerElement : Parser Node := do
  if ← is openBrace then
    let (elems, span) ← self.initializer
    return .initializer span elems
  else self.expr

/-- A braced list of expressions and nested lists, with its span. -/
def initializer : Parser (List Node × Span) := do
  let start ← offset
  let elems ← enclosed openBrace closeBrace (initializerElement self)
  return (elems, ← spanFrom start)

/-- A braced list of expressions, as an expression. -/
def initializerExpr : Parser Node := do
  let (elems, span) ← initializer self
  return .initializer span elems

/-- The braced list of expressions at the current place, if there is one. -/
def optionalInitializer : Parser (List Node) := do
  if ← is openBrace then return (← initializer self).1 else return []

/-- The array sizes between brackets. -/
def arraySizes : Parser (List Node) := do
  return (← arguments self "[" "]").map (·.value)

/-- What `new` creates. -/
structure Creation where
  type : Option TypeRef := none
  args : List (Argument Node) := []
  sizes : List Node := []

/-- A written type behind `new`, with array sizes or arguments. -/
def typedCreation : Parser Creation := do
  let t ← newType self
  if ← is "[" then
    let sizes ← arraySizes self
    discard <| repeatWhile (is "[") (skipBalanced "[" "]")
    return { type := some { t with rank := t.rank + 1 }, sizes }
  else return { type := some t, args := ← optionalList (is "(") (arguments self "(" ")") }

/-- What stands between `new` and a braced list. -/
def creation : Parser Creation := do
  if ← is "(" then return { args := ← arguments self "(" ")" }
  else if ← is "[" then
    skipBalanced "[" "]"
    return {}
  else if ← is openBrace then return {}
  else typedCreation self

/-- An object or array creation. -/
def newExpr : Parser Node := do
  let start ← offset
  discard <| expect "new"
  let made ← creation self
  let init ← optionalInitializer self
  return .newExpr (← spanFrom start) made.type made.args init made.sizes

/-- An array on the stack. -/
def stackallocExpr : Parser Node := do
  let start ← offset
  discard advance
  let t ← optionalPart (isNot "[") (type self)
  let sizes ← optionalList (is "[") (arraySizes self)
  let init ← optionalInitializer self
  return .newExpr (← spanFrom start) t [] init sizes

/-- A type between parentheses. -/
def parenthesizedType : Parser TypeRef := do
  discard <| expect "("
  let t ← type self
  discard <| expect ")"
  return t

/-- A primary expression that starts with the keyword `t`. -/
def keywordPrimary (t : Token) : Parser Node := do
  let start := t.span.start
  match t.text with
  | "true" | "false" =>
    discard advance
    return .literal (← spanFrom start) .bool t.text
  | "null" =>
    discard advance
    return .literal (← spanFrom start) .null t.text
  | "this" =>
    discard advance
    return .thisExpr (← spanFrom start)
  | "base" =>
    discard advance
    return .baseExpr (← spanFrom start)
  | "new" => newExpr self
  | "stackalloc" => stackallocExpr self
  | "typeof" | "sizeof" =>
    discard advance
    let ty ← parenthesizedType self
    return .typeOf (← spanFrom start) t.text ty
  | "default" =>
    discard advance
    if ← is "(" then
      let ty ← parenthesizedType self
      return .typeOf (← spanFrom start) "default" ty
    else return .defaultExpr (← spanFrom start)
  | "checked" | "unchecked" =>
    discard advance
    discard <| expect "("
    let x ← self.expr
    discard <| expect ")"
    return .paren (← spanFrom start) x
  | "delegate" =>
    discard advance
    let ps ← optionalList (is "(") (params self "(" ")")
    let body ← self.block
    return .lambda (← spanFrom start) ps body false
  | _ =>
    if predefinedTypes.contains t.text then
      discard advance
      return .predefinedType (← spanFrom start) t.text
    else failAt .unexpectedInExpression

/-- An expression in parentheses, or a tuple. -/
def parenOrTuple : Parser Node := do
  let start ← offset
  discard <| expect "("
  let first ← argument self
  if ← accept ")" then
    if first.name.isEmpty && first.modifier.isEmpty then
      return .paren (← spanFrom start) first.value
    else fail .shortTuple
  else
    let more ← moreItems (argument self)
    discard <| expect ")"
    return .tuple (← spanFrom start) (first :: more)

/-- The literal class of a token, if it is a literal. -/
def literalKind? : TokenKind → Option LiteralKind
  | .int => some .int
  | .real => some .real
  | .string => some .string
  | .char => some .char
  | _ => none

/-- A primary expression: a literal, a name, a keyword form, a group, a tuple or a collection. -/
def primary : Parser Node := do
  let t ← current
  let start := t.span.start
  if let some kind := literalKind? t.kind then
    discard advance
    return .literal (← spanFrom start) kind t.text
  else if t.isIdent then
    let name ← firstSegment
    let args ← typeArgsInExpr self
    return .ident (← spanFrom start) name args
  else if t.kind == .keyword then keywordPrimary self t
  else if t.is "(" then parenOrTuple self
  else if t.is "[" then
    let elems ← arraySizes self
    return .initializer (← spanFrom start) elems
  else if t.is openBrace then initializerExpr self
  else failAt .unexpectedInExpression

/-! ### Postfix forms and unary expressions -/

/-- Whether a token behind `!` shows that the mark is a postfix operator. -/
def followsForgiveness (t : Token) : Bool :=
  t.kind == .eof || (t.kind == .punct
    && [".", "?.", ";", ")", "]", ",", "\x7d", "[", "(", ":", "?", "="].contains t.text)

/-- The name of a member behind a point. -/
def memberName : Parser String := do
  let t ← current
  if t.isIdent || t.isPredefinedType then
    discard advance
    return t.text
  else failAt .expectedMemberName

/-- Extends an expression that began at `start` by the postfix form at the current place. -/
def suffix (start : Nat) (x : Node) : Parser (Option Node) := do
  if ← isOneOf [".", "?.", "->"] then
    let nullCond := (← advance).text == "?."
    let name ← memberName
    let args ← typeArgsInExpr self
    return some (.memberAccess (← spanFrom start) x name args nullCond)
  else if (← is "?") && (← peekIs 1 "[") && (← touchesNext) then
    discard advance
    let args ← arguments self "[" "]"
    return some (.elementAccess (← spanFrom start) x args true)
  else if ← is "(" then
    let args ← arguments self "(" ")"
    return some (.invocation (← spanFrom start) x args)
  else if ← is "[" then
    let args ← arguments self "[" "]"
    return some (.elementAccess (← spanFrom start) x args false)
  else if ← isOneOf ["++", "--"] then
    let op := (← advance).text
    return some (.unary (← spanFrom start) op x true)
  else if (← is "!") && followsForgiveness (← peek 1) then
    discard advance
    return some (.unary (← spanFrom start) "!" x true)
  else return none

/-- One arm of a switch expression. -/
def switchArm : Parser Node := do
  let start ← offset
  let pattern ← self.pattern
  let guard ← optionalPart (acceptWord "when") self.expr
  discard <| expect "=>"
  let value ← self.expr
  return .switchArm (← spanFrom start) pattern guard value

/-- The arms of a switch expression over `x`, which began at `start`. -/
def switchExpr (start : Nat) (x : Node) : Parser Node := do
  discard <| expect "switch"
  let arms ← enclosed openBrace closeBrace (switchArm self)
  return .switchExpr (← spanFrom start) x arms

/-- Whether a token behind a parenthesised type shows that the type is that of a cast. A sign may
follow only a type that cannot be an expression. -/
def followsCast (t : TypeRef) (next : Token) : Bool :=
  match next.kind with
  | .ident => !continuesPattern next
  | .int | .real | .string | .char => true
  | .keyword => startsOperand next
  | .punct =>
    ["(", "!", "~", "@"].contains next.text
      || (["-", "+", "&", "*", "++", "--", "^"].contains next.text
        && (predefinedTypes.contains t.name || !t.args.isEmpty || t.nullable || t.rank > 0
          || t.pointer || t.isTuple))
  | .eof => false

/-- The type of a cast, if a cast stands at the current place. -/
def castType? : Parser (Option TypeRef) :=
  attempt do
    discard <| expect "("
    let t ← self.type
    discard <| expect ")"
    if followsCast t (← current) then return t else fail .otherReading

/-- A cast, if one stands at the current place. -/
def cast? : Parser (Option Node) := do
  let start ← offset
  match ← castType? self with
  | none => return none
  | some t =>
    let x ← self.unary
    return some (.cast (← spanFrom start) t x)

/-- Whether a cast with its operand stands at the current place. -/
def atCast : Parser Bool := do
  return ((← lookahead (cast? self)).map Option.isSome).getD false

/-- The prefix operators. -/
def unaryOps : List String := ["+", "-", "!", "~", "++", "--", "^", "&", "*"]

/-- A unary expression. -/
def unary : Parser Node := do
  let t ← current
  let start := t.span.start
  if (t.kind == .punct && unaryOps.contains t.text)
      || (t.kind == .keyword && ["ref", "out", "in"].contains t.text) then
    discard advance
    let x ← self.unary
    return .unary (← spanFrom start) t.text x false
  if let some x ← cast? self then return x
  if t.isWord "await" && startsOperand (← peek 1) then
    discard advance
    let x ← self.unary
    return .await (← spanFrom start) x
  let x ← extend (suffix self start) (← primary self)
  if (← is "switch") && (← peekIs 1 openBrace) then switchExpr self start x else return x

/-! ### Binary expressions -/

/-- A type with a variable behind it, as a pattern declares it. -/
def declaration (ty : Parser TypeRef) : Parser (TypeRef × String) := do
  let t ← ty
  if ← atDesignation then return (t, (← advance).text) else fail .otherReading

/-- The rest of a type test on `x`, which began at `start`. -/
def typeTest (start : Nat) (x : Node) : Parser Node := do
  let negated ← acceptWord "not"
  match ← attempt (declaration self.type) with
  | some (t, name) => return .isExpr (← spanFrom start) x (some t) none name negated
  | none =>
    let pattern ← self.pattern
    let name := pattern.qualifiedName
    let t := if name.isEmpty then none else some { span := pattern.span, name : TypeRef }
    return .isExpr (← spanFrom start) x t (some pattern) "" negated

/-- The right operand of a binary operator. That of `??` may be a `throw`, and `??` groups to the
right; all other operators group to the left. -/
def rightOperand (op : Operator) : Parser Node := do
  if op.text == "??" then
    if ← is "throw" then
      let start ← offset
      discard advance
      let x ← self.expr
      return .throwExpr (← spanFrom start) x
    else self.binary op.precedence
  else self.binary (op.precedence + 1)

/-- Extends an operand that began at `start` by the operator at the current place, if it binds at
least as tightly as `minimum`. -/
def binaryStep (start minimum : Nat) (x : Node) : Parser (Option Node) := do
  match ← binaryOp? with
  | none => return none
  | some op =>
    if op.precedence < minimum then return none
    advanceBy op.width
    if op.text == "is" then return some (← typeTest self start x)
    else if op.text == "as" then
      let t ← self.type
      return some (.asExpr (← spanFrom start) x t)
    else
      let y ← rightOperand self op
      return some (.binary (← spanFrom start) op.text x y)

/-- A binary expression whose operators have at least the given precedence. -/
def binary (minimum : Nat) : Parser Node := do
  let start ← offset
  extend (binaryStep self start minimum) (← unary self)

/-- A binary expression or a choice between two values. -/
def conditional : Parser Node := do
  let start ← offset
  let cond ← binary self coalescePrecedence
  if ← accept "?" then
    let thenValue ← self.expr
    discard <| expect ":"
    let elseValue ← self.expr
    return .conditional (← spanFrom start) cond thenValue elseValue
  else return cond

/-- The right side of an assignment. -/
def assigned (op : String) : Parser Node := do
  if op == "=" && (← is openBrace) then initializerExpr self
  else
    discard <| acceptIf do return op == "=" && (← is "ref")
    self.expr

/-- An expression. -/
def expr : Parser Node := do
  let start ← offset
  match ← lambda? self with
  | some x => return x
  | none =>
    if ← accept "throw" then
      let x ← self.expr
      return .throwExpr (← spanFrom start) x
    let lhs ← conditional self
    if (← is ">") && (← peekIs 1 ">=") && (← touchesNext) then
      advanceBy 2
      let rhs ← self.expr
      return .assign (← spanFrom start) ">>=" lhs rhs
    let t ← current
    if t.kind == .punct && assignmentOps.contains t.text then
      discard advance
      let rhs ← assigned self t.text
      return .assign (← spanFrom start) t.text lhs rhs
    else return lhs

/-! ### Patterns -/

/-- Consumes the variable behind a property or list pattern, if there is one. -/
def acceptDesignation : Parser Unit := do
  if ← atDesignation then discard advance

/-- A bracketed pattern, whose inside is skipped. -/
def bracketPattern (opening closing : String) : Parser Node := do
  let start ← offset
  skipBalanced opening closing
  acceptDesignation
  return .initializer (← spanFrom start) []

/-- Consumes the property pattern behind a type, if there is one. -/
def skipSubpattern : Parser Unit := do
  if ← is openBrace then
    skipBalanced openBrace closeBrace
    acceptDesignation

/-- A pattern without `and` and `or`. -/
def primaryPattern : Parser Node := do
  let t ← current
  let start := t.span.start
  if t.isWord "not" then
    discard advance
    let x ← self.primaryPattern
    return .unary (← spanFrom start) "not" x false
  else if ["<", ">", "<=", ">="].any t.is then
    discard advance
    let x ← self.binary shiftPrecedence
    return .unary (← spanFrom start) t.text x false
  else if t.is openBrace then bracketPattern openBrace closeBrace
  else if t.is "[" then bracketPattern "[" "]"
  else if t.isWord "var" && (← peekIdent 1) then
    discard advance
    let name := (← advance).text
    return .declExpr (← spanFrom start) none name
  else if t.is "(" && !(← atCast self) then
    discard advance
    let inner ← self.pattern
    discard <| expect ")"
    return .paren (← spanFrom start) inner
  else
    match ← attempt (declaration (type self)) with
    | some (ty, name) => return .declExpr (← spanFrom start) (some ty) name
    | none =>
      let x ← binary self shiftPrecedence
      skipSubpattern
      return x

/-- A pattern. -/
def pattern : Parser Node := do
  let start ← offset
  extend (fun x => do
      if (← isWord "and") || (← isWord "or") then
        let op := (← advance).text
        let y ← self.primaryPattern
        return some (.binary (← spanFrom start) op x y)
      else return none)
    (← primaryPattern self)

end CSharpAudit.Grammar
