import CSharpAudit.Grammar.Expression

/-!
# The grammar of headers and bodies

The parts that declarations of types, members and local functions have in common.

## Main definitions

* `Grammar.Header` — what precedes the keyword or type of a declaration
* `Grammar.modifiers` — a run of modifiers
* `Grammar.typeParams`, `Grammar.constraints` — the generic part of a signature
* `Grammar.Body`, `Grammar.body` — the block or expression of a member
* `Grammar.methodRest` — a method from behind its name
-/

namespace CSharpAudit.Grammar

/-- What precedes the keyword or the type of a declaration. -/
structure Header where
  start : Nat
  doc : String := ""
  attributes : List (Attribute Node) := []
  modifiers : Modifiers := .empty

/-- Whether a declaration can go on with token `t` behind a contextual modifier; `next` is the
token behind `t`. -/
def continuesDeclaration (t next : Token) : Bool :=
  match t.kind with
  | .ident => true
  | .keyword => !(["operator", "this", "in", "is", "as"].contains t.text)
  | .punct => t.text == "(" && next.kind != .punct
  | _ => false

/-- The identifiers that act as modifiers. -/
def contextualModifiers : List String := ["partial", "async", "required", "file"]

/-- The modifier at the current place, if there is one. The keyword `new` before a parenthesis or
a bracket is no modifier. -/
def modifier? : Parser (Option Modifier) := do
  let t ← current
  if t.kind == .keyword then
    match Modifier.ofWord? t.text with
    | some .newMember =>
      return if (← peekIs 1 "(") || (← peekIs 1 "[") then none else some .newMember
    | m => return m
  else if t.isIdent && contextualModifiers.contains t.text
      && continuesDeclaration (← peek 1) (← peek 2) then
    return Modifier.ofWord? t.text
  else return none

/-- A run of modifiers. -/
def modifiers : Parser Modifiers :=
  extend (fun mods => do
      match ← modifier? with
      | some m =>
        discard advance
        return some (mods.insert m)
      | none => return none)
    .empty

variable (self : Rules)

/-- The attributes and modifiers of a declaration. Its documentation stands before the attributes,
or else behind them. -/
def header : Parser Header := do
  let t ← current
  let attributes ← optionalList (is "[") (attributes self)
  let behind ← current
  let doc := if t.doc.isEmpty then behind.doc else t.doc
  return { start := t.span.start, doc, attributes, modifiers := ← modifiers }

/-- A type parameter; its attributes are not kept. -/
def typeParam : Parser TypeParam := do
  let start ← offset
  skipIf (is "[") (attributes self)
  let variance ← textOf ["in", "out"]
  let name ← identText
  return { span := ← spanFrom start, name, variance }

/-- A list of type parameters in angle brackets. -/
def typeParams : Parser (List TypeParam) := do
  discard <| expect "<"
  let ps ← separated (typeParam self)
  discard <| expect ">"
  return ps

/-- The type parameters at the current place, if there are any. -/
def optionalTypeParams : Parser (List TypeParam) := optionalList (is "<") (typeParams self)

/-- One entry of a constraint clause; `allows ref` yields none. -/
def constraintType : Parser (Option TypeRef) := do
  if (← is "new") && (← peekIs 1 "(") then
    discard advance
    discard <| expect "("
    discard <| expect ")"
    return some { span := .none, name := "new()" }
  else if ← isOneOf ["class", "struct", "default"] then
    let t ← advance
    let nullable ← accept "?"
    return some { span := t.span, name := t.text, nullable }
  else if ← isWord "allows" then
    discard advance
    discard <| expect "ref"
    discard expectIdent
    return none
  else return some (← type self)

/-- One clause `where T : …`. -/
def constraint : Parser Constraint := do
  let start ← offset
  discard advance
  let param ← identText
  discard <| expect ":"
  let types ← separated (constraintType self)
  return { span := ← spanFrom start, param, types := types.filterMap id }

/-- The constraint clauses at the current place. -/
def constraints : Parser (List Constraint) := repeatWhile (isWord "where") (constraint self)

/-- The body of a member: a block, an expression, or neither. -/
structure Body where
  block : Option Node := none
  expr : Option Node := none

/-- The body of a member, with the semicolon that ends it. -/
def body : Parser Body := do
  if ← is openBrace then return { block := some (← self.block) }
  else if ← accept "=>" then
    let x ← self.expr
    discard <| expect ";"
    return { expr := some x }
  else
    discard <| expect ";"
    return {}

/-- A method from behind its name. -/
def methodRest (h : Header) (returnType : TypeRef) (name : String) (nameSpan : Span)
    (explicitInterface : String) : Parser (Method Node) := do
  let typeParams ← optionalTypeParams self
  let params ← params self "(" ")"
  let constraints ← constraints self
  let body ← body self
  return { span := ← spanFrom h.start, name, nameSpan, modifiers := h.modifiers,
           attributes := h.attributes, returnType, typeParams, constraints, params,
           body := body.block, exprBody := body.expr, doc := h.doc, explicitInterface }

/-- The initial value of a variable: an expression or a bare list. -/
def varInitializer : Parser Node := do
  if ← is openBrace then initializerExpr self else self.expr

/-- The initial value behind an equals sign, if there is one. -/
def optionalInit : Parser (Option Node) := optionalPart (accept "=") (varInitializer self)

/-- A declared variable. The bracket of a fixed-size buffer is skipped. -/
def varDeclarator : Parser (VarDeclarator Node) := do
  let name ← expectIdent
  skipIf (is "[") (skipBalanced "[" "]")
  let init ← optionalInit self
  return { span := ← spanFrom name.span.start, name := name.text, nameSpan := name.span, init }

end CSharpAudit.Grammar
