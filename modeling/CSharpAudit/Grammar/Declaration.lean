import CSharpAudit.Grammar.Statement

/-!
# The grammar of types and members

## Main definitions

* `Grammar.typeDecl`, `Grammar.delegateDecl` — type declarations from their keyword on
* `Grammar.member` — a member of a type
* `Grammar.typeLevelDecl` — a declaration at namespace level
-/

namespace CSharpAudit.Grammar

/-- Whether the keyword of a type declaration stands at the current place. -/
def atTypeKeyword : Parser Bool := do
  let t ← current
  let next ← peek 1
  return ["class", "struct", "interface", "enum"].any t.is
    || (t.isWord "record" && (next.isIdent || next.is "class" || next.is "struct"))

variable (self : Rules)

/-! ### Types -/

/-- A member of an enumeration. -/
def enumMember : Parser Node := do
  let start ← offset
  let attributes ← optionalList (is "[") (attributes self)
  let name ← identText
  let value ← optionalPart (accept "=") self.expr
  return .enumMember (← spanFrom start) name attributes value

/-- The kind of type that the keyword at the current place introduces. -/
def typeKind : Parser TypeKind := do
  match (← advance).text with
  | "struct" => return .struct
  | "interface" => return .interface
  | "enum" => return .enum
  | "record" =>
    if ← accept "struct" then return .recordStruct
    discard <| accept "class"
    return .record
  | _ => return .classType

/-- An entry of a base list; arguments to a base constructor are not kept. -/
def baseType : Parser TypeRef := do
  let t ← type self
  skipIf (is "(") (arguments self "(" ")")
  return t

/-- The members of a type between braces; the type is named in the fault of a missing brace. -/
def typeBody (kind : TypeKind) (name : String) : Parser (List Node) := do
  discard <| expect openBrace
  let members ← repeatWhile (isNot closeBrace)
    (unlessEnd (.unterminatedType kind.text name) self.member)
  discard <| expect closeBrace
  discard <| accept ";"
  return members

/-- The members of a type and, apart from them, those of an enumeration. -/
def typeContents (kind : TypeKind) (name : String) : Parser (List Node × List Node) := do
  if kind == .enum then
    let members ← enclosed openBrace closeBrace (enumMember self)
    discard <| accept ";"
    return ([], members)
  else if ← accept ";" then return ([], [])
  else return (← typeBody self kind name, [])

/-- A type declaration from its keyword on. -/
def typeDecl (h : Header) : Parser Node := do
  let kind ← typeKind
  let name ← expectIdent
  let typeParams ← optionalTypeParams self
  let primaryParams ← optionalList (is "(") (params self "(" ")")
  let baseTypes ← optionalList (accept ":") (separated (baseType self))
  let constraints ← constraints self
  let (members, enumMembers) ← typeContents self kind name.text
  return .typeDecl
    { span := ← spanFrom h.start, kind, name := name.text, nameSpan := name.span,
      modifiers := h.modifiers, attributes := h.attributes, typeParams, constraints, primaryParams,
      baseTypes, members, enumMembers, doc := h.doc }

/-- A delegate declaration from its keyword on; its constraints are not kept. -/
def delegateDecl (h : Header) : Parser Node := do
  discard <| expect "delegate"
  let returnType ← type self
  let name ← expectIdent
  let typeParams ← optionalTypeParams self
  let params ← params self "(" ")"
  discard <| constraints self
  discard <| expect ";"
  return .delegate
    { span := ← spanFrom h.start, name := name.text, nameSpan := name.span,
      modifiers := h.modifiers, attributes := h.attributes, returnType, typeParams, params,
      doc := h.doc }

/-! ### Methods, operators and constructors -/

/-- Consumes `base` or `this` and tells whether it was `base`. -/
def chainedToBase : Parser Bool := do
  if ← accept "base" then return true
  else if ← accept "this" then return false
  else fail .expectedConstructorCall

/-- The call of another constructor in front of a constructor's body. -/
def chainedCall : Parser (ChainedCall × List (Argument Node)) := do
  let start ← offset
  let toBase ← chainedToBase
  let args ← arguments self "(" ")"
  return ({ span := ← spanFrom start, toBase }, args)

/-- A constructor from its name on. -/
def constructorDecl (h : Header) : Parser Node := do
  let name ← expectIdent
  let params ← params self "(" ")"
  let chained ← optionalPart (accept ":") (chainedCall self)
  let body ← body self
  return .constructor
    { span := ← spanFrom h.start, name := name.text, nameSpan := name.span,
      modifiers := h.modifiers, attributes := h.attributes, params, chained := chained.map (·.1),
      chainedArgs := (chained.map (·.2)).getD [], body := body.block, exprBody := body.expr,
      doc := h.doc }

/-- A method without type parameters, constraints and explicit interface, from its parameters on. -/
def plainMethod (h : Header) (returnType : TypeRef) (name : String) (nameSpan : Span)
    (isOperator isDestructor : Bool) : Parser Node := do
  let params ← params self "(" ")"
  let body ← body self
  return .method
    { span := ← spanFrom h.start, name, nameSpan, modifiers := h.modifiers,
      attributes := h.attributes, returnType, params, body := body.block, exprBody := body.expr,
      doc := h.doc, isOperator, isDestructor }

/-- A destructor from its tilde on. It returns `void`, though no type is written. -/
def destructorDecl (h : Header) : Parser Node := do
  discard <| expect "~"
  let name ← expectIdent
  plainMethod self h { span := .none, name := "void" } ("~" ++ name.text) name.span false true

/-- The operators, other than those that start with `>`, that a type may define. -/
def overloadableOps : List String :=
  ["+", "-", "!", "~", "++", "--", "true", "false", "*", "/", "%", "&", "|", "^", "<<", "==", "!=",
   "<", "<=", ">="]

/-- The operator that an operator declaration defines. -/
def overloadedOp : Parser String := do
  if (← is ">") && (← peekIs 1 ">") && (← touchesNext) then
    advanceBy 2
    let third ← current
    if third.is ">" && (← get).lastEnd == third.span.start then
      discard advance
      return ">>>"
    else return ">>"
  else if ← accept ">" then return ">"
  else if overloadableOps.contains (← current).text then return (← advance).text
  else failAt .expectedOperator

/-- An operator declaration from the keyword `operator` on. -/
def operatorDecl (h : Header) (returnType : TypeRef) : Parser Node := do
  let keyword ← expect "operator"
  discard <| accept "checked"
  let op ← overloadedOp
  let nameSpan ← spanFrom keyword.span.start
  plainMethod self h returnType ("operator" ++ op) nameSpan true false

/-- A conversion operator from `implicit` or `explicit` on. -/
def conversionDecl (h : Header) : Parser Node := do
  let kind := (← advance).text
  let keyword ← expect "operator"
  discard <| accept "checked"
  let returnType ← type self
  let nameSpan ← spanFrom keyword.span.start
  plainMethod self h returnType (kind ++ " operator " ++ returnType.text) nameSpan true false

/-! ### Properties, fields and events -/

/-- The words that name an accessor. -/
def accessorKinds : List String := ["get", "set", "init", "add", "remove"]

/-- An accessor; its attributes are not kept. -/
def accessor : Parser Node := do
  let start ← offset
  skipIf (is "[") (attributes self)
  let mods ← modifiers
  let kind ← identText
  if !accessorKinds.contains kind then fail (.unexpectedAccessor kind)
  let body ← body self
  return .accessor (← spanFrom start) kind mods body.block body.expr

/-- The accessors of a property or an event, between braces. -/
def accessors : Parser (List Node) := do
  discard <| expect openBrace
  let as ← repeatWhile (isNot closeBrace) (accessor self)
  discard <| expect closeBrace
  return as

/-- The expression or the accessors of a property. -/
def propertyBody : Parser (List Node × Option Node) := do
  if ← accept "=>" then
    let x ← self.expr
    discard <| expect ";"
    return ([], some x)
  else return (← accessors self, none)

/-- An indexer from the keyword `this` on; `explicitName` is the interface before it, if any. -/
def indexerDecl (h : Header) (t : TypeRef) (explicitName : String) : Parser Node := do
  let keyword ← expect "this"
  let indexParams ← params self "[" "]"
  let (accessors, exprBody) ← propertyBody self
  return .property
    { span := ← spanFrom h.start,
      name := if explicitName.isEmpty then "this" else explicitName ++ ".this",
      nameSpan := keyword.span, type := t, modifiers := h.modifiers, attributes := h.attributes,
      indexParams, accessors, exprBody, doc := h.doc }

/-- The initial value of a property from behind its equals sign. -/
def propertyInit : Parser Node := do
  let x ← self.expr
  discard <| expect ";"
  return x

/-- A property from behind its name. Only one with accessors may have an initial value. -/
def propertyRest (h : Header) (t : TypeRef) (name : String) (nameSpan : Span) : Parser Node := do
  let (accessors, exprBody) ← propertyBody self
  let initializer ← optionalPart (acceptIf do return exprBody.isNone && (← is "="))
    (propertyInit self)
  return .property
    { span := ← spanFrom h.start, name, nameSpan, type := t, modifiers := h.modifiers,
      attributes := h.attributes, accessors, exprBody, initializer, doc := h.doc }

/-- A field declaration from behind the name of its first variable. -/
def fieldRest (h : Header) (t : TypeRef) (name : String) (nameSpan : Span) : Parser Node := do
  let init ← optionalInit self
  let first := { span := ← spanFrom nameSpan.start, name, nameSpan, init : VarDeclarator Node }
  let more ← moreItems (varDeclarator self)
  discard <| expect ";"
  return .field
    { span := ← spanFrom h.start, type := t, modifiers := h.modifiers, attributes := h.attributes,
      vars := first :: more, doc := h.doc }

/-- The accessors of an event. One without them may have an initial value and more variables, which
are not kept. -/
def eventBody : Parser (List Node) := do
  if ← is openBrace then accessors self
  else
    skipIf (accept "=") self.expr
    discard <| moreItems (varDeclarator self)
    discard <| expect ";"
    return []

/-- An event from its keyword on. Of an explicit name only the last segment is kept, and of several
variables only the first. -/
def eventDecl (h : Header) : Parser Node := do
  discard <| expect "event"
  let t ← type self
  let name ← expectIdent
  let segments ← moreSegments
  let accessors ← eventBody self
  return .event
    { span := ← spanFrom h.start, name := segments.getLast?.getD name.text, nameSpan := name.span,
      type := t, modifiers := h.modifiers, attributes := h.attributes, accessors }

/-! ### Members -/

/-- Whether type arguments with a point behind them stand at the current place, as in the name of an
explicit interface implementation. -/
def atInterfaceArgs : Parser Bool := do
  return (← is "<") && ((← lookahead do discard <| typeArgs self; is ".")).getD false

/-- Adds the type arguments of an interface name to its text. -/
def withInterfaceArgs (name : String) : Parser String := do
  if ← atInterfaceArgs self then
    let args ← typeArgs self
    return name ++ ({ span := .none, name := "", args } : TypeRef).text
  else return name

/-- The name of a member and the interface written before it. -/
def memberNameWithInterface : Parser (String × String) := do
  let first ← withInterfaceArgs self (← identText)
  extend (fun ((name, interface) : String × String) => do
      if (← is ".") && (← peekIdent 1) then
        discard advance
        let interface := if interface.isEmpty then name else interface ++ "." ++ name
        let name ← withInterfaceArgs self (← advance).text
        return some (name, interface)
      else return none)
    (first, "")

/-- A member that starts with a type. -/
def typedMember (h : Header) : Parser Node := do
  let t ← type self
  if ← is "operator" then operatorDecl self h t
  else if (← is "this") && (← peekIs 1 "[") then indexerDecl self h t ""
  else
    let nameStart ← offset
    let (name, interface) ← memberNameWithInterface self
    let nameSpan ← spanFrom nameStart
    if (← is ".") && (← peekIs 1 "this") then
      discard advance
      indexerDecl self h t name
    else if (← is "(") || (← is "<") then
      return .method (← methodRest self h t name nameSpan interface)
    else if (← is openBrace) || (← is "=>") then propertyRest self h t name nameSpan
    else fieldRest self h t name nameSpan

/-- A member of a type. One that starts with a name and a parenthesis is a constructor, whatever its
name. -/
def member : Parser Node := do
  let h ← header self
  if ← is "delegate" then delegateDecl self h
  else if ← atTypeKeyword then typeDecl self h
  else if ← is "~" then destructorDecl self h
  else if ← is "event" then eventDecl self h
  else if (← is "implicit") || (← is "explicit") then conversionDecl self h
  else if (← isIdent) && (← peekIs 1 "(") then constructorDecl self h
  else typedMember self h

/-- A type or delegate declaration at namespace level. -/
def typeLevelDecl : Parser Node := do
  let h ← header self
  if ← is "delegate" then delegateDecl self h
  else if ← atTypeKeyword then typeDecl self h
  else failAt .expectedTypeDeclaration

end CSharpAudit.Grammar
