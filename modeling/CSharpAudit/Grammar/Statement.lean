import CSharpAudit.Grammar.Signature

/-!
# The grammar of statements

## Main definitions

* `Grammar.block` — a braced list of statements
* `Grammar.localDeclOrFunc` — a local declaration or function, tried before an expression
* `Grammar.statement` — a statement
-/

namespace CSharpAudit.Grammar

variable (self : Rules)

/-- A braced list of statements. -/
def block : Parser Node := do
  let start ← offset
  discard <| expect openBrace
  let stmts ← repeatWhile (isNot closeBrace) (unlessEnd .unterminatedBlock self.statement)
  discard <| expect closeBrace
  return .block (← spanFrom start) stmts

/-- An expression in parentheses, as it follows a statement keyword. -/
def condition : Parser Node := do
  discard <| expect "("
  let x ← self.expr
  discard <| expect ")"
  return x

/-! ### Local declarations -/

/-- A declaration of local variables without its semicolon: type and variables. A plain `var` is no
type. -/
def localVars (t : TypeRef) : Parser (Option TypeRef × List (VarDeclarator Node)) := do
  let vars ← separated (varDeclarator self)
  return (if t.name == "var" && t.isBare then none else some t, vars)

/-- A declaration of local variables without its semicolon, as it stands in `for`, `using`, `fixed`
and `const`. -/
def localDeclHead (start : Nat) (isConst : Bool) : Parser Node := do
  let (t, vars) ← localVars self (← type self)
  return .localDecl (← spanFrom start) t isConst false vars

/-- A local declaration in front of the given closing token. -/
def localDeclBefore (closing : String) : Parser Node := do
  let decl ← localDeclHead self (← offset) false
  if ← is closing then return decl else fail .otherReading

/-- Consumes `ref` or `ref readonly` before a local declaration, if it stands here. -/
def acceptRef : Parser Bool := do
  if ← accept "ref" then
    discard <| accept "readonly"
    return true
  else return false

/-- A local variable declaration or a local function. -/
def localDeclOrFunc : Parser Node := do
  let start ← offset
  let isRef ← acceptRef
  discard <| acceptIf do return (← isWord "scoped") && (← peek 1).kind != .punct
  let doc := (← current).doc
  let attributes ← optionalList (is "[") (attributes self)
  let mods ← modifiers
  let t ← type self
  if !(← isIdent) || t.name == "await" then fail .otherReading
  if (← peekIs 1 "(") || (← peekIs 1 "<") then
    let name ← advance
    let f ← methodRest self { start, doc, attributes, modifiers := mods } t name.text name.span ""
    return .localFunc (← spanFrom start) f
  if mods != .empty && mods != .single .unsafeCode then fail .otherReading
  if !(← peekIs 1 "=") && !(← peekIs 1 ";") && !(← peekIs 1 ",") then fail .otherReading
  let (t, vars) ← localVars self t
  discard <| expect ";"
  return .localDecl (← spanFrom start) t false isRef vars

/-! ### Loops and branches -/

def ifStmt : Parser Node := do
  let start ← offset
  discard <| expect "if"
  let cond ← condition self
  let thenBranch ← self.statement
  let elseBranch ← optionalPart (accept "else") self.statement
  return .ifStmt (← spanFrom start) cond thenBranch elseBranch

/-- An expression in the initialiser of a `for` statement. -/
def forInitExpr : Parser Node := do
  let start ← offset
  let x ← self.expr
  return .exprStmt (← spanFrom start) x

/-- The initialiser of a `for` statement: a declaration, or else expressions. -/
def forInit : Parser (List Node) := do
  if ← is ";" then return []
  match ← attempt (localDeclBefore self ";") with
  | some decl => return [decl]
  | none => separated (forInitExpr self)

def forStmt : Parser Node := do
  let start ← offset
  discard <| expect "for"
  discard <| expect "("
  let init ← forInit self
  discard <| expect ";"
  let cond ← optionalPart (isNot ";") self.expr
  discard <| expect ";"
  let post ← listUntil ")" self.expr
  discard <| expect ")"
  let body ← self.statement
  return .forStmt (← spanFrom start) init cond post body

/-- The text of a source file between two byte offsets. -/
def sourceText (start stop : Nat) : Parser String := do
  return Text.Utf8.text (((← read).source.drop start).take (stop - start))

/-- The variable of a `foreach` statement; a deconstruction is kept as its source text. -/
def foreachVar : Parser (String × Span) := do
  let start ← offset
  if ← is "(" then
    skipBalanced "(" ")"
    let span ← spanFrom start
    return (← sourceText start span.stop, span)
  else
    let name ← identText
    return (name, ← spanFrom start)

/-- A `foreach` statement that began at `start`. -/
def foreachStmt (start : Nat) (isAwait : Bool) : Parser Node := do
  discard <| expect "foreach"
  discard <| expect "("
  let t ← type self
  let (varName, varSpan) ← foreachVar
  discard <| expect "in"
  let collection ← self.expr
  discard <| expect ")"
  let body ← self.statement
  let t := if t.name == "var" && t.args.isEmpty then none else some t
  return .foreachStmt (← spanFrom start) t varName varSpan collection body isAwait

/-! ### Switches -/

/-- Whether a label of a switch section stands at the current place. -/
def atCaseLabel : Parser Bool := do
  return (← is "case") || ((← is "default") && (← peekIs 1 ":"))

/-- A declaration pattern of a case label: type and variable. -/
def casePattern : Parser (TypeRef × String) := do
  let t ← type self
  let name ← identText
  if (← is ":") || (← isWord "when") then return (t, name) else fail .otherReading

/-- A label of a switch section. -/
def caseLabel : Parser Node := do
  let start ← offset
  if ← accept "default" then
    discard <| expect ":"
    return .caseLabel (← spanFrom start) none none "" none
  discard <| expect "case"
  let declared ← attempt (casePattern self)
  let value ← optionalPart (pure declared.isNone) self.pattern
  let guard ← optionalPart (acceptWord "when") self.expr
  discard <| expect ":"
  return .caseLabel (← spanFrom start) value (declared.map (·.1)) ((declared.map (·.2)).getD "")
    guard

/-- A section of a switch statement. -/
def switchSection : Parser Node := do
  let start ← offset
  let labels ← repeatWhile atCaseLabel (caseLabel self)
  if labels.isEmpty then failAt .expectedCaseLabel
  let stmts ← repeatWhile (do return !(← atCaseLabel) && !(← is closeBrace))
    (unlessEnd .unterminatedSection self.statement)
  return .switchSection (← spanFrom start) labels stmts

/-- The expression that a switch statement looks at. -/
def switchTag : Parser Node := do
  if ← is "(" then primary self else self.expr

def switchStmt : Parser Node := do
  let start ← offset
  discard <| expect "switch"
  let tag ← switchTag self
  discard <| expect openBrace
  let sections ← repeatWhile (isNot closeBrace) (unlessEnd .unterminatedSwitch (switchSection self))
  discard <| expect closeBrace
  return .switchStmt (← spanFrom start) tag sections

/-! ### Resources and exceptions -/

/-- A `using` statement or declaration that began at `start`. -/
def usingStmt (start : Nat) (isAwait : Bool) : Parser Node := do
  discard <| expect "using"
  if ← accept "(" then
    let decl ← attempt (localDeclBefore self ")")
    let resource ← optionalPart (pure decl.isNone) self.expr
    discard <| expect ")"
    let body ← self.statement
    return .usingStmt (← spanFrom start) decl resource (some body) isAwait
  else
    let decl ← localDeclHead self (← offset) false
    discard <| expect ";"
    return .usingStmt (← spanFrom start) (some decl) none none isAwait

/-- The type of the exceptions that a handler catches, and its variable. -/
def caught : Parser (Option TypeRef × String) := do
  if ← accept "(" then
    let t ← type self
    let name ← optionalIdent
    discard <| expect ")"
    return (some t, name)
  else return (none, "")

/-- A handler of a `try` statement. -/
def catchClause : Parser Node := do
  let start ← offset
  discard advance
  let (t, varName) ← caught self
  let filter ← optionalPart (acceptWord "when") (condition self)
  let body ← block self
  return .catchClause (← spanFrom start) t varName filter body

def tryStmt : Parser Node := do
  let start ← offset
  discard <| expect "try"
  let body ← block self
  let catches ← repeatWhile (is "catch") (catchClause self)
  let finallyBlock ← optionalPart (accept "finally") (block self)
  if catches.isEmpty && finallyBlock.isNone then fail .tryWithoutHandler
  return .tryStmt (← spanFrom start) body catches finallyBlock

/-! ### Jumps -/

/-- An expression in front of a semicolon, which may be missing. -/
def optionalExpr : Parser (Option Node) := optionalPart (isNot ";") self.expr

/-- The label of a jump; that of a switch section is kept as its source text. -/
def gotoLabel : Parser String := do
  if ← accept "case" then
    let x ← self.expr
    return "case " ++ (← sourceText x.span.start x.span.stop)
  else if ← accept "default" then return "default"
  else identText

def gotoStmt : Parser Node := do
  let start ← offset
  discard advance
  let label ← gotoLabel self
  discard <| expect ";"
  return .gotoStmt (← spanFrom start) label

/-- The value that a `yield` statement hands out. -/
def yielded : Parser Node := do
  discard <| expect "return"
  self.expr

/-- A `yield` statement. -/
def yieldStmt : Parser Node := do
  let start ← offset
  discard advance
  let isBreak ← accept "break"
  let x ← optionalPart (pure !isBreak) (yielded self)
  discard <| expect ";"
  return .yieldStmt (← spanFrom start) isBreak x

/-! ### Statements -/

/-- The statement that the keyword or punctuator at the current place introduces, if it introduces
one. -/
def keywordStmt? : Parser (Option Node) := do
  let t ← current
  let start := t.span.start
  if t.kind != .keyword && t.kind != .punct then return none
  match t.text with
  | "\x7b" => return some (← block self)
  | ";" =>
    discard advance
    return some (.emptyStmt (← spanFrom start))
  | "if" => return some (← ifStmt self)
  | "for" => return some (← forStmt self)
  | "foreach" => return some (← foreachStmt self start false)
  | "while" =>
    discard advance
    let cond ← condition self
    let body ← self.statement
    return some (.whileStmt (← spanFrom start) cond body)
  | "do" =>
    discard advance
    let body ← self.statement
    discard <| expect "while"
    let cond ← condition self
    discard <| expect ";"
    return some (.doStmt (← spanFrom start) body cond)
  | "switch" => return some (← switchStmt self)
  | "using" => return some (← usingStmt self start false)
  | "try" => return some (← tryStmt self)
  | "return" =>
    discard advance
    let x ← optionalExpr self
    discard <| expect ";"
    return some (.returnStmt (← spanFrom start) x)
  | "break" =>
    discard advance
    discard <| expect ";"
    return some (.breakStmt (← spanFrom start))
  | "continue" =>
    discard advance
    discard <| expect ";"
    return some (.continueStmt (← spanFrom start))
  | "throw" =>
    discard advance
    let x ← optionalExpr self
    discard <| expect ";"
    return some (.throwStmt (← spanFrom start) x)
  | "lock" =>
    discard advance
    let x ← condition self
    let body ← self.statement
    return some (.lockStmt (← spanFrom start) x body)
  | "goto" => return some (← gotoStmt self)
  | "checked" | "unchecked" | "unsafe" =>
    if ← peekIs 1 openBrace then
      discard advance
      let body ← block self
      return some (.checkedStmt (← spanFrom start) t.text body)
    else return none
  | "fixed" =>
    discard advance
    discard <| expect "("
    discard <| localDeclHead self (← offset) false
    discard <| expect ")"
    let body ← self.statement
    return some (.checkedStmt (← spanFrom start) "fixed" body)
  | "const" =>
    discard advance
    let (ty, vars) ← localVars self (← type self)
    discard <| expect ";"
    return some (.localDecl (← spanFrom start) ty true false vars)
  | _ => return none

/-- The statement that the identifier at the current place introduces, if it introduces one: a
`yield`, an awaited loop or resource, or a label. -/
def wordStmt? : Parser (Option Node) := do
  let t ← current
  let start := t.span.start
  if !t.isIdent then return none
  if t.text == "yield" && ((← peekIs 1 "return") || (← peekIs 1 "break")) then
    return some (← yieldStmt self)
  else if t.text == "await" && (← peekIs 1 "foreach") then
    discard advance
    return some (← foreachStmt self start true)
  else if t.text == "await" && (← peekIs 1 "using") then
    discard advance
    return some (← usingStmt self start true)
  else if (← peekIs 1 ":") && !(← peekIs 2 ":") then
    advanceBy 2
    let stmt ← self.statement
    return some (.labeledStmt (← spanFrom start) t.text stmt)
  else return none

/-- A statement. -/
def statement : Parser Node := do
  let start ← offset
  if let some s ← keywordStmt? self then return s
  if let some s ← wordStmt? self then return s
  match ← attempt (localDeclOrFunc self) with
  | some s => return s
  | none =>
    let x ← expr self
    discard <| expect ";"
    return .exprStmt (← spanFrom start) x

end CSharpAudit.Grammar
