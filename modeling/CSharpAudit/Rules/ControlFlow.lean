import CSharpAudit.Flow.Measure
import CSharpAudit.Rules.Naming

/-!
# Rules on control flow

Members whose complexity or nesting exceeds the threshold of the settings; statements that control
does not come to, and blocks that it finds empty. Overloads share a summary, and only the first of
them is reported.

## Main definitions

* `Rules.memberFlow?` — the control flow that is reported at a node
* `Rules.controlFlow` — the rules on complexity and nesting
* `Rules.firstUnreachable?` — the statement behind which control does not continue
* `Rules.unreachable` — statements that are never reached
* `Rules.emptyBlock` — blocks without statements
-/

namespace CSharpAudit

namespace Rules

/-! ### Complexity and nesting -/

/-- The control flow that is reported at a node: that of the member it declares, if it is the first
declaration of the name. -/
def memberFlow? (s : Session) (c : Cursor) : Option MemberFlow :=
  if !isOwnMember c then none
  else ((s.artifacts.flows.bind (·.get? c.member))).filter (·.start == c.node.span.start)

/-- What to do about a complex member. -/
def complexityAdvice (complexity : Int) : String :=
  let split := "Consider breaking this method into smaller, single-purpose methods"
  let early := "Use early returns to reduce nesting levels"
  let extract := "Extract complex conditional logic into separate methods"
  let machine := "Consider using a state machine or strategy pattern for complex branching"
  let lookup := "Use lookup tables or dictionaries instead of long if-else chains"
  if complexity ≤ 15 then split ++ ". " ++ early
  else if complexity ≤ 25 then split ++ ". " ++ extract ++ ". " ++ early
  else machine ++ ". " ++ split ++ ". " ++ lookup

/-- Members that are too complex. -/
def highComplexity : Rule := .stateless "high_complexity" fun s c =>
  let threshold := s.settings.complexityThreshold
  match memberFlow? s c with
  | some flow =>
    let name := c.node.declaredName
    if flow.complexity ≤ threshold then []
    else [{ s.finding .highComplexity c.node.nameSpan
        s!"'{name}' has cyclomatic complexity {flow.complexity} (threshold {threshold})" with
      symbol := c.member
      suggestion := complexityAdvice flow.complexity }]
  | none => []

/-- Members that are nested too deeply. -/
def deepNesting : Rule := .stateless "deep_nesting" fun s c =>
  let threshold := s.settings.nestingThreshold
  match memberFlow? s c with
  | some flow =>
    let name := c.node.declaredName
    if flow.nesting ≤ threshold then []
    else [{ s.finding .deepNesting c.node.nameSpan
        s!"'{name}' nests {flow.nesting} levels deep (threshold {threshold})" with
      symbol := c.member
      suggestion := "Use early returns and guard clauses to reduce nesting levels. "
        ++ "Extract inner blocks into separate methods" }]
  | none => []

/-- The rules on control flow. -/
def controlFlow : List Rule := [highComplexity, deepNesting]

end Rules

/-! ### Statements that are never reached, and empty blocks -/

/-- The words that write a statement behind which control does not continue. -/
def Node.terminatorWord? : Node → Option String
  | .returnStmt .. => some "return"
  | .throwStmt .. => some "throw"
  | .breakStmt _ => some "break"
  | .continueStmt _ => some "continue"
  | .gotoStmt .. => some "goto"
  | .yieldStmt _ true _ => some "yield break"
  | _ => none

namespace Rules

/-- The statement that is never reached: the one behind the first terminating statement, local
functions aside, unless a label makes it reachable. It comes with the words of the terminator. -/
def firstUnreachable? : List Node → Option (String × Node)
  | [] => none
  | st :: rest =>
    match st.terminatorWord? with
    | none => firstUnreachable? rest
    | some word => next? word rest
where
  /-- The first statement that is no local function, unless it is labelled. -/
  next? (word : String) : List Node → Option (String × Node)
    | [] => none
    | .localFunc .. :: rest => next? word rest
    | .labeledStmt .. :: _ => none
    | st :: _ => some (word, st)

/-- Statements that are never reached, one in each list at most. -/
def unreachable : Rule := .stateless "unreachable_code" fun s c =>
  let stmts := match c.node with
    | .block _ stmts => stmts
    | .switchSection _ _ stmts => stmts
    | _ => []
  (firstUnreachable? stmts).toList.map fun (word, st) =>
    s.finding .unreachable st.span s!"Unreachable code after '{word}' statement"

/-- The word for a construct whose blocks should not be empty. -/
def blockOwner? : Node → Option String
  | .ifStmt .. => some "if"
  | .forStmt .. => some "for"
  | .foreachStmt .. => some "foreach"
  | .whileStmt .. => some "while"
  | .doStmt .. => some "do"
  | .tryStmt .. => some "try"
  | .catchClause .. => some "catch"
  | .usingStmt .. => some "using"
  | .lockStmt .. => some "lock"
  | .checkedStmt .. => some "checked"
  | .block .. => some "nested"
  | _ => none

/-- Blocks without statements. The bodies of members and lambdas may be empty. -/
def emptyBlock : Rule := .stateless "empty_block" fun s c =>
  match c.node, c.parent.bind blockOwner? with
  | .block span [], some owner => [s.finding .emptyBlock span s!"Empty {owner} block"]
  | _, _ => []

end Rules

end CSharpAudit
