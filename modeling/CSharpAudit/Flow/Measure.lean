import CSharpAudit.Number.Basic
import CSharpAudit.Syntax.Member

/-!
# Control flow of members

The control flow of a member is summarised by two numbers. The complexity of a body is one more than
the number of its branching constructs, its nesting the largest number of them around one another.
Lambdas and local functions count as part of the body. Overloads share a name, under which the
higher numbers and the place of the first overload are kept.

## Main definitions

* `MemberFlow` — the summary of a member
* `FlowIndex` — the summaries by full member name
* `FlowIndex.record` — adds the summary of one more body
* `Node.isBranch` — the constructs at which control branches
* `Node.branches` — the number of branches and their deepest nesting
* `flowIndex` — the control flow of the members of a file
-/

namespace CSharpAudit

/-! ### Summaries -/

/-- The control flow of a member body, and the range of the member's declaration. -/
structure MemberFlow where
  complexity : Int
  nesting : Int
  start : Int := 0
  stop : Int := 0
  deriving DecidableEq, Repr, Inhabited

/-- The control flow of members by their full names, in the order of their first appearance. -/
abbrev FlowIndex := List (String × MemberFlow)

namespace FlowIndex

/-- The summary of a member. -/
def get? (index : FlowIndex) (name : String) : Option MemberFlow :=
  (index.find? (·.1 == name)).map (·.2)

/-- Two summaries under one name: the higher numbers, and the place of the first. -/
def merge (first second : MemberFlow) : MemberFlow :=
  { first with
    complexity := max second.complexity first.complexity
    nesting := max second.nesting first.nesting }

/-- Adds the summary of a body. -/
def record (index : FlowIndex) (name : String) (flow : MemberFlow) : FlowIndex :=
  if index.any (·.1 == name) then
    index.map fun e => if e.1 == name then (e.1, merge e.2 flow) else e
  else index ++ [(name, flow)]

end FlowIndex

/-! ### Measuring -/

namespace Node

/-- Whether control branches at a node. -/
def isBranch : Node → Bool
  | ifStmt .. | forStmt .. | foreachStmt .. | whileStmt .. | doStmt .. | switchStmt ..
  | usingStmt .. | catchClause .. => true
  | _ => false

/-- The number of branches in a tree and the depth to which they are nested. -/
structure Branches where
  count : Nat
  depth : Nat
  deriving DecidableEq, Repr, Inhabited

/-- The branches of a tree. -/
def branches (n : Node) : Branches :=
  n.fold fun n below =>
    let own := if n.isBranch then 1 else 0
    { count := own + totalOf Branches.count below
      depth := own + (below.map Branches.depth).foldl max 0 }

/-- The complexity of a body. -/
def complexity (body : Node) : Nat := body.branches.count + 1

/-- The deepest nesting in a body. -/
def nesting (body : Node) : Nat := body.branches.depth

end Node

/-- Records the bodies of a declaration. -/
def FlowIndex.addMember (index : FlowIndex) (d : Declared) : FlowIndex :=
  d.node.bodies.foldl (fun index body => index.record (d.path.declName d.node)
    { complexity := body.complexity, nesting := body.nesting
      start := d.node.span.start, stop := d.node.span.stop }) index

/-- The control flow of the members of a file. -/
def flowIndex (u : CompilationUnit Node) : FlowIndex :=
  u.declarations.foldl FlowIndex.addMember []

end CSharpAudit
