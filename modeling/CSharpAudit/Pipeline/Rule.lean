import CSharpAudit.Pipeline.Session
import CSharpAudit.Syntax.Cursor

/-!
# Rules

A rule looks at the nodes of a file one by one, in the order of a walk. It may keep a state of its
own and sees nothing of the states of others, so several rules can share one walk.

## Main definitions

* `Rule` — a rule with its state
* `Rule.stateless` — a rule that looks at each node by itself
* `runRules` — the findings of some rules on one walk
-/

namespace CSharpAudit

/-- A rule. On each node it changes its state and gives its findings. -/
structure Rule where
  id : String
  State : Type
  start : State
  visit : Session → State → Cursor → State × List Diagnostic

/-- A rule that looks at each node by itself. -/
def Rule.stateless (id : String) (visit : Session → Cursor → List Diagnostic) : Rule where
  id
  State := Unit
  start := ()
  visit s _ c := ((), visit s c)

/-- A rule in the middle of a walk. -/
structure RunningRule where
  rule : Rule
  state : rule.State

namespace RunningRule

/-- A rule before the walk. -/
def ofRule (r : Rule) : RunningRule := ⟨r, r.start⟩

/-- Offers a node to a rule. -/
def step (s : Session) (c : Cursor) (r : RunningRule) : RunningRule × List Diagnostic :=
  let (state, found) := r.rule.visit s r.state c
  (⟨r.rule, state⟩, found)

/-- Offers a node to every rule, in order. -/
def stepAll (s : Session) (rs : List RunningRule) (c : Cursor) :
    List RunningRule × List Diagnostic :=
  let results := rs.map (step s c)
  (results.map (·.1), results.flatMap (·.2))

/-- Offers nodes to the rules, one by one. -/
def walk (s : Session) : List RunningRule → List Cursor → List Diagnostic
  | _, [] => []
  | rs, c :: cs =>
    let (rs, found) := stepAll s rs c
    found ++ walk s rs cs

end RunningRule

/-- The findings of some rules on one walk over a file: node by node, and rule by rule on each. -/
def runRules (u : CompilationUnit Node) (s : Session) (rules : List Rule) : List Diagnostic :=
  RunningRule.walk s (rules.map RunningRule.ofRule) u.cursors

end CSharpAudit
