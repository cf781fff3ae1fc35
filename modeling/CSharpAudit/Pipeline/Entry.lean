import CSharpAudit.Pipeline.Rule
import CSharpAudit.Pipeline.Schedule

/-!
# Passes and rule sets

An analysis consists of passes, which look at a whole file, and of rule sets, whose rules share a
walk over it. Rule sets of one variant that follow each other share one walk.

## Main definitions

* `Entry` — a pass or a rule set
* `Stage` — a pass, or the rules of one walk
* `Stage.ofEntries` — the stages of some entries
* `Session.run` — runs some entries
-/

namespace CSharpAudit

/-- Whether the rules of a set look only at the tree, or at the results of passes too. -/
inductive Variant where
  | syntactic | semantic
  deriving DecidableEq, Repr, Inhabited

/-- What an entry does. -/
inductive Work where
  | pass (run : CompilationUnit Node → Session → Session)
  | rules (variant : Variant) (rules : List Rule)

/-- A pass or a rule set. -/
structure Entry where
  id : String
  reads : List ArtifactKind := []
  writes : List ArtifactKind := []
  work : Work

namespace Entry

/-- What the schedule needs to know of an entry. -/
def task (e : Entry) : Task := { id := e.id, reads := e.reads, writes := e.writes }

/-- Whether an entry is a pass. -/
def isPass (e : Entry) : Bool :=
  match e.work with
  | .pass _ => true
  | .rules .. => false

/-- Whether an entry is a rule set of a variant. -/
def isRuleset (v : Variant) (e : Entry) : Bool :=
  match e.work with
  | .pass _ => false
  | .rules w _ => v == w

/-- The names of the rules of a rule set. -/
def ruleIds (e : Entry) : List String :=
  match e.work with
  | .pass _ => []
  | .rules _ rules => rules.map (·.id)

end Entry

/-- A pass, or the rules that share a walk. -/
inductive Stage where
  | pass (run : CompilationUnit Node → Session → Session)
  | walk (variant : Variant) (rules : List Rule)

namespace Stage

/-- Puts an entry in front of stages; rules join the walk of their variant that comes next. -/
def cons (e : Entry) (stages : List Stage) : List Stage :=
  match e.work, stages with
  | .pass run, _ => .pass run :: stages
  | .rules v rules, .walk w next :: rest =>
    if v = w then .walk v (rules ++ next) :: rest else .walk v rules :: stages
  | .rules v rules, _ => .walk v rules :: stages

/-- The stages of some entries. -/
def ofEntries (es : List Entry) : List Stage := es.foldr cons []

/-- Runs a stage. -/
def run (u : CompilationUnit Node) (s : Session) : Stage → Session
  | pass run => run u s
  | walk _ rules => s.report (runRules u s rules)

end Stage

/-- Runs some entries, one stage after the other. -/
def Session.run (u : CompilationUnit Node) (s : Session) (es : List Entry) : Session :=
  (Stage.ofEntries es).foldl (Stage.run u) s

end CSharpAudit
