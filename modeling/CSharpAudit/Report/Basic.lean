import CSharpAudit.Diagnostic.Basic
import CSharpAudit.Metrics.Basic

/-!
# Reports

A report is the result of an analysis of a file or of a workspace.

## Main definitions

* `FlowSummary`, `DependencySummary` — what a report tells of control flow and dependencies
* `Report` — the result of an analysis
-/

namespace CSharpAudit

/-- How many members there are, and how many exceed the thresholds. -/
structure FlowSummary where
  members : Int := 0
  complex : Int := 0
  deeplyNested : Int := 0
  deriving DecidableEq, Repr, Inhabited

/-- How many types there are, and how many dependencies between them. -/
structure DependencySummary where
  nodes : Int := 0
  edges : Int := 0
  deriving DecidableEq, Repr, Inhabited

/-- The result of an analysis. -/
structure Report where
  schemaVersion : Int := 1
  diagnostics : List Diagnostic := []
  metrics : Option Metrics := none
  flow : Option FlowSummary := none
  dependencies : Option DependencySummary := none
  warnings : List String := []
  errors : List String := []
  filesAnalyzed : Int := 0
  /-- How long the analysis took; shown on the console only. -/
  duration : String := ""
  deriving Inhabited

end CSharpAudit
