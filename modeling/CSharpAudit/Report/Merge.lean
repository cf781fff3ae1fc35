import CSharpAudit.Pipeline.Registry
import CSharpAudit.Report.Basic

/-!
# Merging results

The report of a workspace is merged from the results of its files. What is counted once in the whole
workspace is merged by name: members by their full names, types and dependencies by the full names
of the types.

## Main definitions

* `FileResult` — what a report needs to know of a file
* `FileResult.ofSession` — the result of an analysed file
* `mergeResults` — the report of some results
* `Session.toReport` — the report of a single file
-/

namespace CSharpAudit

/-- What a report needs to know of a file. -/
structure FileResult where
  /-- Why the file could not be analysed, if so. -/
  warning : Option String := none
  analyzed : Bool := true
  diagnostics : List Diagnostic := []
  metrics : Option Metrics := none
  flows : Option FlowIndex := none
  /-- The types and dependencies by name. -/
  dependencies : Option (List String × List String) := none
  deriving Inhabited

namespace FileResult

/-- A file that could not be analysed. -/
def skipped (warning : String) : FileResult := { warning := some warning, analyzed := false }

/-- The name of a type in the merged dependencies: its full name, or a name of its own in the file
if it has none. -/
def nodeKey (file : String) (g : DependencyGraph) (id : Int) : String :=
  match (g.nodes.find? (·.id == id)).map (·.name) with
  | some name => if name.isEmpty then fallback else name
  | none => fallback
where
  /-- A name that no other file uses. -/
  fallback : String := "id:" ++ file ++ "#" ++ toString id

/-- The types and dependencies of a graph by name. -/
def dependencyKeys (file : String) (g : DependencyGraph) : List String × List String :=
  (g.sortedNodes.map fun n => nodeKey file g n.id,
    g.edges.map fun e => nodeKey file g e.source ++ " -> " ++ nodeKey file g e.target
      ++ " (" ++ e.kind ++ ")")

/-- The result of an analysed file. -/
def ofSession (s : Session) : FileResult :=
  { diagnostics := s.diagnostics
    metrics := s.artifacts.metrics
    flows := s.artifacts.flows
    dependencies := s.artifacts.dependencies.map (dependencyKeys s.document.file) }

end FileResult

namespace Merge

/-- The metrics of all files that have some. -/
def metrics (results : List FileResult) : Option Metrics :=
  results.foldl (fun total r => match total, r.metrics with
    | some t, some m => some (t.combine m)
    | none, m => m
    | t, none => t) none

/-- The control flow of all members by name, the higher numbers of those that share one. -/
def flows (results : List FileResult) : FlowIndex :=
  results.foldl (fun index r => (r.flows.getD []).foldl
    (fun index (name, flow) => index.record name flow) index) []

/-- How many members exceed the thresholds. -/
def summarizeFlows (settings : Settings) (index : FlowIndex) : FlowSummary where
  members := index.length
  complex := (index.filter (·.2.complexity > settings.complexityThreshold)).length
  deeplyNested := (index.filter (·.2.nesting > settings.nestingThreshold)).length

/-- How many different types and dependencies there are. -/
def summarizeDependencies (results : List FileResult) : DependencySummary where
  nodes := (results.flatMap fun r => (r.dependencies.getD ([], [])).1).eraseDups.length
  edges := (results.flatMap fun r => (r.dependencies.getD ([], [])).2).eraseDups.length

/-- Texts in ascending order, each once. -/
def sortedOnce (texts : List String) : List String :=
  (texts.mergeSort fun a b => (compare a b).isLE).eraseDups

end Merge

/-- The report of some results. The `warnings` are those known before; dependencies are always told
of if `always` is set, otherwise if a file has some. -/
def mergeResults (settings : Settings) (always : Bool) (warnings : List String)
    (results : List FileResult) : Report :=
  let analyzed := results.filter (·.analyzed)
  { diagnostics := Diagnostics.sort (analyzed.flatMap (·.diagnostics))
    metrics := Merge.metrics analyzed
    flow := if analyzed.any (·.flows.isSome) then
        some (Merge.summarizeFlows settings (Merge.flows analyzed))
      else none
    dependencies := if always || analyzed.any (·.dependencies.isSome) then
        some (Merge.summarizeDependencies analyzed)
      else none
    warnings := Merge.sortedOnce (warnings ++ results.filterMap (·.warning))
    filesAnalyzed := analyzed.length }

/-- The report of a single file. -/
def Session.toReport (s : Session) : Report :=
  mergeResults s.settings false [] [.ofSession s]

end CSharpAudit
