import CSharpAudit.Binding.Resolve
import CSharpAudit.Dependency.Graph
import CSharpAudit.Grammar.Unit
import CSharpAudit.Metrics.Collect
import CSharpAudit.Pipeline.Entry
import CSharpAudit.Rules.Access
import CSharpAudit.Rules.Attributes
import CSharpAudit.Rules.ControlFlow
import CSharpAudit.Rules.Inheritance
import CSharpAudit.Rules.Nullability
import CSharpAudit.Rules.Performance

/-!
# The registered passes and rule sets

## Main definitions

* `Passes` — the passes
* `Entry.all` — every pass and rule set, in order of registration
* `Entry.enabled` — those that the settings leave on, in the order in which they run
* `analyze` — the analysis of one file

## Main results

* `analyze_of_parse` — a file is analysed if it can be parsed
-/

namespace CSharpAudit

namespace Passes

/-- The pass that collects the symbols. -/
def indexing : Entry where
  id := "indexing"
  writes := [.symbols]
  work := .pass fun u s => { s with artifacts.symbols := some (symbolIndex u) }

/-- The types of the assemblies that the settings name; those that cannot be read are left out. -/
def externalSymbols (s : Session) : ExternalSymbols :=
  s.settings.references.foldl (fun e path => match s.assemblies path with
    | none => e
    | some types =>
      let e := types.foldl (fun e t => e.addType t.namespaceName t.name) e
      { e with sources := e.sources ++ [path] }) {}

/-- The pass that reads the referenced assemblies. -/
def assemblyLoading : Entry where
  id := "pe_loading"
  writes := [.external]
  work := .pass fun _ s => { s with artifacts.external := some (externalSymbols s) }

/-- The pass that counts. -/
def metrics : Entry where
  id := "metrics"
  writes := [.metrics]
  work := .pass fun u s => { s with artifacts.metrics := some (.ofUnit u s.document.source) }

/-- The rule set on names. -/
def naming : Entry where
  id := "naming"
  work := .rules .syntactic Rules.naming

/-- The rule set on single declarations. -/
def declarations : Entry where
  id := "semantic"
  work := .rules .syntactic Rules.declaration

/-- The pass that measures control flow. -/
def controlFlow : Entry where
  id := "control_flow"
  writes := [.flows]
  work := .pass fun u s => { s with artifacts.flows := some (flowIndex u) }

/-- The pass that collects the dependencies between types. -/
def dependencies : Entry where
  id := "dependencies"
  reads := [.symbols]
  writes := [.dependencies]
  work := .pass fun u s => match s.artifacts.symbols with
    | some index => { s with artifacts.dependencies := some (dependencyGraph u index) }
    | none => s

/-- The rule set on control flow. -/
def controlFlowSmells : Entry where
  id := "control_flow_smells"
  reads := [.flows]
  work := .rules .semantic Rules.controlFlow

/-- The pass that collects the names inside members. -/
def symbols : Entry where
  id := "symbols"
  writes := [.scopes]
  work := .pass fun u s => { s with artifacts.scopes := some (localScopes u) }

/-- The pass that resolves type references. -/
def binding : Entry where
  id := "binding"
  reads := [.symbols, .external]
  writes := [.bindings]
  work := .pass fun u s =>
    { s with artifacts.bindings := some (bindTypes u s.artifacts.symbols s.artifacts.external) }

/-- The pass on base types. -/
def types : Entry where
  id := "types"
  reads := [.bindings, .symbols]
  work := .pass fun u s => s.report (Rules.inheritance u s)

/-- The pass on overloads. -/
def overload : Entry where
  id := "overload"
  work := .pass fun u s => s.report (u.types.flatMap (Rules.overloads s))

/-- The pass on type parameters. -/
def generics : Entry where
  id := "generics"
  reads := [.bindings, .symbols]
  work := .pass fun u s => s.report (Rules.generics u s)

/-- Local variables that are never used. -/
def unusedLocals (s : Session) (scopes : LocalScopes) : List Diagnostic :=
  scopes.scopes.flatMap fun sc =>
    (sc.locals.filter fun l => l.kind == .localVariable && l.uses == 0).map fun l =>
      s.finding .unusedVariable l.span s!"Local variable '{l.name}' is declared but never used"

/-- The rules of the pass on the flow of control and data. -/
def flowRules : List Rule :=
  [Rules.unreachable, Rules.emptyBlock, Rules.stringConcat, Rules.allocation, Rules.linearSearch,
   Rules.nestedSearch, Rules.collectionGrowth]

/-- The pass on the flow of control and data. -/
def flow : Entry where
  id := "flow"
  reads := [.scopes]
  work := .pass fun u s =>
    s.report (s.artifacts.scopes.toList.flatMap (unusedLocals s) ++ runRules u s flowRules)

/-- The pass on null values, for files that distinguish nullable types. -/
def nullability : Entry where
  id := "nullability"
  reads := [.symbols]
  work := .pass fun u s =>
    if u.nullableEnabled then s.report (runRules u s [Rules.nullAssignment]) else s

/-- The pass on repeated attributes. -/
def attributes : Entry where
  id := "attributes"
  work := .pass fun u s => s.report (Rules.attributes u s)

/-- The pass on access modifiers. -/
def access : Entry where
  id := "access"
  work := .pass fun u s =>
    s.report (u.types.flatMap fun t => t.members.flatMap (Rules.memberAccess s t))

/-- The pass on extension methods. -/
def extensions : Entry where
  id := "extensions"
  work := .pass fun u s => s.report (u.declarations.flatMap (Rules.extensions s))

/-- The findings as they are reported: with the severities of the settings, each once, sorted. -/
def finalDiagnostics (settings : Settings) (ds : List Diagnostic) : List Diagnostic :=
  Diagnostics.sort (Diagnostics.dedup (Diagnostics.override settings.severity? ds))

/-- The pass that puts the findings into their final form. -/
def reporting : Entry where
  id := "reporting"
  work := .pass fun _ s => { s with diagnostics := finalDiagnostics s.settings s.diagnostics }

end Passes

namespace Entry

open Passes in
/-- Every pass and rule set, in order of registration. -/
def all : List Entry :=
  [indexing, assemblyLoading, metrics, naming, declarations, controlFlow, dependencies,
   controlFlowSmells, symbols, binding, types, overload, generics, flow, nullability, attributes,
   access, extensions, reporting]

/-- Every pass and rule set, in the order in which they run. -/
def ordered : List Entry :=
  match schedule task all with
  | .ok es => es
  | .error _ => []

/-- The passes and rule sets that the settings leave on. -/
def enabled (settings : Settings) : List Entry :=
  ordered.filter fun e =>
    if e.isPass then settings.passEnabled e.id else settings.rulesetEnabled e.id

end Entry

/-- The session of a parsed document after all passes and rule sets that the settings leave on. -/
def Session.runEnabled (u : CompilationUnit Node) (s : Session) : Session :=
  s.run u (Entry.enabled s.settings)

/-- The analysis of one file. -/
def analyze (settings : Settings) (assemblies : AssemblyTypes) (document : Document) :
    Except SyntaxError Session := do
  let u ← parse document.source
  return Session.runEnabled u { document, settings, assemblies }

/-- A file that can be parsed is analysed by a run of the entries that are enabled. -/
theorem analyze_of_parse (settings : Settings) (assemblies : AssemblyTypes) (document : Document)
    {u : CompilationUnit Node} (h : parse document.source = .ok u) :
    analyze settings assemblies document =
      .ok (Session.runEnabled u { document, settings, assemblies }) := by
  rw [analyze, h]
  rfl

end CSharpAudit
