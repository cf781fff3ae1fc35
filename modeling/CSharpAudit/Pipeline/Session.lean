import CSharpAudit.Assembly.TypeName
import CSharpAudit.Binding.Basic
import CSharpAudit.Config.Settings
import CSharpAudit.Dependency.Graph
import CSharpAudit.Diagnostic.Basic
import CSharpAudit.Flow.Measure
import CSharpAudit.Metrics.Basic
import CSharpAudit.Scope.Basic

/-!
# Sessions

A session is the analysis of one file: the document, the settings, what the passes have found out so
far and the findings. Passes hand results to each other. Each result has a kind, and a kind has at
most one result.

## Main definitions

* `ArtifactKind` — the kinds of results
* `Artifacts` — what the passes have found out
* `Session` — the analysis of one file
* `Session.finding` — a finding at a place of the file
-/

namespace CSharpAudit

/-! ### Kinds of artifacts -/

/-- What one pass can hand to another. -/
inductive ArtifactKind where
  | metrics | symbols | external | flows | dependencies | scopes | bindings
  deriving DecidableEq, Repr, Inhabited

namespace ArtifactKind

/-- Every kind, in order. -/
def all : List ArtifactKind :=
  [.metrics, .symbols, .external, .flows, .dependencies, .scopes, .bindings]

/-- The name of a kind. -/
def text : ArtifactKind → String
  | metrics => "ast_analysis"
  | symbols => "symbol_index"
  | external => "external_symbols"
  | flows => "control_flow_index"
  | dependencies => "dependency_graph"
  | scopes => "local_scopes"
  | bindings => "binding_index"

instance : ToString ArtifactKind := ⟨text⟩

/-- The kind with a name. -/
def ofText? (s : String) : Option ArtifactKind := all.find? (·.text == s)

/-- The name of the kind with a number, a number in parentheses when there is none. -/
def nameOf (n : Int) : String :=
  match if n < 0 then none else all[n.toNat]? with
  | some k => k.text
  | none => "kind(" ++ toString n ++ ")"

end ArtifactKind

/-! ### Artifacts and sessions -/

/-- What the passes have found out about a file, one result at most of each kind. -/
structure Artifacts where
  metrics : Option Metrics := none
  symbols : Option SymbolIndex := none
  external : Option ExternalSymbols := none
  flows : Option FlowIndex := none
  dependencies : Option DependencyGraph := none
  scopes : Option LocalScopes := none
  bindings : Option BindingIndex := none
  deriving Inhabited

namespace Artifacts

/-- Whether there is a result of a kind. -/
def has (a : Artifacts) : ArtifactKind → Bool
  | .metrics => a.metrics.isSome
  | .symbols => a.symbols.isSome
  | .external => a.external.isSome
  | .flows => a.flows.isSome
  | .dependencies => a.dependencies.isSome
  | .scopes => a.scopes.isSome
  | .bindings => a.bindings.isSome

/-- The kinds of which there is a result, in order. -/
def kinds (a : Artifacts) : List ArtifactKind := ArtifactKind.all.filter a.has

end Artifacts

/-- The analysis of one file. -/
structure Session where
  document : Document
  settings : Settings := {}
  assemblies : AssemblyTypes := fun _ => none
  artifacts : Artifacts := {}
  diagnostics : List Diagnostic := []

namespace Session

/-- The location of a span. -/
def locate (s : Session) (span : Span) : Location :=
  s.document.locateRange span.start span.stop

/-- A finding at a span; an empty message is replaced by that of the code. -/
def finding (s : Session) (code : Code) (span : Span) (message : String := "")
    (symbol : String := "") (suggestion : String := "") : Diagnostic :=
  { Diagnostic.ofCode code (s.locate span) message with symbol, suggestion }

/-- Adds findings. -/
def report (s : Session) (ds : List Diagnostic) : Session :=
  { s with diagnostics := s.diagnostics ++ ds }

end Session

end CSharpAudit
