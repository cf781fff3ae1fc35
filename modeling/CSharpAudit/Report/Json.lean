import CSharpAudit.Config.Json
import CSharpAudit.Report.Basic

/-!
# Reports as JSON

## Main definitions

* `Report.toJson` — a report as a JSON value, its fields in a fixed order
* `Report.overlay` — how JSON changes a report
-/

namespace CSharpAudit

/-- A place as JSON. -/
def Location.toJson (l : Location) : Json :=
  .object [("file", .string l.file), ("line", .int l.line), ("column", .int l.column),
    ("length", .int l.length)]

/-- A finding as JSON; an empty symbol or suggestion is left out. -/
def Diagnostic.toJson (d : Diagnostic) : Json :=
  .object ([("code", Json.string d.code.id), ("severity", Json.string d.severity.text),
    ("message", Json.string d.message), ("location", d.location.toJson)]
    ++ (if d.symbol.isEmpty then [] else [("symbol", Json.string d.symbol)])
    ++ if d.suggestion.isEmpty then [] else [("suggestion", Json.string d.suggestion)])

/-- Metrics as JSON. -/
def Metrics.toJson (m : Metrics) : Json :=
  .object (Counter.all.map fun c => (c.key, .int (m.value c)))

/-- The summary of control flow as JSON. -/
def FlowSummary.toJson (f : FlowSummary) : Json :=
  .object [("total_methods", .int f.members), ("high_complexity_methods", .int f.complex),
    ("deep_nesting_methods", .int f.deeplyNested)]

/-- The summary of dependencies as JSON. -/
def DependencySummary.toJson (d : DependencySummary) : Json :=
  .object [("nodes", .int d.nodes), ("edges", .int d.edges)]

/-- A report as JSON. Sections that are missing are left out, and so is the duration. -/
def Report.toJson (r : Report) : Json :=
  let opt (name : String) (v : Option Json) := v.toList.map (name, ·)
  .object ([("schema_version", Json.int r.schemaVersion),
      ("diagnostics", Json.array (r.diagnostics.map Diagnostic.toJson))]
    ++ opt "metrics" (r.metrics.map Metrics.toJson)
    ++ opt "cfg" (r.flow.map FlowSummary.toJson)
    ++ opt "deps" (r.dependencies.map DependencySummary.toJson)
    ++ [("workspace_warnings", Json.strings r.warnings),
      ("workspace_errors", Json.strings r.errors), ("files_analyzed", Json.int r.filesAnalyzed)])

open Overlay in
/-- How JSON changes a place. -/
def Location.overlay : Overlay Location := fields [
  ("file", part (·.file) (fun l v => { l with file := v }) string),
  ("line", part (·.line) (fun l v => { l with line := v }) int),
  ("column", part (·.column) (fun l v => { l with column := v }) int),
  ("length", part (·.length) (fun l v => { l with length := v }) int)]

open Overlay in
/-- How JSON changes a finding. -/
def Diagnostic.overlay : Overlay Diagnostic := fields [
  ("code", part (·.code.id) (fun d v => { d with code := ⟨v⟩ }) string),
  ("severity", part (·.severity) (fun d v => { d with severity := v }) Severity.overlay),
  ("message", part (·.message) (fun d v => { d with message := v }) string),
  ("location", part (·.location) (fun d v => { d with location := v }) Location.overlay),
  ("symbol", part (·.symbol) (fun d v => { d with symbol := v }) string),
  ("suggestion", part (·.suggestion) (fun d v => { d with suggestion := v }) string)]

/-- The finding that all fields are missing of. -/
def Diagnostic.blank : Diagnostic := { code := ⟨""⟩, severity := .info, message := "" }

open Overlay in
/-- How JSON changes metrics. -/
def Metrics.overlay : Overlay Metrics := fields (Counter.all.map fun c =>
  (c.key, part (·.value c) (fun m v => ⟨fun k => if k == c then v else m.value k⟩) int))

open Overlay in
/-- How JSON changes the summary of control flow. -/
def FlowSummary.overlay : Overlay FlowSummary := fields [
  ("total_methods", part (·.members) (fun f v => { f with members := v }) int),
  ("high_complexity_methods", part (·.complex) (fun f v => { f with complex := v }) int),
  ("deep_nesting_methods", part (·.deeplyNested) (fun f v => { f with deeplyNested := v }) int)]

open Overlay in
/-- How JSON changes the summary of dependencies. -/
def DependencySummary.overlay : Overlay DependencySummary := fields [
  ("nodes", part (·.nodes) (fun d v => { d with nodes := v }) int),
  ("edges", part (·.edges) (fun d v => { d with edges := v }) int)]

open Overlay in
/-- How JSON changes a report. -/
def Report.overlay : Overlay Report := fields [
  ("schema_version", part (·.schemaVersion) (fun r v => { r with schemaVersion := v }) int),
  ("diagnostics", part (·.diagnostics) (fun r v => { r with diagnostics := v })
    (list Diagnostic.blank Diagnostic.overlay)),
  ("metrics", part (·.metrics) (fun r v => { r with metrics := v })
    (optional Metrics.zero Metrics.overlay)),
  ("cfg", part (·.flow) (fun r v => { r with flow := v })
    (optional {} FlowSummary.overlay)),
  ("deps", part (·.dependencies) (fun r v => { r with dependencies := v })
    (optional {} DependencySummary.overlay)),
  ("workspace_warnings", part (·.warnings) (fun r v => { r with warnings := v })
    (list "" string)),
  ("workspace_errors", part (·.errors) (fun r v => { r with errors := v }) (list "" string)),
  ("files_analyzed", part (·.filesAnalyzed) (fun r v => { r with filesAnalyzed := v }) int)]

end CSharpAudit
