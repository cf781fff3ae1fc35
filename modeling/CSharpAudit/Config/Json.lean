import CSharpAudit.Config.Settings
import CSharpAudit.Json.Overlay

/-!
# Settings as JSON

## Main definitions

* `Settings.overlay`, `OutputSettings.overlay`, `Configuration.overlay` — how JSON changes settings
* `Configuration.toJson` — a configuration as JSON
-/

namespace CSharpAudit

/-- A severity by its name. -/
def Severity.overlay : Overlay Severity
  | a, .null => some a
  | _, .string s => ofText? s
  | _, _ => none

/-- A table, to which entries are added. -/
def Table.overlay {α : Type} (zero : α) (value : Overlay α) : Overlay (Table α)
  | _, .null => some {}
  | t, .object entries => entries.foldlM (fun t (name, v) => (value zero v).map (t.insert name)) t
  | _, _ => none

namespace Settings

open Overlay in
/-- How JSON changes the settings of a workspace. -/
def workspaceOverlay : Overlay WorkspaceSettings := fields [
  ("follow_refs", part (·.followReferences) (fun w v => { w with followReferences := v }) bool),
  ("include", part (·.included) (fun w v => { w with included := v }) (list "" string)),
  ("exclude", part (·.excluded) (fun w v => { w with excluded := v }) (list "" string))]

/-- The number of workers; `null` changes nothing. -/
def workersOverlay : Overlay (Option Int)
  | a, .null => some a
  | a, v => (Overlay.int (a.getD 0) v).map some

open Overlay in
/-- How JSON changes the settings of an analysis. -/
def overlay : Overlay Settings := fields [
  ("cf_high_complexity_threshold",
    part (·.complexityThreshold) (fun s v => { s with complexityThreshold := v }) int),
  ("cf_deep_nesting_threshold",
    part (·.nestingThreshold) (fun s v => { s with nestingThreshold := v }) int),
  ("enable_rulesets",
    part (·.rulesets) (fun s v => { s with rulesets := v }) (Table.overlay false bool)),
  ("enable_passes",
    part (·.passes) (fun s v => { s with passes := v }) (Table.overlay false bool)),
  ("rule_severities",
    part (·.severities) (fun s v => { s with severities := v })
      (Table.overlay .info Severity.overlay)),
  ("workspace", part (·.workspace) (fun s v => { s with workspace := v }) workspaceOverlay),
  ("max_workers", part (·.maxWorkers) (fun s v => { s with maxWorkers := v }) workersOverlay),
  ("references", part (·.references) (fun s v => { s with references := v }) (list "" string)),
  ("max_params", part (·.maxParams) (fun s v => { s with maxParams := v }) int),
  ("max_method_lines", part (·.maxMethodLines) (fun s v => { s with maxMethodLines := v }) int),
  ("report_missing_docs",
    part (·.reportMissingDocs) (fun s v => { s with reportMissingDocs := v }) bool)]

end Settings

open Overlay in
/-- How JSON changes the settings of the output. -/
def OutputSettings.overlay : Overlay OutputSettings := fields [
  ("format", part (·.format) (fun o v => { o with format := v }) string),
  ("colors", part (·.colors) (fun o v => { o with colors := v }) bool),
  ("verbose", part (·.verbose) (fun o v => { o with verbose := v }) bool),
  ("show_suggestions",
    part (·.showSuggestions) (fun o v => { o with showSuggestions := v }) bool),
  ("output_file", part (·.outputFile) (fun o v => { o with outputFile := v }) string),
  ("fail_on", part (·.failOn) (fun o v => { o with failOn := v }) string)]

open Overlay in
/-- How JSON changes a configuration. -/
def Configuration.overlay : Overlay Configuration := fields [
  ("version", part (·.version) (fun c v => { c with version := v }) string),
  ("project_name", part (·.projectName) (fun c v => { c with projectName := v }) string),
  ("analysis", part (·.analysis) (fun c v => { c with analysis := v }) Settings.overlay),
  ("output", part (·.output) (fun c v => { c with output := v }) OutputSettings.overlay)]

end CSharpAudit
