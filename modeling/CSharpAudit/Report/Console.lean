import CSharpAudit.Config.Settings
import CSharpAudit.Report.Basic
import CSharpAudit.Text.Grapheme

/-!
# Reports on the console

The report for people: a summary, the metrics, the warnings and the findings, each with the source
line it is about and a mark below the place.

## Main definitions

* `Paint` — the colours of the console
* `snippet?` — the source line of a finding and the mark below it
* `Report.console` — the whole report
-/

namespace CSharpAudit

/-- A colour of the console, with a heavier stroke if `bold`. -/
inductive Paint where
  | red | green | yellow | blue | cyan | white | boldRed
  deriving DecidableEq, Repr, Inhabited

namespace Paint

/-- The codes that switch a colour on and off. -/
def codes : Paint → String × String
  | red => ("31", "0")
  | green => ("32", "0")
  | yellow => ("33", "0")
  | blue => ("34", "0")
  | cyan => ("36", "0")
  | white => ("37", "0")
  | boldRed => ("31;1", "0;22")

/-- A text in a colour, if the console shows colours. -/
def apply (p : Paint) (ansi : Bool) (s : String) : String :=
  if ansi then "\x1b[" ++ p.codes.1 ++ "m" ++ s ++ "\x1b[" ++ p.codes.2 ++ "m" else s

end Paint

/-- The sign and the colour of a severity. -/
def Severity.display : Severity → String × Paint
  | .error => ("❌", .boldRed)
  | .warning => ("⚠️", .yellow)
  | .info => ("ℹ️", .blue)
  | .off => ("❓", .white)

/-- How a console report looks. -/
structure ConsoleStyle where
  /-- Whether signs and colours are wanted. -/
  colors : Bool := true
  /-- Whether the console shows colours. -/
  ansi : Bool := false
  showSuggestions : Bool := true

namespace Console

variable (style : ConsoleStyle)

/-- A text in a colour, if colours are wanted and shown. -/
def paint (p : Paint) (s : String) : String := p.apply (style.colors && style.ansi) s

/-- The first line of a section. -/
def heading (sign title : String) : String :=
  if style.colors then paint style .white (sign ++ " " ++ title ++ ":\n") else title ++ ":\n"

/-- The first lines of a report. -/
def header : String :=
  if style.colors then
    paint style .cyan "🔍 sharpcheck Analysis Report\n"
      ++ paint style .white "═══════════════════════════════════════\n\n"
  else "sharpcheck Analysis Report\n=======================================\n\n"

/-- The settings that matter for the findings; `workers` is the number of workers. -/
def settingsInfo (s : Settings) (workers : Int) : String :=
  let thresholds := s!"complexity > {s.complexityThreshold}, nesting > {s.nestingThreshold}"
  heading style "📋" "Configuration" ++ "   Flow thresholds: " ++ paint style .cyan thresholds
    ++ "\n   Workers: " ++ paint style .cyan (toString workers) ++ "\n\n"

/-- The colour of a score. -/
def scorePaint (score : Nat) : Paint :=
  if score < 50 then .red else if score < 75 then .yellow else .green

/-- How many files and findings there are, and the score. -/
def summary (r : Report) : String :=
  let score := Diagnostics.score r.diagnostics
  heading style "📊" "Summary" ++ s!"   Files analyzed: {r.filesAnalyzed}\n"
    ++ s!"   Diagnostics: {r.diagnostics.length}\n   Quality score: "
    ++ paint style (scorePaint score) (toString score) ++ "/100\n\n"

/-- The metrics. -/
def metrics (m : Metrics) : String :=
  let n (c : Counter) := toString (m.value c)
  heading style "📐" "Metrics" ++ "   Types: " ++ n .classes ++ " classes, " ++ n .interfaces
    ++ " interfaces, " ++ n .structs ++ " structs, " ++ n .enums ++ " enums, " ++ n .records
    ++ " records\n   Members: " ++ n .methods ++ " methods, " ++ n .constructors
    ++ " constructors, " ++ n .properties ++ " properties, " ++ n .fields
    ++ " fields\n   Lines of code: " ++ n .linesOfCode ++ "\n   Cyclomatic complexity: "
    ++ n .complexity ++ " (max nesting " ++ n .nestingDepth ++ ")\n\n"

/-- The summary of control flow. -/
def flow (f : FlowSummary) : String :=
  heading style "🔀" "Control flow" ++ s!"   Methods: {f.members}\n"
    ++ s!"   High complexity: {f.complex}\n   Deep nesting: {f.deeplyNested}\n\n"

/-- The summary of dependencies. -/
def dependencies (d : DependencySummary) : String :=
  heading style "🔗" "Dependencies" ++ s!"   Nodes: {d.nodes}\n   Edges: {d.edges}\n\n"

/-- The warnings about the workspace. -/
def warnings (ws : List String) : String :=
  if ws.isEmpty then ""
  else heading style "🚧" "Workspace warnings"
    ++ String.join (ws.map fun w => paint style .yellow ("   " ++ w ++ "\n")) ++ "\n"

/-- How many findings there are of each severity. -/
def severities (ds : List Diagnostic) : String :=
  let line (s : Severity) : String :=
    let n := Diagnostics.count s ds
    let (sign, color) := s.display
    if n == 0 then ""
    else (if style.colors then "   " ++ sign ++ " " else "   ") ++ s.text ++ ": "
      ++ paint style color (toString n) ++ "\n"
  heading style "📋" "Diagnostics by Severity"
    ++ String.join ([Severity.error, .warning, .info].map line)

/-- What stands below the text before a mark: a tab below a tab, blanks below all else. -/
def indent (before : List Char) : String :=
  String.join (before.map fun c =>
    if c == '\t' then "\t" else String.ofList (List.replicate (Text.cells c) ' '))

/-- The source line of a place and the mark below it, if the document has the place. -/
def snippet? (d : Document) (l : Location) : Option (String × String) :=
  let line := d.lineBytes l.line
  if line.isEmpty || l.column < 1 || l.column > line.length + 1 then none
  else
    let start := (l.column - 1).toNat
    let chars (bs : List UInt8) := (Text.Utf8.text bs).toList
    let marked := (line.drop start).take l.length.toNat
    some (Text.Utf8.text line, indent (chars (line.take start))
      ++ String.ofList (List.replicate (max (Text.textCells marked) 1) '^'))

/-- A finding. -/
def finding (sources : String → Option Document) (d : Diagnostic) : String :=
  let l := d.location
  let (sign, color) := d.severity.display
  let title := if style.colors then
      sign ++ " " ++ paint style color d.severity.text ++ " " ++ paint style .white d.code.id
        ++ ": " ++ d.message ++ "\n" ++ paint style .cyan ("   📍 " ++ l.text)
    else d.severity.text ++ " " ++ d.code.id ++ ": " ++ d.message ++ "\n   at " ++ l.text
  let symbol := if d.symbol.isEmpty then "" else paint style .cyan (" in '" ++ d.symbol ++ "'")
  let shown := match (sources l.file).bind (snippet? · l) with
    | none => ""
    | some (line, mark) => "      " ++ line ++ "\n      " ++ paint style .red mark ++ "\n"
  let advice := if !style.showSuggestions || d.suggestion.isEmpty then ""
    else if style.colors then paint style .green ("   💡 " ++ d.suggestion ++ "\n")
    else "   Suggestion: " ++ d.suggestion ++ "\n"
  title ++ symbol ++ "\n" ++ shown ++ advice ++ "\n"

/-- All findings, or that there are none. -/
def findings (sources : String → Option Document) (ds : List Diagnostic) : String :=
  if ds.isEmpty then
    if style.colors then paint style .green "🎉 No diagnostics reported!\n\n"
    else "No diagnostics reported!\n\n"
  else severities style ds ++ "\n" ++ heading style "🔍" "Detailed Diagnostics"
    ++ String.ofList (List.replicate 50 '─') ++ "\n\n"
    ++ String.join (ds.map (finding style sources))

end Console

/-- A report for people. `sources` gives the documents that findings are shown in, and `info` the
settings to be shown, with the number of workers. -/
def Report.console (style : ConsoleStyle) (info : Option (Settings × Int))
    (sources : String → Option Document) (r : Report) : String :=
  Console.header style
    ++ ((info.map fun (s, workers) => Console.settingsInfo style s workers).getD "")
    ++ Console.summary style r ++ (r.metrics.map (Console.metrics style)).getD ""
    ++ (r.flow.map (Console.flow style)).getD ""
    ++ (r.dependencies.map (Console.dependencies style)).getD ""
    ++ Console.warnings style r.warnings ++ Console.findings style sources r.diagnostics
    ++ if r.duration.isEmpty then ""
      else Console.paint style .white ("Analysis completed in " ++ r.duration ++ "\n")

end CSharpAudit
