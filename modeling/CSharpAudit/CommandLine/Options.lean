import CSharpAudit.CommandLine.Flag
import CSharpAudit.Text.Case
import CSharpAudit.Text.CharSet
import CSharpAudit.Text.Quoted

/-!
# Options of the command line

The flags of the command line and what they ask for.

## Main definitions

* `LogLevel` — how important a log message is
* `LogLevel.ofText?` — the level that a word names
* `Options` — what the command line asks for
* `Options.flags` — the flags there are
* `Options.parse` — what some arguments ask for
* `Options.introduction` — what the program does
-/

namespace CSharpAudit

/-! ### Levels of log messages -/

/-- How important a log message is. -/
inductive LogLevel where
  | debug | info | warn | error
  deriving DecidableEq, Repr, Inhabited

namespace LogLevel

/-- The name of a level in log messages. -/
def text : LogLevel → String
  | debug => "DEBUG"
  | info => "INFO"
  | warn => "WARN"
  | error => "ERROR"

/-- The level that a word names, whatever its case and the blanks around it; no word means
`info`. -/
def ofText? (s : String) : Option LogLevel :=
  match Text.lowered (Text.trimBlank s) with
  | "debug" => some debug
  | "" | "info" => some info
  | "warn" | "warning" => some warn
  | "error" => some error
  | _ => none

/-- The message about a word that names no level. -/
def unknownText (s : String) : String := "unknown log level " ++ Text.Quoted.text s

end LogLevel

/-! ### Options -/

/-- What the command line asks for. -/
structure Options where
  format : String := ""
  watch : Bool := false
  config : String := ""
  generateConfig : Bool := false
  output : String := ""
  verbose : Bool := false
  logLevel : String := "warn"
  /-- Which files are analysed, if that is given. -/
  included : Option (List String) := none
  /-- Which files are left out, if that is given. -/
  excluded : Option (List String) := none
  failOn : String := ""
  help : Bool := false
  inputs : List String := []
  deriving Repr, Inhabited

namespace Options

/-- The flags there are, in the order of their names. -/
def flags : List (Flag Options) := [
  { name := "config", short := some 'c', kind := .text fun o v => { o with config := v }
    usage := "Path to configuration file" },
  { name := "exclude"
    kind := .texts fun o vs => { o with excluded := some (o.excluded.getD [] ++ vs) }
    usage := "Skip files matching these globs" },
  { name := "fail-on", kind := .text fun o v => { o with failOn := v }
    usage := "Exit 1 on diagnostics at or above this severity (error, warning, none)" },
  { name := "format", short := some 'f', kind := .text fun o v => { o with format := v }
    usage := "Output format (console, json, msgpack)" },
  { name := "generate-config", kind := .switch fun o v => { o with generateConfig := v }
    usage := "Generate sample configuration file" },
  { name := "help", short := some 'h', kind := .switch fun o v => { o with help := v }
    usage := Flag.helpUsage "sharpcheck" },
  { name := "include"
    kind := .texts fun o vs => { o with included := some (o.included.getD [] ++ vs) }
    usage := "Only analyze files matching these globs" },
  { name := "log-level", kind := .text fun o v => { o with logLevel := v }
    usage := "Log level (debug, info, warn, error)", default := "warn" },
  { name := "output", short := some 'o', kind := .text fun o v => { o with output := v }
    usage := "Write the report to a file instead of stdout" },
  { name := "verbose", short := some 'v', kind := .switch fun o v => { o with verbose := v }
    usage := "Verbose report and debug logging" },
  { name := "watch", short := some 'w', kind := .switch fun o v => { o with watch := v }
    usage := "Re-run the analysis when sources change" }]

/-- What some arguments ask for. -/
def parse (args : List String) : Except FlagError Options := do
  let p ← Flag.parse flags {} args
  return { p.asked with inputs := p.inputs }

/-- What the program does. -/
def introduction : String :=
  "sharpcheck parses C# sources, builds symbol, binding and control flow
information for a whole workspace and reports diagnostics with suggestions.

Examples:
  sharpcheck .                             # Analyze the current directory
  sharpcheck App.sln                       # Analyze every project of a solution
  sharpcheck src/App/App.csproj            # Analyze one project and its references
  sharpcheck --format=json -o out.json .   # Write a JSON report
  sharpcheck --fail-on=warning .           # Exit 1 on warnings too
  sharpcheck --config=.sharpcheck.yml .    # Use custom config
  sharpcheck --generate-config             # Generate sample config file"

end Options

end CSharpAudit
