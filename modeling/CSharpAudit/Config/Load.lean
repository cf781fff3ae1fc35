import CSharpAudit.Config.Json
import CSharpAudit.Config.Mismatch
import CSharpAudit.Files.Path
import CSharpAudit.Files.Tree
import CSharpAudit.Json.Parser
import CSharpAudit.Toml.Read
import CSharpAudit.Toml.Write
import CSharpAudit.Yaml.Read
import CSharpAudit.Yaml.Write

/-!
# Configuration files

A configuration is kept in YAML, TOML or JSON; the extension of the file tells in which. What a file
does not say keeps its default.

A configuration comes from a file that is named, or from the first file that is found under one of
the usual names; if there is none, from the defaults.

## Main definitions

* `ConfigFormat` — the formats
* `Configuration.read` — a configuration from the bytes of a file
* `Configuration.render` — a configuration as the text of a file
* `Configuration.fault?` — what is wrong with a configuration
* `Configuration.usualPaths` — where configurations are looked for
* `ConfigError` — why a configuration cannot be loaded
* `Configuration.load` — the configuration that counts
-/

namespace CSharpAudit

/-! ### Formats -/

/-- A format of configuration files. -/
inductive ConfigFormat where
  | yaml | toml | json
  deriving DecidableEq, Repr, Inhabited

/-- The format of a file, by its extension. -/
def ConfigFormat.ofPath (path : String) : ConfigFormat :=
  match Text.lowered (Path.extension path) with
  | ".toml" => .toml
  | ".json" => .json
  | _ => .yaml

namespace Settings

/-- The settings of an analysis in a file. -/
def shape : Shape := .record "config.AnalysisConfig" [
  ("cf_high_complexity_threshold", .leaf .int),
  ("cf_deep_nesting_threshold", .leaf .int),
  ("enable_rulesets", .table (.leaf .bool)),
  ("enable_passes", .table (.leaf .bool)),
  ("rule_severities", .table (.leaf .severity)),
  ("workspace", .record "config.WorkspaceConfig" [
    ("follow_refs", .leaf .bool),
    ("include", .list (.leaf .text)),
    ("exclude", .list (.leaf .text))]),
  ("max_workers", .leaf .int),
  ("references", .list (.leaf .text)),
  ("max_params", .leaf .int),
  ("max_method_lines", .leaf .int),
  ("report_missing_docs", .leaf .bool)]

end Settings

/-- The settings of the output in a file. -/
def OutputSettings.shape : Shape := .record "config.OutputConfig" [
  ("format", .leaf .text),
  ("colors", .leaf .bool),
  ("verbose", .leaf .bool),
  ("show_suggestions", .leaf .bool),
  ("output_file", .leaf .text),
  ("fail_on", .leaf .text)]

/-- A configuration in a file. -/
def Configuration.shape : Shape := .record "config.Config" [
  ("version", .leaf .text),
  ("project_name", .leaf .text),
  ("analysis", Settings.shape),
  ("output", OutputSettings.shape)]

/-! ### Reading -/

/-- What a file says; otherwise why it cannot be read. -/
def ConfigFormat.decode (format : ConfigFormat) (bytes : List UInt8) : Except String Json :=
  match format with
  | .yaml => (Yaml.read Configuration.shape bytes).mapError (·.text)
  | .toml => (Toml.read Configuration.shape bytes).mapError (·.text)
  | .json => do
    let v ← (Json.parse (Text.Utf8.text bytes)).mapError (·.text)
    match Configuration.shape.firstMismatch? v with
    | some m => throw m.text
    | none => return v

/-- A configuration from the bytes of a file; otherwise why they cannot be read. -/
def Configuration.read (format : ConfigFormat) (bytes : List UInt8) :
    Except String Configuration := do
  let v ← format.decode bytes
  (Configuration.overlay {} v).elim (.error "no configuration") .ok

/-! ### Writing -/

namespace Json

/-- A field that is left out if it is empty. -/
def text? (name text : String) : List (String × Json) :=
  if text.isEmpty then [] else [(name, .string text)]

/-- A field that is left out if it is empty. -/
def texts? (name : String) (texts : List String) : List (String × Json) :=
  if texts.isEmpty then [] else [(name, .strings texts)]

/-- A table that is left out if it is empty; `before` is the order of its names. -/
def table? {α : Type} (before : String → String → Bool) (name : String) (value : α → Json)
    (t : Table α) : List (String × Json) :=
  if t.isEmpty then [] else
    let entries := t.entries.mergeSort fun a b => !before b.1 a.1
    [(name, .object (entries.map fun (name, v) => (name, value v)))]

end Json

/-- Settings as JSON. `before` is the order of names in tables, `processors` how many workers there
are if the settings do not say. -/
def Settings.toJson (before : String → String → Bool) (processors : Int) (s : Settings) : Json :=
  .object ([("cf_high_complexity_threshold", Json.int s.complexityThreshold),
      ("cf_deep_nesting_threshold", Json.int s.nestingThreshold)]
    ++ Json.table? before "enable_rulesets" .bool s.rulesets
    ++ Json.table? before "enable_passes" .bool s.passes
    ++ Json.table? before "rule_severities" (fun v => .string v.text) s.severities
    ++ [("workspace", Json.object ([("follow_refs", Json.bool s.workspace.followReferences)]
        ++ Json.texts? "include" s.workspace.included
        ++ Json.texts? "exclude" s.workspace.excluded)),
      ("max_workers", Json.int (s.maxWorkers.getD processors))]
    ++ Json.texts? "references" s.references
    ++ [("max_params", Json.int s.maxParams), ("max_method_lines", Json.int s.maxMethodLines),
      ("report_missing_docs", Json.bool s.reportMissingDocs)])

/-- Settings as JSON. -/
def OutputSettings.toJson (o : OutputSettings) : Json :=
  .object ([("format", Json.string o.format), ("colors", Json.bool o.colors),
      ("verbose", Json.bool o.verbose), ("show_suggestions", Json.bool o.showSuggestions)]
    ++ Json.text? "output_file" o.outputFile
    ++ [("fail_on", Json.string o.failOn)])

/-- A configuration as JSON. -/
def Configuration.toJson (before : String → String → Bool) (processors : Int)
    (c : Configuration) : Json :=
  .object ([("version", Json.string c.version)]
    ++ Json.text? "project_name" c.projectName
    ++ [("analysis", c.analysis.toJson before processors), ("output", c.output.toJson)])

/-- A configuration as the text of a file. -/
def Configuration.render (format : ConfigFormat) (processors : Int) (c : Configuration) : String :=
  match format with
  | .yaml => Yaml.render (c.toJson Yaml.naturalLess processors)
  | .toml => Toml.render (c.toJson (· < ·) processors)
  | .json => (c.toJson (· < ·) processors).indented

/-! ### Validity -/

/-- What is wrong with a configuration. -/
inductive ConfigFault where
  | format (word : String)
  | failOn (word : String)
  | workers
  | complexityThreshold
  | nestingThreshold
  | sizes
  | unknownCode (code : String)
  deriving DecidableEq, Repr, Inhabited

/-- The message for users. -/
def ConfigFault.message : ConfigFault → String
  | format word => "invalid output format: " ++ word ++ " (valid: [console json msgpack])"
  | failOn word => "invalid fail_on value: " ++ word ++ " (valid: error, warning, none)"
  | workers => "max_workers must be at least 1"
  | complexityThreshold => "cf_high_complexity_threshold must be at least 1"
  | nestingThreshold => "cf_deep_nesting_threshold must be at least 1"
  | sizes => "max_params and max_method_lines must be at least 1"
  | unknownCode code => "rule_severities: unknown diagnostic code " ++ code

/-- The first thing that is wrong with a configuration. -/
def Configuration.fault? (c : Configuration) : Option ConfigFault :=
  let a := c.analysis
  if !(["console", "json", "msgpack"].contains c.output.format) then
    some (.format c.output.format)
  else if !(["error", "warning", "none"].contains c.output.failOn) then
    some (.failOn c.output.failOn)
  else if a.maxWorkers.any (· < 1) then some .workers
  else if a.complexityThreshold < 1 then some .complexityThreshold
  else if a.nestingThreshold < 1 then some .nestingThreshold
  else if a.maxParams < 1 || a.maxMethodLines < 1 then some .sizes
  else
    let unknown (c : Code) := c.entry?.isNone
    (a.severities.sorted.find? fun (id, _) => unknown ⟨id⟩).map fun (id, _) => .unknownCode id

/-! ### Loading -/

/-- Why a configuration cannot be loaded. -/
inductive ConfigError where
  /-- The file cannot be read. -/
  | unreadable (path reason : String)
  /-- The file is not written in its format. -/
  | malformed (path reason : String)
  | invalid (fault : ConfigFault)
  deriving Repr, Inhabited

/-- The message for users. -/
def ConfigError.message : ConfigError → String
  | unreadable path reason => "failed to read config file " ++ path ++ ": " ++ reason
  | malformed path reason => "failed to parse config file " ++ path ++ ": " ++ reason
  | invalid fault => "invalid configuration: " ++ fault.message

namespace Configuration

/-- Where configurations are looked for, in this order. -/
def usualPaths : List String := [
  ".sharpcheck.yml", ".sharpcheck.yaml", ".sharpcheck.toml",
  "sharpcheck.yml", "sharpcheck.yaml", "sharpcheck.toml",
  ".config/sharpcheck.yml", ".config/sharpcheck.yaml", ".config/sharpcheck.toml"]

/-- The configuration that a file holds. -/
def ofFile (fs : FileSystem) (path : String) : Except ConfigError Configuration := do
  let bytes ← (fs.read path).mapError (.unreadable path)
  let c ← (read (.ofPath path) bytes).mapError (.malformed path)
  match c.fault? with
  | some fault => throw (.invalid fault)
  | none => return c

/-- The configuration that counts: that of the file at a path, or, if the path is empty, that of the
first file with one of the usual names. -/
def load (fs : FileSystem) (path : String) : Except ConfigError Configuration :=
  if !path.isEmpty then ofFile fs path
  else match usualPaths.find? fs.contains with
    | some found => ofFile fs found
    | none => .ok {}

end Configuration

end CSharpAudit
