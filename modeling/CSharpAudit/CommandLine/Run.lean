import CSharpAudit.CommandLine.Complete
import CSharpAudit.CommandLine.Options
import CSharpAudit.Config.Load
import CSharpAudit.Files.Write
import CSharpAudit.Report.Render
import CSharpAudit.Workspace.Analysis
import CSharpAudit.Workspace.Load

/-!
# Running the program

A run reads the configuration, lets the options of the command line change it, loads the workspace,
analyses it and shows the report. It fails if something cannot be done, or if there are findings of
the severity that counts as failure.

## Main definitions

* `durationText` — a duration as users read it
* `Environment` — what a run finds
* `Outcome` — what a run leaves
* `Options.apply` — a configuration as the options want it
* `Configuration.analyzeInputs` — one analysis
* `Analyzed.finish` — the end of a run, with the report
* `CommandLine.run` — a whole run
-/

namespace CSharpAudit

/-! ### Durations -/

/-- A number of thousandths, millionths and so on, without zeros at its end. -/
def decimalText (n places : Nat) : String :=
  let unit := Nat.pow 10 places
  let digits := (toString (unit + n % unit)).toList.drop 1
  let fraction := (digits.reverse.dropWhile (· == '0')).reverse
  toString (n / unit) ++ if fraction.isEmpty then "" else "." ++ String.ofList fraction

/-- A duration as users read it: below a second in the largest unit that fits, otherwise in hours,
minutes and seconds. -/
def durationText (nanoseconds : Nat) : String :=
  let n := nanoseconds
  if n == 0 then "0s"
  else if n < 1000 then toString n ++ "ns"
  else if n < 1000000 then decimalText n 3 ++ "µs"
  else if n < 1000000000 then decimalText n 6 ++ "ms"
  else
    let minutes := n / 60000000000
    let seconds := decimalText (n % 60000000000) 9 ++ "s"
    if minutes == 0 then seconds
    else if minutes < 60 then toString minutes ++ "m" ++ seconds
    else toString (minutes / 60) ++ "h" ++ toString (minutes % 60) ++ "m" ++ seconds

/-! ### Runs -/

/-- What a run finds. -/
structure Environment where
  files : FileSystem
  /-- How many processors there are. -/
  processors : Int := 1
  /-- Whether people read the standard output. -/
  terminal : Bool := false

/-- What a run leaves. -/
structure Outcome where
  failed : Bool := false
  /-- What is written to the standard output. -/
  output : List UInt8 := []
  /-- What is written for users beside it. -/
  messages : String := ""
  files : FileSystem

namespace Outcome

/-- Adds a line for users. -/
def tell (o : Outcome) (line : String) : Outcome :=
  { o with messages := o.messages ++ line ++ "\n" }

/-- The outcome of a run that cannot go on. -/
def failure (o : Outcome) (message : String) : Outcome := { o.tell message with failed := true }

end Outcome

/-- A configuration as the options want it. -/
def Options.apply (o : Options) (c : Configuration) : Configuration :=
  let given (new old : String) := if new.isEmpty then old else new
  let ws := c.analysis.workspace
  { c with
    analysis := { c.analysis with
      workspace := { ws with
        included := o.included.getD ws.included
        excluded := o.excluded.getD ws.excluded } }
    output := { c.output with
      format := given o.format c.output.format
      outputFile := given o.output c.output.outputFile
      verbose := o.verbose || c.output.verbose
      failOn := given o.failOn c.output.failOn } }

namespace Configuration

/-- Whether the report is shown in colours. -/
def showsColors (c : Configuration) (env : Environment) : Bool :=
  c.output.colors && c.output.outputFile.isEmpty && env.terminal

/-- What is said before an analysis. -/
def progress (c : Configuration) (w : Workspace) : List String :=
  let start := "🔍 Analyzing " ++ toString w.sources.length ++ " C# files in "
    ++ toString w.projects.length ++ " projects"
  if c.output.verbose then
    let passes := (Entry.enabled c.analysis).map (·.id)
    [start ++ " with " ++ toString passes.length ++ " passes...",
      "🎯 Enabled: " ++ ", ".intercalate passes]
  else [start ++ "..."]

end Configuration

/-- What has been analysed, before it is shown. -/
structure Analyzed where
  config : Configuration
  workspace : Workspace
  report : Report
  /-- What has been said so far. -/
  outcome : Outcome

/-- Loads and analyses what is asked for. -/
def Configuration.analyzeInputs (c : Configuration) (env : Environment) (inputs : List String)
    (out : Outcome) : Except Outcome Analyzed := do
  let ansi := c.showsColors env
  let w ← (Workspace.loadAll out.files c.analysis.workspace.followReferences inputs).mapError
    fun e => out.failure (Paint.red.apply ansi ("analysis failed: " ++ e.message))
  let outcome := (c.progress w).foldl (fun out line => out.tell (Paint.cyan.apply ansi line)) out
  return { config := c, workspace := w, report := w.analyze out.files c.analysis, outcome }

namespace Analyzed

/-- The bytes of the report. -/
def bytes (a : Analyzed) (env : Environment) (duration : String) : List UInt8 :=
  let ansi := a.config.showsColors env
  let shown := { a.config with output := { a.config.output with colors := ansi } }
  Report.render shown ansi env.processors (fun file =>
    (a.outcome.files.read file).toOption.map fun source => { file, source })
    { a.report with duration }

/-- Shows the report, or writes it to the file that is asked for. -/
def emit (a : Analyzed) (env : Environment) (duration : String) : Except Outcome Outcome := do
  let ansi := a.config.showsColors env
  let out := a.outcome
  let target := a.config.output.outputFile
  if target.isEmpty then return { out with output := out.output ++ a.bytes env duration }
  else
    let files ← (out.files.writeWithDirectory target (a.bytes env duration)).mapError fun reason =>
      out.failure (Paint.red.apply ansi ("write report: " ++ reason))
    let out := { out with files }
    return out.tell (Paint.cyan.apply ansi ("📄 Report saved to: " ++ target))

/-- Whether there are findings of the severity that counts as failure. -/
def fails (a : Analyzed) : Bool :=
  a.config.output.failSeverity?.any (Diagnostics.hasAtLeast · a.report.diagnostics)

/-- Ends a run with the report. A run that goes on watching does not fail. -/
def finish (a : Analyzed) (env : Environment) (watch : Bool) (duration : String) : Outcome :=
  match a.emit env duration with
  | .error out => out
  | .ok out => { out with failed := !watch && a.fails }

end Analyzed

namespace CommandLine

/-- Where a sample of a configuration is written. -/
def samplePath : String := ".sharpcheck.yml"

/-- Writes a sample of a configuration. -/
def generateConfig (env : Environment) : Outcome :=
  let out : Outcome := { files := env.files }
  let sample := Configuration.render (.ofPath samplePath) env.processors {}
  match env.files.writeWithDirectory samplePath (Text.Utf8.bytes sample) with
  | .error reason => out.failure (Paint.red.apply env.terminal
      ("generate config file: failed to write config file: " ++ reason))
  | .ok files =>
    let line (p : Paint) (s : String) := p.apply env.terminal (s ++ "\n")
    { out with
      files
      output := Text.Utf8.bytes
        (line .green ("✅ Generated sample configuration file: " ++ samplePath)
          ++ line .cyan "📝 Edit this file to customize sharpcheck behavior"
          ++ line .cyan ("🚀 Run 'sharpcheck --config=" ++ samplePath ++ " .' to use it")) }

/-- The configuration of a run. -/
def configuration (env : Environment) (o : Options) : Except String Configuration := do
  let c ← (Configuration.load env.files o.config).mapError fun e =>
    "load configuration: " ++ e.message
  let c := o.apply c
  if let some fault := c.fault? then throw ("invalid configuration: " ++ fault.message)
  if (LogLevel.ofText? o.logLevel).isNone then
    throw (LogLevel.unknownText o.logLevel)
  return c

/-- Does what the options ask for up to the report. What ends before it ends here. -/
def prepare (env : Environment) (o : Options) : Except Outcome Analyzed := do
  let out : Outcome := { files := env.files }
  if o.help then
    throw { out with output := Text.Utf8.bytes Command.audit.help }
  if o.generateConfig then throw (generateConfig env)
  let c ← (configuration env o).mapError fun message =>
    out.failure (Paint.red.apply env.terminal message)
  c.analyzeInputs env o.inputs out

/-- The outcome of a command that is called with wrong arguments: they are told with the usage. -/
def misuse (c : Command) (out : Outcome) (message : String) : Outcome :=
  ((out.tell ("Error: " ++ message)).tell c.usage).failure message

/-- Does what a command for scripts is asked for. -/
def printScript (c : Command) (out : Outcome) (args : List String) : Outcome :=
  let print (text : String) : Outcome := { out with output := Text.Utf8.bytes text }
  match Flag.parse c.scriptFlags {} args with
  | .error e => misuse c out e.message
  | .ok p => match p.asked.help, c, p.inputs with
    | false, .script shell, [] =>
      print (shell.script
        (if p.asked.plain then Command.completePlainWord else Command.completeWord))
    | false, .script _, input :: _ =>
      misuse c out ("unknown command " ++ Text.Quoted.text input ++ " for "
        ++ Text.Quoted.text c.path)
    | _, _, _ => print c.help

/-- Tells what the last argument can become. -/
def printOffer (described : Bool) (out : Outcome) (args : List String) : Outcome :=
  match Completion.offer? args with
  | none => misuse (.complete described) out "requires at least 1 arg(s), only received 0"
  | some offer =>
    let lines := (offer.lines described).map (· ++ "\n")
    offer.notes.foldl Outcome.tell { out with output := Text.Utf8.bytes ("".intercalate lines) }

/-- The options of the analysis that some arguments ask for. What ends before it ends here. -/
def options (env : Environment) (args : List String) : Except Outcome Options :=
  let out : Outcome := { files := env.files }
  match Command.find args with
  | (.audit, args) => (Options.parse args).mapError fun e => misuse .audit out e.message
  | (.complete described, args) => .error (printOffer described out args)
  | (c, args) => .error (printScript c out args)

/-- Does what some arguments ask for. The duration is that of the analysis, as a text. -/
def run (env : Environment) (duration : String) (args : List String) : Outcome :=
  let result : Except Outcome Outcome := do
    let o ← options env args
    let a ← prepare env o
    return a.finish env o.watch duration
  match result with
  | .ok out | .error out => out

end CommandLine

end CSharpAudit
