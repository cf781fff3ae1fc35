import CSharpAudit.Report.Console
import CSharpAudit.Report.Json
import CSharpAudit.Report.MessagePack

/-!
# Rendered reports

The format of a configuration chooses how a report is written: as JSON, in MessagePack or, for every
other word, for the console.

## Main definitions

* `Report.render` — the bytes of a report
-/

namespace CSharpAudit

/-- The bytes of a report as a configuration wants it. `ansi` tells whether the console shows
colours, `processors` how many workers there are if the configuration does not say. -/
def Report.render (c : Configuration) (ansi : Bool) (processors : Int)
    (sources : String → Option Document) (r : Report) : List UInt8 :=
  match c.output.format with
  | "json" => Text.Utf8.bytes (r.toJson.indented ++ "\n")
  | "msgpack" => r.messagePack
  | _ =>
    let style : ConsoleStyle := ⟨c.output.colors, ansi, c.output.showSuggestions⟩
    let info := if c.output.verbose then
        some (c.analysis, c.analysis.maxWorkers.getD processors) else none
    Text.Utf8.bytes (r.console style info sources)

end CSharpAudit
