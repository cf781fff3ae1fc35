import CSharpAudit.Report.Basic
import CSharpAudit.Text.Utf8

/-!
# Reports in MessagePack

A compact binary form of reports. Numbers, texts, lists and maps are written with the shortest
header that fits.

## Main definitions

* `MessagePack.Value` — a value that can be written
* `MessagePack.encode` — its bytes
* `Report.messagePack` — the bytes of a report
-/

namespace CSharpAudit

namespace MessagePack

/-- A value that can be written. -/
inductive Value where
  | int (n : Int)
  | text (s : String)
  | list (items : List Value)
  | map (entries : List (String × Value))
  deriving Inhabited

/-- A number as so many bytes, the highest first. -/
def bigEndian : Nat → Nat → List UInt8
  | 0, _ => []
  | width + 1, n => bigEndian width (n / 256) ++ [(n % 256).toUInt8]

/-- A whole number. Negative ones are written in two's complement. -/
def int (n : Int) : List UInt8 :=
  let m := n.toNat
  let wrapped (width : Nat) := bigEndian width (n + Nat.pow 256 width).toNat
  if n ≥ 0 then
    if m < 0x80 then [m.toUInt8]
    else if m < 0x100 then 0xCC :: bigEndian 1 m
    else if m < 0x10000 then 0xCD :: bigEndian 2 m
    else if m < 0x100000000 then 0xCE :: bigEndian 4 m
    else 0xCF :: bigEndian 8 m
  else if n ≥ -32 then wrapped 1
  else if n ≥ -0x80 then 0xD0 :: wrapped 1
  else if n ≥ -0x8000 then 0xD1 :: wrapped 2
  else if n ≥ -0x80000000 then 0xD2 :: wrapped 4
  else 0xD3 :: wrapped 8

/-- A text behind the number of its bytes. -/
def text (s : String) : List UInt8 :=
  let bs := Text.Utf8.bytes s
  let n := bs.length
  (if n < 32 then [(0xA0 + n).toUInt8]
   else if n < 0x100 then 0xD9 :: bigEndian 1 n
   else if n < 0x10000 then 0xDA :: bigEndian 2 n
   else 0xDB :: bigEndian 4 n) ++ bs

/-- The header of a list or map with so many entries: `short` for up to 15, then `medium` and
`long`. -/
def header (short : Nat) (medium long : UInt8) (n : Nat) : List UInt8 :=
  if n < 16 then [(short + n).toUInt8]
  else if n < 0x10000 then medium :: bigEndian 2 n
  else long :: bigEndian 4 n

mutual

/-- The bytes of a value. -/
def encode : Value → List UInt8
  | .int n => int n
  | .text s => text s
  | .list items => header 0x90 0xDC 0xDD items.length ++ encodeItems items
  | .map entries => header 0x80 0xDE 0xDF entries.length ++ encodeEntries entries

/-- The bytes of the items of a list. -/
def encodeItems : List Value → List UInt8
  | [] => []
  | v :: vs => encode v ++ encodeItems vs

/-- The bytes of the entries of a map. -/
def encodeEntries : List (String × Value) → List UInt8
  | [] => []
  | (k, v) :: es => text k ++ encode v ++ encodeEntries es

end

/-- A place. -/
def ofLocation (l : Location) : Value :=
  .map [("file", .text l.file), ("line", .int l.line), ("column", .int l.column),
    ("length", .int l.length)]

/-- A text that is left out when empty. -/
def optional (name s : String) : List (String × Value) :=
  if s.isEmpty then [] else [(name, .text s)]

/-- A finding. -/
def ofDiagnostic (d : Diagnostic) : Value :=
  .map ([("code", Value.text d.code.id), ("severity", Value.text d.severity.text),
    ("message", Value.text d.message), ("location", ofLocation d.location)]
    ++ optional "symbol" d.symbol ++ optional "suggestion" d.suggestion)

/-- A report. -/
def ofReport (r : Report) : Value :=
  let section? (name : String) (v : Option Value) := v.toList.map (name, ·)
  .map ([("schema_version", Value.int r.schemaVersion),
      ("diagnostics", Value.list (r.diagnostics.map ofDiagnostic))]
    ++ section? "metrics" (r.metrics.map fun m =>
      .map (Counter.all.map fun c => (c.key, .int (m.value c))))
    ++ section? "cfg" (r.flow.map fun f =>
      .map [("total_methods", .int f.members), ("high_complexity_methods", .int f.complex),
        ("deep_nesting_methods", .int f.deeplyNested)])
    ++ section? "deps" (r.dependencies.map fun d =>
      .map [("nodes", .int d.nodes), ("edges", .int d.edges)])
    ++ [("workspace_warnings", Value.list (r.warnings.map .text)),
      ("workspace_errors", Value.list (r.errors.map .text)),
      ("files_analyzed", Value.int r.filesAnalyzed)])

end MessagePack

/-- The bytes of a report. -/
def Report.messagePack (r : Report) : List UInt8 := MessagePack.encode (MessagePack.ofReport r)

end CSharpAudit
