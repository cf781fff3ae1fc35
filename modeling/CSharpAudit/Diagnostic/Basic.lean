import CSharpAudit.Diagnostic.Code
import CSharpAudit.Number.Basic
import CSharpAudit.Source.Document

/-!
# Diagnostics

A diagnostic is a finding at a place. Lists of diagnostics are sorted, freed of repetitions, counted
and rated.

## Main definitions

* `Diagnostic` — a finding
* `Diagnostics.sort` — by file, line, column and code
* `Diagnostics.dedup` — without repetitions
* `Diagnostics.score` — a rating from 0 to 100
-/

namespace CSharpAudit

/-- A finding at a place of a file. -/
structure Diagnostic where
  code : Code
  severity : Severity
  message : String
  location : Location := {}
  /-- The full name of what the finding is about, if any. -/
  symbol : String := ""
  suggestion : String := ""
  deriving DecidableEq, Repr, Inhabited

namespace Diagnostic

/-- A finding with the severity of its code; an empty message is replaced by that of the code. -/
def ofCode (code : Code) (location : Location) (message : String) : Diagnostic :=
  { code, severity := code.severity, location
    message := if message.isEmpty then code.message else message }

/-- The order of findings: by file, line, column and code. -/
def compare (a b : Diagnostic) : Ordering :=
  (Ord.compare a.location.file b.location.file).then
    ((Ord.compare a.location.line b.location.line).then
      ((Ord.compare a.location.column b.location.column).then (Ord.compare a.code.id b.code.id)))

/-- Whether two findings say the same: code, location and message agree. -/
def same (a b : Diagnostic) : Bool :=
  a.code == b.code && a.location == b.location && a.message == b.message

/-- What a finding takes off the score. Maintainability weighs a fifth more, performance and types
half more; fractions are dropped. -/
def penalty (d : Diagnostic) : Nat :=
  let base := match d.severity with
    | .off => 0
    | .info => 1
    | .warning => 5
    | .error => 15
  match d.code.category? with
  | some .maintainability => base * 6 / 5
  | some .performance | some .type => base * 3 / 2
  | _ => base

end Diagnostic

namespace Diagnostics

/-- Findings by file, line, column and code; those equal in all four keep their order. -/
def sort (ds : List Diagnostic) : List Diagnostic :=
  ds.mergeSort fun a b => (a.compare b).isLE

/-- Findings without repetitions; of several that say the same the first is kept. -/
def dedup (ds : List Diagnostic) : List Diagnostic :=
  ds.foldl (fun kept d => if kept.any (·.same d) then kept else kept ++ [d]) []

/-- Gives the findings of each code its configured severity and drops those switched off. -/
def override (severities : Code → Option Severity) (ds : List Diagnostic) : List Diagnostic :=
  ds.filterMap fun d => match severities d.code with
    | none => some d
    | some .off => none
    | some s => some { d with severity := s }

/-- The number of findings of a severity. -/
def count (s : Severity) (ds : List Diagnostic) : Nat := (ds.filter (·.severity == s)).length

/-- The severities that occur, with the number of findings of each. -/
def counts (ds : List Diagnostic) : List (Severity × Nat) :=
  ([Severity.error, .info, .off, .warning].map fun s => (s, count s ds)).filter (·.2 != 0)

/-- Whether some finding weighs at least as much as a severity. -/
def hasAtLeast (least : Severity) (ds : List Diagnostic) : Bool :=
  ds.any (·.severity.atLeast least)

/-- The rating of some findings: 100 without findings, never below 0. -/
def score (ds : List Diagnostic) : Nat := 100 - totalOf Diagnostic.penalty ds

end Diagnostics

end CSharpAudit
