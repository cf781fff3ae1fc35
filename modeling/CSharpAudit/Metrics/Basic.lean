import CSharpAudit.Number.Basic

/-!
# Metrics

The metrics of a file are counters, kept in signed words. The metrics of several files are added up,
except for the nesting depth, of which the largest counts.

## Main definitions

* `Counter` — what is counted
* `Metrics` — a number for each counter
* `Metrics.combine` — the metrics of two parts together
-/

namespace CSharpAudit

/-- What is counted in a file. -/
inductive Counter where
  | classes | interfaces | structs | enums | records | delegates | methods | properties | fields
  | events | constructors | ifStatements | forLoops | whileLoops | switchStatements
  | tryStatements | usingStatements | complexity | linesOfCode | nestingDepth
  | documentedMethods | documentedTypes
  deriving DecidableEq, Repr, Inhabited

namespace Counter

/-- Every counter, in the order of reports. -/
def all : List Counter :=
  [.classes, .interfaces, .structs, .enums, .records, .delegates, .methods, .properties, .fields,
   .events, .constructors, .ifStatements, .forLoops, .whileLoops, .switchStatements,
   .tryStatements, .usingStatements, .complexity, .linesOfCode, .nestingDepth,
   .documentedMethods, .documentedTypes]

/-- The name of a counter in reports. -/
def key : Counter → String
  | classes => "total_classes"
  | interfaces => "total_interfaces"
  | structs => "total_structs"
  | enums => "total_enums"
  | records => "total_records"
  | delegates => "total_delegates"
  | methods => "total_methods"
  | properties => "total_properties"
  | fields => "total_fields"
  | events => "total_events"
  | constructors => "total_constructors"
  | ifStatements => "total_if_statements"
  | forLoops => "total_for_loops"
  | whileLoops => "total_while_loops"
  | switchStatements => "total_switch_statements"
  | tryStatements => "total_try_statements"
  | usingStatements => "total_using_statements"
  | complexity => "cyclomatic_complexity"
  | linesOfCode => "lines_of_code"
  | nestingDepth => "max_nesting_depth"
  | documentedMethods => "documented_methods"
  | documentedTypes => "documented_classes"

theorem mem_all (c : Counter) : c ∈ all := by cases c <;> decide

end Counter

/-- A number for each counter. -/
structure Metrics where
  value : Counter → Int

namespace Metrics

instance : Inhabited Metrics := ⟨⟨fun _ => 0⟩⟩

/-- Every counter at zero. -/
def zero : Metrics := ⟨fun _ => 0⟩

/-- The metrics of two parts together. -/
def combine (a b : Metrics) : Metrics where
  value
    | .nestingDepth => max (a.value .nestingDepth) (b.value .nestingDepth)
    | c => wrap (a.value c + b.value c)

end Metrics

end CSharpAudit
