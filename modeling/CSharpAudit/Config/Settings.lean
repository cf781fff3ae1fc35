import CSharpAudit.Diagnostic.Code

/-!
# Settings

The settings of an analysis choose what runs, the thresholds of the rules and the files of a
workspace; the settings of the output choose what is shown and how. Some of them are tables, which
give values to names. Names keep the order in which they first came.

## Main definitions

* `Table` — names and their values, each name once
* `Table.get?`, `Table.insert` — look-up and change
* `Table.sorted` — the entries in ascending order of names
* `Settings` — what an analysis looks for
* `OutputSettings` — how a report is shown
* `Configuration` — both together, as a configuration file holds them
-/

namespace CSharpAudit

/-! ### Tables -/

/-- Names and their values. -/
structure Table (α : Type) where
  entries : List (String × α) := []
  deriving Repr

namespace Table

variable {α : Type}

instance : Inhabited (Table α) := ⟨{}⟩

/-- The value of a name. -/
def get? (t : Table α) (name : String) : Option α := t.entries.lookup name

/-- Gives a name a value; a name that has one keeps its place. -/
def insert (t : Table α) (name : String) (value : α) : Table α :=
  if t.entries.any (·.1 == name) then
    ⟨t.entries.map fun e => if e.1 == name then (name, value) else e⟩
  else ⟨t.entries ++ [(name, value)]⟩

/-- The table of some entries; of several with one name the last counts. -/
def ofList (entries : List (String × α)) : Table α :=
  entries.foldl (fun t e => t.insert e.1 e.2) {}

def isEmpty (t : Table α) : Bool := t.entries.isEmpty

/-- The entries in ascending order of names. -/
def sorted (t : Table α) : List (String × α) :=
  t.entries.mergeSort fun a b => (compare a.1 b.1).isLE

end Table

/-! ### What is set -/

/-- Which files of a workspace are analysed. -/
structure WorkspaceSettings where
  followReferences : Bool := true
  included : List String := []
  excluded : List String := []
  deriving Repr, Inhabited

/-- What an analysis looks for. -/
structure Settings where
  /-- A member is complex when its complexity exceeds this. -/
  complexityThreshold : Int := 10
  /-- A member is deeply nested when its nesting exceeds this. -/
  nestingThreshold : Int := 4
  /-- The rule sets that are switched on or off; others are on. -/
  rulesets : Table Bool := {}
  /-- The passes that are switched on or off; others are on. -/
  passes : Table Bool := {}
  /-- The severities that findings of a code get. -/
  severities : Table Severity := {}
  workspace : WorkspaceSettings := {}
  /-- How many files may be analysed at once; missing means as many as there are processors. -/
  maxWorkers : Option Int := none
  /-- The assemblies whose types are known. -/
  references : List String := []
  maxParams : Int := 7
  maxMethodLines : Int := 50
  reportMissingDocs : Bool := false
  deriving Repr, Inhabited

namespace Settings

/-- Whether a pass is switched on. -/
def passEnabled (s : Settings) (id : String) : Bool := (s.passes.get? id).getD true

/-- Whether a rule set is switched on. -/
def rulesetEnabled (s : Settings) (id : String) : Bool := (s.rulesets.get? id).getD true

/-- The severity that the findings of a code get. -/
def severity? (s : Settings) (c : Code) : Option Severity := s.severities.get? c.id

end Settings

/-- How a report is shown. -/
structure OutputSettings where
  format : String := "console"
  colors : Bool := true
  verbose : Bool := false
  showSuggestions : Bool := true
  /-- Where the report is written; the standard output if empty. -/
  outputFile : String := ""
  /-- The lowest severity that counts as failure: `error`, `warning` or `none`. -/
  failOn : String := "error"
  deriving Repr, Inhabited

/-- The severity from which on findings count as failure, if any do. -/
def OutputSettings.failSeverity? (o : OutputSettings) : Option Severity :=
  match o.failOn with
  | "warning" => some .warning
  | "none" => none
  | _ => some .error

/-- What a configuration file holds. -/
structure Configuration where
  version : String := "1.0"
  projectName : String := ""
  analysis : Settings := {}
  output : OutputSettings := {}
  deriving Repr, Inhabited

end CSharpAudit
