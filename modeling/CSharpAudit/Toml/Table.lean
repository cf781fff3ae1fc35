import CSharpAudit.Toml.Syntax

/-!
# Tables of TOML

The statements of a text build a table of tables. A heading names a table that is made if it does
not exist yet. A table that was made only because another needed it, or because a key of several
parts went through it, may still be named by a heading of its own; everything else may be defined
but once, except that arrays may be replaced.

## Main definitions

* `Toml.Value` — a value
* `Toml.Builder` — what has been built so far
* `Toml.ofStatements?` — the table that some statements build
-/

namespace CSharpAudit.Toml

/-- A value. -/
inductive Value where
  | string (s : String)
  | int (n : Int)
  | float
  | bool (b : Bool)
  | date
  | array (items : List Value)
  | table (fields : List (String × Value))
  /-- Several tables that share a path. -/
  | tables (items : List (List (String × Value)))
  deriving Inhabited

/-- The fields of a table. -/
abbrev Fields := List (String × Value)

namespace Fields

/-- Gives a field a value. -/
def set (fs : Fields) (name : String) (v : Value) : Fields :=
  if fs.any (·.1 == name) then fs.map fun f => if f.1 == name then (name, v) else f
  else fs ++ [(name, v)]

/-- Changes the table at a path, the last one where several share it. -/
def change (f : Fields → Option Fields) : (path : List String) → Fields → Option Fields
  | [], fs => f fs
  | name :: path, fs => do
    match ← fs.lookup name with
    | .table inner => return set fs name (.table (← change f path inner))
    | .tables items =>
      let last ← items.getLast?
      return set fs name (.tables (items.dropLast ++ [← change f path last]))
    | _ => none

/-- The table at a path, the last one where several share it. -/
def at? : (path : List String) → Fields → Option Fields
  | [], fs => some fs
  | name :: path, fs => do
    match ← fs.lookup name with
    | .table inner => at? path inner
    | .tables items => at? path (← items.getLast?)
    | _ => none

end Fields

/-- What has been built so far. -/
structure Builder where
  root : Fields := []
  /-- The paths of the tables that a heading may still name. -/
  implicit : List (List String) := []
  /-- The paths at which arrays stand. -/
  arrays : List (List String) := []
  /-- The table that entries go into. -/
  context : List String := []

namespace Builder

/-- Marks a table as one that a heading may still name. -/
def markImplicit (b : Builder) (path : List String) : Builder :=
  { b with implicit := path :: b.implicit }

/-- Marks a table as one that no heading may name any more. -/
def unmark (b : Builder) (path : List String) : Builder :=
  { b with implicit := b.implicit.filter (· != path) }

/-- Defines a field of the present table. -/
def define (b : Builder) (name : String) (v : Value) : Option Builder := do
  let path := b.context ++ [name]
  let fields ← Fields.at? b.context b.root
  let put := Fields.change (fun fs => some (Fields.set fs name v)) b.context b.root
  if (fields.lookup name).isNone then return { b with root := ← put }
  else if b.arrays.contains path then return { b.unmark path with root := ← put }
  else if b.implicit.contains path then return b.unmark path
  else none

/-- Makes the tables on the way to a table, the first of which stands at `done`. -/
def makeWay (b : Builder) (done : List String) : (path : List String) → Option Builder
  | [] => some b
  | name :: path => do
    let fields ← Fields.at? done b.root
    let here := done ++ [name]
    let b ← match fields.lookup name with
      | some (.table _) | some (.tables _) => some b
      | some _ => none
      | none => do
        let root ← Fields.change (fun fs => some (Fields.set fs name (.table []))) done b.root
        some { b.markImplicit here with root }
    makeWay b here path

/-- Adds a table to those that share a path. -/
def addItem (b : Builder) (name : String) : Option Builder := do
  let root ← Fields.change (fun fs => match fs.lookup name with
    | none => some (Fields.set fs name (.tables [[]]))
    | some (.tables items) => some (Fields.set fs name (.tables (items ++ [[]])))
    | some _ => none) b.context b.root
  return { b with root }

/-- Notes whether an array stands at a path. -/
def noteArray (b : Builder) (path : List String) (isArray : Bool) : Builder :=
  { b with arrays := if isArray then path :: b.arrays else b.arrays.filter (· != path) }

/-- Notes whether an array stands at a field of the present table. A field without a name stands for
the table itself. -/
def note (b : Builder) (name : String) (isArray : Bool) : Builder :=
  let path := if name.isEmpty then b.context else b.context ++ [name]
  b.noteArray (if path.isEmpty then [""] else path) isArray

/-- Goes to a table. With `item` set, it is the next of those that share the path. -/
def enter (b : Builder) (path : List String) (item : Bool) : Option Builder := do
  let name ← path.getLast?
  let outer := path.dropLast
  let b := { ← b.makeWay [] outer with context := outer }
  let b ← if item then b.addItem name else b.define name (.table [])
  return { b with context := path }

/-- Goes from the present table through the parts of a key. -/
def enterParts (b : Builder) : List String → Option Builder
  | [] => some b
  | part :: parts => do
    let path := b.context ++ [part]
    enterParts (← (b.markImplicit path).enter path false) parts

/-- Whether a value is an array. -/
def isArray : Value → Bool
  | .array _ => true
  | _ => false

mutual

/-- The value of a term at a field of the present table; `item` tells that it is an item of an
array. A table on a line is built at its place. -/
def evaluate (b : Builder) (name : String) (item : Bool) : Term → Option (Builder × Value)
  | .string s => some (b, .string s)
  | .int n => some (b, .int n)
  | .float => some (b, .float)
  | .bool v => some (b, .bool v)
  | .date => some (b, .date)
  | .array terms => do
    let (b, vs) ← evaluateItems (b.note name true) name terms
    return (b, .array vs)
  | .inline entries => do
    let outer := b.context
    let path := outer ++ [name]
    let b ← (b.markImplicit path).enter path item
    let (b, fields) ← evaluateEntries b entries
    return ({ b with context := outer }, .table fields)

/-- The values of the items of an array. -/
def evaluateItems (b : Builder) (name : String) : List Term → Option (Builder × List Value)
  | [] => some (b, [])
  | t :: ts => do
    let (b, v) ← evaluate b name true t
    let (b, vs) ← evaluateItems b name ts
    return (b, v :: vs)

/-- The fields of a table on a line, by the last parts of their keys. -/
def evaluateEntries (b : Builder) : List (List String × Term) → Option (Builder × Fields)
  | [] => some (b, [])
  | (k, t) :: rest => do
    let name ← k.getLast?
    let outer := b.context
    let (b, v) ← evaluate (← b.enterParts k.dropLast) name false t
    let b := (← b.define name v).note name (isArray v)
    let (b, fields) ← evaluateEntries { b with context := outer } rest
    return (b, Fields.set fields name v)

end

/-- Follows a statement. -/
def follow (b : Builder) : Statement → Option Builder
  | .table path => do return (← b.enter path false).noteArray path false
  | .tableItem path => do return (← b.enter path true).noteArray path false
  | .entry k t => do
    let name ← k.getLast?
    let outer := b.context
    let (b, v) ← evaluate (← b.enterParts k.dropLast) name false t
    return { (← b.define name v).note name (isArray v) with context := outer }

end Builder

/-- The table that some statements build. -/
def ofStatements? (ss : List Statement) : Option Fields :=
  (ss.foldlM Builder.follow {}).map (·.root)

end CSharpAudit.Toml
