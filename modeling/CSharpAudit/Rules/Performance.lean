import CSharpAudit.Pipeline.Rule
import CSharpAudit.Syntax.Expression
import CSharpAudit.Text.Case

/-!
# Performance rules

What costs too much when it is done again on every turn of a loop: joining strings, creating heavy
objects, searching lists and growing collections.

## Main definitions

* `Rules.localIn?` — the local that a name in a member refers to
* `Rules.stringConcat`, `Rules.allocation`, `Rules.linearSearch`, `Rules.nestedSearch`,
  `Rules.collectionGrowth` — the rules
-/

namespace CSharpAudit.Rules

/-- The scope of the member that a node belongs to. -/
def scopeAt? (s : Session) (c : Cursor) : Option Scope := do
  let scopes ← s.artifacts.scopes
  let (address, _) ← c.memberNode
  scopes.scopes.reverse.find? fun sc => (sc.decl.map (·.1)) == some address

/-- The local that a name refers to in the member that a node belongs to. -/
def localIn? (s : Session) (c : Cursor) (name : String) : Option Local :=
  (scopeAt? s c).bind (·.lookup name)

/-! ### Strings -/

/-- Whether a type is that of strings. -/
def isStringType (t : TypeRef) : Bool :=
  t.rank == 0 && ["string", "String", "System.String"].contains t.name

/-- Whether a string literal occurs in an expression. -/
def containsString (e : Node) : Bool :=
  e.nodes.any fun
    | .literal _ .string _ => true
    | _ => false

/-- Names that are usually those of strings. -/
def stringNames : List String :=
  ["str", "result", "output", "text", "content", "message", "html", "sql", "line"]

/-- Whether a name looks like that of a string. -/
def looksLikeString (name : String) : Bool :=
  stringNames.contains (Text.lowered name) || name.startsWith "str" || name.endsWith "Str"
    || name.endsWith "Text"

/-- Whether a variable to which a value is appended holds a string: by its written type, else by the
value, else by its name. -/
def isStringVariable (s : Session) (c : Cursor) (name : String) (appended : Node) : Bool :=
  match (localIn? s c name).bind (·.type) with
  | some t => isStringType t
  | none => containsString appended || looksLikeString name

/-- What to do about strings joined in a loop. -/
def stringConcatAdvice : String :=
  "Use a StringBuilder for repeated concatenation:\n\nvar builder = new StringBuilder();\n"
    ++ "foreach (var item in items)\n\x7b\n    builder.Append(item);\n\x7d\n"
    ++ "var result = builder.ToString();\n\nThis is O(n) instead of O(n²) copying."

/-- The operator by which an assignment appends to a string, if it does. -/
def appendOperator? (s : Session) (c : Cursor) : Node → Option String
  | .assign _ op lhs rhs => do
    let name ← lhs.identName?
    match op with
    | "+=" => if isStringVariable s c name rhs then some "+=" else none
    | "=" => match rhs.unparen with
      | .binary _ "+" x y =>
        if x.identName? == some name && isStringVariable s c name y then some "+" else none
      | _ => none
    | _ => none
  | _ => none

/-- Strings joined in a loop. -/
def stringConcat : Rule := .stateless "string_concat_in_loop" fun s c =>
  if !c.inLoop then []
  else (appendOperator? s c c.node).toList.map fun op =>
    { s.finding .stringConcatLoop c.node.span
        s!"String concatenation using {op} in loop - creates a new string on each iteration" with
      symbol := c.member
      suggestion := stringConcatAdvice }

/-! ### Allocations -/

/-- Types whose objects are usually made once and used again. -/
def heavyTypes : List String :=
  ["List", "Dictionary", "HashSet", "SortedDictionary", "SortedSet", "Queue", "Stack",
   "LinkedList", "StringBuilder", "MemoryStream", "Regex", "HttpClient", "Random"]

/-- What to do about arrays made in a loop. -/
def arrayAdvice : String :=
  "Allocate the buffer once before the loop, or rent one:\n\n"
    ++ "var buffer = ArrayPool<byte>.Shared.Rent(size);\n"
    ++ "try \x7b /* use buffer */ \x7d finally \x7b ArrayPool<byte>.Shared.Return(buffer); \x7d"

/-- What to do about objects of a type made in a loop. -/
def allocationAdvice : String → String
  | "Regex" => "Store the Regex in a static readonly field so the pattern is parsed once"
  | "HttpClient" => "Reuse a single HttpClient (or IHttpClientFactory); "
      ++ "a client per iteration exhausts sockets"
  | "Random" => "Create one Random before the loop or use Random.Shared"
  | name => s!"Move the {name} out of the loop and call Clear() between iterations"

/-- Arrays and heavy objects made in a loop, except to be thrown. -/
def allocation : Rule := .stateless "allocation_in_loop" fun s c =>
  let thrown := match c.parent with
    | some (.throwStmt ..) | some (.throwExpr ..) => true
    | _ => false
  let found (what advice : String) :=
    [{ s.finding .allocationInLoop c.node.span s!"Memory allocation ({what}) inside loop" with
      symbol := c.member, suggestion := advice }]
  match c.node with
  | .newExpr _ (some t) _ _ sizes =>
    let name := lastSegment t.name
    if !c.inLoop || thrown then []
    else if !sizes.isEmpty then found s!"new {t.name}[]" arrayAdvice
    else if heavyTypes.contains name then found s!"new {name}" (allocationAdvice name)
    else []
  | _ => []

/-! ### Searches -/

/-- Methods that look at one element after the other. -/
def searchMethods : List String := ["Contains", "IndexOf", "LastIndexOf", "Remove"]

/-- Types whose elements are found by looking at one after the other. -/
def listTypes : List String :=
  ["List", "IList", "ICollection", "IEnumerable", "Collection", "ArrayList", "LinkedList"]

/-- Whether elements of a type are found by looking at one after the other. -/
def isListType (t : TypeRef) : Bool := t.rank > 0 || listTypes.contains (lastSegment t.name)

/-- What to do about searches in a loop. -/
def searchAdvice (name : String) : String :=
  s!"Build a HashSet once and look up in O(1):\n\nvar {name}Set = new HashSet<T>({name});\n"
    ++ s!"foreach (var item in items)\n\x7b\n    if ({name}Set.Contains(item)) \x7b ... \x7d\n"
    ++ "\x7d\n\nThe preprocessing cost is amortized over every lookup."

/-- Searches of lists in a loop. -/
def linearSearch : Rule := .stateless "linear_search_in_loop" fun s c =>
  match c.node with
  | .invocation span (.memberAccess _ x method _ _) _ =>
    match x.identName? with
    | none => []
    | some name =>
      let searched := ((localIn? s c name).bind (·.type)).any isListType
      if c.inLoop && searchMethods.contains method && searched then
        [{ s.finding .collectionUsage span
            s!"Linear search '{name}.{method}' inside loop - O(n) per iteration" with
          symbol := c.member
          suggestion := searchAdvice name }]
      else []
  | _ => []

/-- Whether two values are compared in a loop body, nested functions aside. -/
def comparesForEquality (body : Node) : Bool :=
  let enter (v : Visit Unit) : Option Unit := match v.node with
    | .lambda .. | .localFunc .. => none
    | _ => some ()
  (body.visits enter ()).any fun v => match v.node with
    | .binary _ "==" _ _ => true
    | _ => false

/-- What to do about nested searches. -/
def nestedSearchAdvice (depth : Nat) : String :=
  if depth == 2 then
    "Consider a Dictionary or HashSet for O(1) lookups instead of nested iteration. "
      ++ "Pre-process the inner collection into a keyed structure"
  else
    "Use binary search if the data is sorted. Profile this code section to measure the actual cost"

/-- Loops over a collection inside other loops that compare its elements. -/
def nestedSearch : Rule := .stateless "nested_linear_search" fun s c =>
  match c.node with
  | .foreachStmt span _ _ _ collection body _ =>
    if c.loops < 2 || !comparesForEquality body then []
    else
      let name := collection.identName?.getD "collection"
      [{ s.finding .collectionUsage span
          s!"Nested loop searches '{name}' linearly - O(n^{c.loops}) complexity" with
        symbol := c.member
        suggestion := nestedSearchAdvice c.loops }]
  | _ => []

/-! ### Growing collections -/

/-- Types whose objects can be told how large they will become. -/
def growableTypes : List String :=
  ["List", "Dictionary", "HashSet", "StringBuilder", "Queue", "Stack"]

/-- What to do about a collection that grows in a loop. -/
def growthAdvice (name : String) : String :=
  s!"Pass the expected size to the constructor:\n\nvar {name} = new List<T>(items.Count);\n"
    ++ s!"foreach (var item in items)\n\x7b\n    {name}.Add(item);\n\x7d"

/-- A local of a member, by the key of the scope and its name. -/
abbrev LocalRef := String × String

/-- The local that a name refers to, as a reference. -/
def localRef? (s : Session) (c : Cursor) (name : String) : Option LocalRef := do
  let scope ← scopeAt? s c
  let found ← scope.lookup name
  return (scope.key, found.name)

/-- Which locals hold collections of unknown size, and which were reported. -/
structure Growth where
  growable : List LocalRef := []
  reported : List LocalRef := []

/-- Whether a new object is a collection without size and elements. -/
def isEmptyCollection : Node → Bool
  | .newExpr _ (some t) [] [] _ => growableTypes.contains (lastSegment t.name)
  | _ => false

/-- Collections that grow in a loop, each reported once. -/
def collectionGrowth : Rule where
  id := "collection_growth"
  State := Growth
  start := {}
  visit s g c :=
    match c.node with
    | .localDecl _ _ _ _ vars =>
      let fresh := vars.filterMap fun v =>
        if v.init.any isEmptyCollection then localRef? s c v.name else none
      ({ g with growable := fresh ++ g.growable }, [])
    | .invocation span (.memberAccess _ x method _ _) _ =>
      match x.identName? with
      | none => (g, [])
      | some name =>
        match localRef? s c name with
        | none => (g, [])
        | some r =>
          if c.inLoop && (method == "Add" || method == "Append") && g.growable.contains r
              && !g.reported.contains r then
            ({ g with reported := r :: g.reported },
              [{ s.finding .collectionUsage span (s!"'{name}' grows inside a loop without an "
                  ++ "initial capacity - may cause repeated reallocations") with
                symbol := c.member
                suggestion := growthAdvice name }])
          else (g, [])
    | _ => (g, [])

end CSharpAudit.Rules
