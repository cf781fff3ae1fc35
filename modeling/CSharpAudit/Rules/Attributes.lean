import CSharpAudit.Pipeline.Session
import CSharpAudit.Syntax.Expression
import CSharpAudit.Syntax.Member

/-!
# Repeated attributes

An attribute may be given once only, unless it is known to allow more or is declared so in the file.

## Main definitions

* `Rules.attributeName` — the name of an attribute in its short form
* `Rules.repeatable` — the attributes of the file that may be repeated
* `Rules.attributes` — attributes that are repeated without leave
-/

namespace CSharpAudit.Rules

/-- The name of an attribute without qualification and without the word `Attribute` behind it. -/
def attributeName (name : String) : String :=
  let name := lastSegment name
  let short := (name.dropSuffix "Attribute").toString
  if short.isEmpty then name else short

/-- Attributes of frameworks that may be repeated. -/
def knownRepeatable : List String :=
  ["InlineData", "TestCase", "DataRow", "Route", "ProducesResponseType", "SuppressMessage",
   "InternalsVisibleTo", "Authorize", "JsonDerivedType", "ServiceFilter", "TypeFilter",
   "Conditional", "Category", "Trait"]

/-- Whether an argument allows an attribute to be repeated. -/
def allowsMultiple (a : Argument Node) : Bool :=
  match a.value with
  | .assign _ _ lhs (.literal _ _ value) =>
    lhs.identName? == some "AllowMultiple" && value == "true"
  | _ => false

/-- The attributes declared in a file that may be repeated. -/
def repeatable (u : CompilationUnit Node) : List String :=
  (u.types.filter fun t => t.attributes.any fun a =>
    attributeName a.name == "AttributeUsage" && a.args.any allowsMultiple).map
      (attributeName ·.name)

/-- The attributes of one declaration that are repeated without leave. -/
def repeatedAttributes (s : Session) (allowed : List String) (as : List (Attribute Node)) :
    List Diagnostic :=
  let strict := as.filter fun a =>
    !knownRepeatable.contains (attributeName a.name) && !allowed.contains (attributeName a.name)
  (repeats [] strict).map fun a =>
    let name := attributeName a.name
    s.finding .duplicateAttr a.span s!"Attribute '{name}' is applied more than once"
where
  /-- The attributes whose target and name occur before them. -/
  repeats (seen : List (String × String)) : List (Attribute Node) → List (Attribute Node)
    | [] => []
    | a :: as =>
      let key := (a.target, attributeName a.name)
      if seen.contains key then a :: repeats seen as else repeats (key :: seen) as

/-- The attributes that stand at a node. -/
def attributesAt : Node → List (Attribute Node)
  | .param p => p.attributes
  | .enumMember _ _ as _ => as
  | n => n.attributes

/-- Repeated attributes of a file. -/
def attributes (u : CompilationUnit Node) (s : Session) : List Diagnostic :=
  let allowed := repeatable u
  repeatedAttributes s allowed u.attributes
    ++ (Node.unit u).nodes.flatMap fun n => repeatedAttributes s allowed (attributesAt n)

end CSharpAudit.Rules
