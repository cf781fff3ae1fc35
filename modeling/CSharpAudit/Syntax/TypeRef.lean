import CSharpAudit.Source.Position
import CSharpAudit.Text.CharSet

/-!
# Type references

A type reference is a type as it is written in source text: a dotted name, type arguments, and the
nullable, array and pointer marks behind it.

## Main definitions

* `TypeRef` — a written type
* `TypeRef.text` — the type in normal spelling
* `TypeRef.simpleName` — the last dotted segment of the name
-/

namespace CSharpAudit

/-- The text behind the last dot of a dotted name, or the whole name when it has no dot. -/
def lastSegment (name : String) : String := (Text.cutAt '.' name).getLast?.getD name

/-- A reference to a type as written in source text. -/
structure TypeRef where
  span : Span
  /-- The dotted name without type arguments; a tuple type has the name `(tuple)`. -/
  name : String
  args : List TypeRef := []
  nullable : Bool := false
  /-- The number of bracket pairs written behind the name. -/
  rank : Nat := 0
  pointer : Bool := false
  /-- The element names of a tuple type, parallel to `args`; an unnamed element has none. -/
  tupleNames : List String := []
  deriving Repr, Inhabited

namespace TypeRef

/-- The name that every tuple type carries. -/
def tupleName : String := "(tuple)"

/-- The reference that stands for an omitted type argument. -/
def omitted : TypeRef := { span := Span.none, name := "" }

def isTuple (t : TypeRef) : Bool := t.name == tupleName

/-- Whether the reference is a bare name, without arguments or marks. -/
def isBare (t : TypeRef) : Bool :=
  t.args.isEmpty && !t.nullable && t.rank == 0

/-- The last dotted segment of the name. -/
def simpleName (t : TypeRef) : String := lastSegment t.name

mutual

/-- A type in normal spelling: name and arguments, then the pointer mark, the nullable mark and one
bracket pair for each rank. Element names of tuples are not written. -/
def text : TypeRef → String
  | ⟨_, name, args, nullable, rank, pointer, _⟩ =>
    (if name == tupleName then "(" ++ ", ".intercalate (texts args) ++ ")"
     else if args.isEmpty then name
     else name ++ "<" ++ ", ".intercalate (texts args) ++ ">")
    ++ (if pointer then "*" else "")
    ++ (if nullable then "?" else "")
    ++ String.join (List.replicate rank "[]")

/-- The normal spellings of some types. -/
def texts : List TypeRef → List String
  | [] => []
  | t :: ts => text t :: texts ts

end

theorem texts_eq_map (ts : List TypeRef) : texts ts = ts.map text := by
  induction ts with
  | nil => simp [texts]
  | cons t ts ih => simp [texts, ih]

end TypeRef

end CSharpAudit
