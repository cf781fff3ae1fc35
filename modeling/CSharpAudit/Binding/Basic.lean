import CSharpAudit.Syntax.Node
import CSharpAudit.Syntax.TypeRef
import CSharpAudit.Syntax.Walk

/-!
# Bindings of type references

A binding tells what a written type refers to. Some types of the framework are known without
looking.

## Main definitions

* `Binding` — what a type reference refers to
* `BoundRef` — a type reference with its place and its binding
* `BindingIndex` — the bindings of a file, in walk order
* `builtinType?` — the framework type that a keyword writes
* `isWellKnown` — framework types that are known by name
* `isReferenceType` — types whose values may not be null
-/

namespace CSharpAudit

/-- How a type reference was resolved. -/
inductive BindingKind where
  | source | external | builtin | typeParameter | unresolved
  deriving DecidableEq, Repr, Inhabited

/-- The word that names a kind of binding. -/
def BindingKind.word : BindingKind → String
  | .source => "source"
  | .external => "external"
  | .builtin => "builtin"
  | .typeParameter => "type_parameter"
  | .unresolved => "unresolved"

/-- What a type reference refers to. -/
structure Binding where
  kind : BindingKind
  /-- The full name of the type. -/
  target : String
  /-- The number of the symbol, for a type of the same file. -/
  symbol : Nat := 0
  deriving DecidableEq, Repr, Inhabited

/-- A type reference with its place and its binding. -/
structure BoundRef where
  address : Address
  ref : TypeRef
  binding : Binding

/-- The bindings of a file, in walk order. -/
structure BindingIndex where
  refs : List BoundRef := []
  deriving Inhabited

namespace BindingIndex

/-- The binding of the reference at an address. -/
def lookup (b : BindingIndex) (address : Address) : Option Binding :=
  (b.refs.find? (·.address == address)).map (·.binding)

/-- The references that could not be resolved. -/
def unresolved (b : BindingIndex) : List TypeRef :=
  (b.refs.filter (·.binding.kind == .unresolved)).map (·.ref)

end BindingIndex

/-! ### Types known without looking -/

/-- The framework type that a type keyword writes. -/
def builtinType? : String → Option String
  | "bool" => some "System.Boolean"
  | "byte" => some "System.Byte"
  | "sbyte" => some "System.SByte"
  | "char" => some "System.Char"
  | "decimal" => some "System.Decimal"
  | "double" => some "System.Double"
  | "float" => some "System.Single"
  | "int" => some "System.Int32"
  | "uint" => some "System.UInt32"
  | "nint" => some "System.IntPtr"
  | "nuint" => some "System.UIntPtr"
  | "long" => some "System.Int64"
  | "ulong" => some "System.UInt64"
  | "short" => some "System.Int16"
  | "ushort" => some "System.UInt16"
  | "object" => some "System.Object"
  | "string" => some "System.String"
  | "void" => some "System.Void"
  | "dynamic" => some "System.Object"
  | _ => none

/-- The framework types that are known without reading an assembly. -/
def wellKnownTypes : List String :=
  ["Object", "String", "Exception", "ArgumentException", "ArgumentNullException",
   "InvalidOperationException", "NotImplementedException", "NotSupportedException", "Task",
   "ValueTask", "IEnumerable", "IEnumerator", "IAsyncEnumerable", "List", "Dictionary", "HashSet",
   "IList", "ICollection", "IDictionary", "IReadOnlyList", "IReadOnlyCollection",
   "IReadOnlyDictionary", "Queue", "Stack", "Func", "Action", "Predicate", "EventHandler",
   "EventArgs", "IDisposable", "IAsyncDisposable", "IComparable", "IEquatable", "Attribute",
   "AttributeUsage", "Obsolete", "Serializable", "Nullable", "Span", "ReadOnlySpan", "Memory",
   "StringBuilder", "CancellationToken", "DateTime", "TimeSpan", "Guid", "Type", "Console", "Math",
   "Enum", "Array", "Tuple", "ValueTuple", "Lazy", "Random", "Thread", "Stream", "TextWriter",
   "TextReader", "Encoding", "Regex", "Uri", "KeyValuePair", "IServiceProvider", "ILogger",
   "HttpClient", "JsonSerializer"]

/-- Whether a simple name is that of a well-known framework type. -/
def isWellKnown (name : String) : Bool := wellKnownTypes.contains name

/-- The well-known framework types that are reference types. -/
def wellKnownReferences : List String :=
  ["String", "Object", "List", "Dictionary", "HashSet", "IEnumerable", "IList", "ICollection",
   "IDictionary", "Exception", "StringBuilder", "Task", "Func", "Action", "Stream", "Uri", "Type",
   "Regex", "HttpClient", "Queue", "Stack"]

/-- The words that stand for a type in a constraint clause. -/
def constraintWords : List String := ["new()", "class", "struct", "default", "notnull", "unmanaged"]

/-- Whether a written type is a reference type that does not admit null. `kindOf` gives the kind of
a type of the same file. -/
def isReferenceType (t : TypeRef) (kindOf : String → Option TypeKind) : Bool :=
  if t.nullable || t.pointer then false
  else if t.rank > 0 then true
  else if ["string", "object", "dynamic"].contains t.name then true
  else if (builtinType? t.name).isSome then false
  else match kindOf t.name with
    | some kind => [TypeKind.classType, .interface, .record].contains kind
    | none => wellKnownReferences.contains t.simpleName

end CSharpAudit
