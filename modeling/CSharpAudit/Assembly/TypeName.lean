import CSharpAudit.Syntax.Declarations

/-!
# Types of assemblies

An assembly tells the names of its types, unless it cannot be read.

## Main definitions

* `TypeName` — the name of a type in an assembly
* `AssemblyTypes` — the public types of the assemblies that can be read
* `MetadataFault` — what is wrong with metadata
* `AssemblyError` — why the types of an assembly cannot be read
* `MetadataFault.message`, `AssemblyError.message?` — how it is told
-/

namespace CSharpAudit

/-- The name of a type in an assembly. -/
structure TypeName where
  namespaceName : String
  name : String
  deriving DecidableEq, Repr, Inhabited

/-- The full name. -/
def TypeName.text (t : TypeName) : String := DeclPath.dotted t.namespaceName t.name

/-- The public types of the assembly at a path, nothing if it cannot be read. -/
abbrev AssemblyTypes := String → Option (List TypeName)

/-! ### Unreadable assemblies -/

/-- What is wrong with metadata. -/
inductive MetadataFault where
  | shortHeader
  | unmapped (address : Nat)
  | outOfSection (address : Nat) (section_ : String)
  | missingSignature
  | truncatedRoot
  | truncatedStreamHeader
  | unterminatedStreamName
  | streamOutOfRange (stream : String)
  | noTables
  | shortTables
  | truncatedTable
  | stringOutOfRange (index : Nat)
  | unterminatedString (index : Nat)
  deriving DecidableEq, Repr, Inhabited

/-- Why the types of an assembly cannot be read. -/
inductive AssemblyError where
  /-- The file is no image or ends too early. -/
  | notImage
  /-- The image holds no metadata. -/
  | notManaged
  /-- The metadata is malformed. -/
  | malformed (fault : MetadataFault)
  deriving DecidableEq, Repr, Inhabited

namespace MetadataFault

/-- An address in hexadecimal digits. -/
def hex (n : Nat) : String := "0x" ++ String.ofList (Nat.toDigits 16 n)

/-- What is wrong, in words. -/
def detail : MetadataFault → String
  | shortHeader => "short CLI header"
  | unmapped a => "rva " ++ hex a ++ " not mapped"
  | outOfSection a s => "rva " ++ hex a ++ " out of section " ++ s
  | missingSignature => "missing BSJB signature"
  | truncatedRoot => "truncated metadata root"
  | truncatedStreamHeader => "truncated stream header"
  | unterminatedStreamName => "unterminated stream name"
  | streamOutOfRange s => "stream " ++ s ++ " out of range"
  | noTables => "no tables stream"
  | shortTables => "short tables header"
  | truncatedTable => "truncated table"
  | stringOutOfRange i => s!"string index {i} out of range"
  | unterminatedString i => s!"unterminated string at {i}"

/-- How a fault is told. -/
def message (f : MetadataFault) : String := "malformed metadata: " ++ f.detail

end MetadataFault

/-- How it is told that the types of the assembly at a path cannot be read; nothing is told of files
that are no images. -/
def AssemblyError.message? (path : String) : AssemblyError → Option String
  | .notImage => none
  | .notManaged => some ("read " ++ path ++ ": not a managed assembly")
  | .malformed f => some ("read " ++ path ++ ": " ++ f.message)

end CSharpAudit
