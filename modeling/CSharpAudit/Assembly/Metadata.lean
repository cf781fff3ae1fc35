import CSharpAudit.Assembly.TypeName
import CSharpAudit.Text.Utf8

/-!
# Metadata

The metadata of an assembly is a root that lists streams. One stream holds tables, another the texts
that they refer to; the table of type definitions tells which types there are.

The tables stand one after the other, so where a table begins depends on the number of rows of those
before it and on the widths of their columns. A column that refers to a heap is wide if the header
says so, one that refers to rows of other tables if one of them is long. All numbers are
little-endian words.

## Main definitions

* `Bytes.value`, `Bytes.word?` — what a word stands for, and the word at the head of some bytes
* `Bytes.region?` — a part of a byte list
* `Metadata.streams` — the streams of a root
* `Metadata.TableHeader` — what the header of the tables says
* `Metadata.publicTypes` — the public types of the table of type definitions
* `decodeMetadata` — the public types of a root
-/

/-! ### Words in byte lists -/

namespace CSharpAudit.Bytes

/-- The number that a word stands for, its lowest byte first. -/
def value : List UInt8 → Nat
  | [] => 0
  | b :: bs => b.toNat + 256 * value bs

/-- The word of so many bytes at the head of a byte list, and what follows it. -/
def word? (width : Nat) (bs : List UInt8) : Option (Nat × List UInt8) :=
  if bs.length < width then none else some (value (bs.take width), bs.drop width)

/-- The word of so many bytes at an offset. -/
def wordAt (width offset : Nat) (bs : List UInt8) : Nat := value ((bs.drop offset).take width)

/-- So many bytes from an offset on, if all are there. -/
def region? (bs : List UInt8) (offset size : Nat) : Option (List UInt8) :=
  if offset + size ≤ bs.length then some ((bs.drop offset).take size) else none

/-- The bytes before the first zero byte, if there is one. -/
def beforeZero? (bs : List UInt8) : Option (List UInt8) :=
  if bs.contains 0 then some (bs.takeWhile (· != 0)) else none

/-- The text before the first zero byte, the whole text if there is none. -/
def untilZero (bs : List UInt8) : String := Text.Utf8.text (bs.takeWhile (· != 0))

end CSharpAudit.Bytes

namespace CSharpAudit

namespace Metadata

/-! ### Streams -/

/-- The signature at the head of a root. -/
def signature : List UInt8 := [0x42, 0x53, 0x4A, 0x42]

/-- The streams that `count` headers list. Names are padded to a multiple of four bytes, with a zero
byte at least. -/
def streamsFrom (root : List UInt8) : Nat → List UInt8 →
    Except MetadataFault (List (String × List UInt8))
  | 0, _ => .ok []
  | count + 1, rest => do
    if rest.length < 8 then throw .truncatedStreamHeader
    let offset := Bytes.wordAt 4 0 rest
    let size := Bytes.wordAt 4 4 rest
    match Bytes.beforeZero? (rest.drop 8) with
    | none => throw .unterminatedStreamName
    | some bytes =>
      let name := Text.Utf8.text bytes
      match Bytes.region? root offset size with
      | none => throw (.streamOutOfRange name)
      | some content =>
        let others ← streamsFrom root count (rest.drop (8 + (bytes.length + 4) / 4 * 4))
        return (name, content) :: others

/-- The streams of a root, in the order of their headers. -/
def streams (root : List UInt8) : Except MetadataFault (List (String × List UInt8)) := do
  if root.length < 16 || root.take 4 != signature then throw .missingSignature
  let version := Bytes.wordAt 4 12 root
  let rest := root.drop (16 + version)
  if rest.length < 4 then throw .truncatedRoot
  streamsFrom root (Bytes.wordAt 2 2 rest) (rest.drop 4)

/-- The stream of a name; of several the last counts. -/
def stream? (name : String) (ss : List (String × List UInt8)) : Option (List UInt8) :=
  ss.reverse.lookup name

/-! ### Tables -/

/-- A table that matters for the place of the type definitions. -/
inductive TableKind where
  | module | typeRef | typeDef | field | method | moduleRef | typeSpec | assemblyRef
  deriving DecidableEq, Repr, Inhabited

/-- The number of a table. -/
def TableKind.number : TableKind → Nat
  | module => 0x00
  | typeRef => 0x01
  | typeDef => 0x02
  | field => 0x04
  | method => 0x06
  | moduleRef => 0x1A
  | typeSpec => 0x1B
  | assemblyRef => 0x23

/-- What the header of the tables says. -/
structure TableHeader where
  wideTexts : Bool
  wideGuids : Bool
  /-- The numbers of rows of the tables that are present. -/
  rowCounts : List (Nat × Nat)
  deriving Repr

namespace TableHeader

/-- The number of rows of a table. -/
def rows (h : TableHeader) (t : TableKind) : Nat := (h.rowCounts.lookup t.number).getD 0

/-- The width of a reference to a heap. -/
def heapWidth (wide : Bool) : Nat := if wide then 4 else 2

/-- The width of a reference to a text. -/
def textWidth (h : TableHeader) : Nat := heapWidth h.wideTexts

/-- The width of a reference to a row of one of some tables, of which `tagBits` bits tell which. -/
def rowWidth (h : TableHeader) (tagBits : Nat) (tables : List TableKind) : Nat :=
  if tables.any fun t => h.rows t ≥ 1 <<< (16 - tagBits) then 4 else 2

/-- The size of a row of the table of modules. -/
def moduleSize (h : TableHeader) : Nat := 2 + h.textWidth + 3 * heapWidth h.wideGuids

/-- The size of a row of the table of references to types. -/
def typeRefSize (h : TableHeader) : Nat :=
  h.rowWidth 2 [.module, .moduleRef, .assemblyRef, .typeRef] + 2 * h.textWidth

/-- The size of all tables before that of type definitions. -/
def sizeBeforeTypes (h : TableHeader) : Nat :=
  h.rows .module * h.moduleSize + h.rows .typeRef * h.typeRefSize

/-- The size of the columns of a type definition behind its name and namespace. -/
def typeTailSize (h : TableHeader) : Nat :=
  h.rowWidth 2 [.typeDef, .typeRef, .typeSpec] + h.rowWidth 0 [.field] + h.rowWidth 0 [.method]

end TableHeader

/-- The numbers of rows of the tables with the given numbers, and what follows. -/
def rowCounts : List Nat → List UInt8 → Except MetadataFault (List (Nat × Nat) × List UInt8)
  | [], rest => .ok ([], rest)
  | t :: ts, rest => match Bytes.word? 4 rest with
    | none => .error .truncatedTable
    | some (n, rest) => do
      let (counts, rest) ← rowCounts ts rest
      return ((t, n) :: counts, rest)

/-- The header of the tables and the rows behind it. -/
def tableHeader (tables : List UInt8) : Except MetadataFault (TableHeader × List UInt8) := do
  if tables.length < 24 then throw .shortTables
  let flags := Bytes.wordAt 1 6 tables
  let present := Bytes.wordAt 8 8 tables
  let (counts, rest) ← rowCounts ((List.range 64).filter present.testBit) (tables.drop 24)
  let header : TableHeader := ⟨flags.testBit 0, flags.testBit 1, counts⟩
  return (header, rest.drop (if flags.testBit 6 then 4 else 0))

/-! ### Type definitions -/

/-- A type definition: its flags and where its name and namespace stand. -/
structure TypeRow where
  flags : Nat
  name : Nat
  namespaceName : Nat
  deriving DecidableEq, Repr, Inhabited

/-- Whether a type is public and stands in no other. -/
def TypeRow.isPublic (r : TypeRow) : Bool := r.flags % 8 == 1

/-- The first columns of a type definition, and what follows them. -/
def typeRow (h : TableHeader) (rest : List UInt8) :
    Except MetadataFault (TypeRow × List UInt8) :=
  match Bytes.word? 4 rest with
  | none => .error .truncatedTable
  | some (flags, rest) => match Bytes.word? h.textWidth rest with
    | none => .error .truncatedTable
    | some (name, rest) => match Bytes.word? h.textWidth rest with
      | none => .error .truncatedTable
      | some (namespaceName, rest) => .ok (⟨flags, name, namespaceName⟩, rest)

/-- The text at an index of the heap. -/
def heapText (heap : List UInt8) (index : Nat) : Except MetadataFault String :=
  if index > heap.length then .error (.stringOutOfRange index)
  else match Bytes.beforeZero? (heap.drop index) with
    | none => .error (.unterminatedString index)
    | some bytes => .ok (Text.Utf8.text bytes)

/-- A name without its number of type parameters, which follows a backquote; a name that begins with
a backquote has none. -/
def withoutArity (name : String) : String :=
  match name.toList with
  | [] => ""
  | '`' :: _ => name
  | cs => String.ofList (cs.takeWhile (· != '`'))

/-- The public types of so many type definitions. -/
def publicTypes (h : TableHeader) (heap : List UInt8) : Nat → List UInt8 →
    Except MetadataFault (List TypeName)
  | 0, _ => .ok []
  | count + 1, rest => do
    let (row, rest) ← typeRow h rest
    let next := rest.drop h.typeTailSize
    if row.isPublic then
      let name ← heapText heap row.name
      let namespaceName ← heapText heap row.namespaceName
      return ⟨namespaceName, withoutArity name⟩ :: (← publicTypes h heap count next)
    else publicTypes h heap count next

end Metadata

open Metadata in
/-- The public types of a metadata root. -/
def decodeMetadata (root : List UInt8) : Except MetadataFault (List TypeName) := do
  let ss ← streams root
  match (stream? "#~" ss).or (stream? "#-" ss) with
  | none => throw .noTables
  | some tables =>
    let (header, rest) ← tableHeader tables
    publicTypes header ((stream? "#Strings" ss).getD []) (header.rows .typeDef)
      (rest.drop header.sizeBeforeTypes)

end CSharpAudit
