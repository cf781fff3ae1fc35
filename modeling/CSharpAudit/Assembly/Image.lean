import CSharpAudit.Assembly.Metadata

/-!
# Images

An assembly is an image: headers, a list of data directories, and sections that are mapped to
addresses. One of the directories tells where the metadata is.

Symbols and relocations do not matter for the types, but an image in which they cannot be read is
refused.

## Main definitions

* `Image` — the directories and sections of an image
* `Image.parse?` — the image of a file
* `Image.read` — the bytes at an address
* `readTypes` — the public types of an assembly
-/

namespace CSharpAudit

/-- A part of an image. -/
structure Section where
  name : String
  /-- The address that the section is mapped to. -/
  address : Nat
  virtualSize : Nat
  /-- The number of bytes in the file. -/
  size : Nat
  /-- Where the bytes stand in the file; nowhere if zero. -/
  offset : Nat
  deriving Repr, Inhabited

/-- The directories, each an address and a size, and the sections of an image. -/
structure Image where
  directories : List (Nat × Nat)
  sections : List Section
  deriving Repr, Inhabited

namespace Section

/-- Whether a section is mapped to an address. -/
def covers (s : Section) (address : Nat) : Bool :=
  s.address ≤ address && address - s.address < max s.virtualSize s.size

/-- The bytes of a section, if the file has all of them. -/
def content? (s : Section) (file : List UInt8) : Option (List UInt8) :=
  if s.size == 0 then some []
  else if s.offset == 0 then none
  else Bytes.region? file s.offset s.size

end Section

namespace Image

/-- The machines that images may be made for; zero stands for any. -/
def machines : List Nat :=
  [0, 0x14C, 0x1C4, 0x8664, 0xAA64, 0x5032, 0x5064, 0x5128]

/-- The size of the file header. -/
def headerSize : Nat := 20

/-- Where the file header begins: behind the signature that the first header refers to, or at the
beginning if there is no such header. -/
def start? (file : List UInt8) : Option Nat :=
  if file.length < 96 then none
  else if file.take 2 == [0x4D, 0x5A] then
    let place := Bytes.wordAt 4 0x3C file
    if (file.drop place).take 4 == [0x50, 0x45, 0, 0] then some (place + 4) else none
  else some 0

/-- The table of long names, which follows the symbols; it begins with its own size. -/
def longNames? (file header : List UInt8) : Option (List UInt8) :=
  let symbols := Bytes.wordAt 4 8 header
  if symbols == 0 then some []
  else do
    let offset := (symbols + 18 * Bytes.wordAt 4 12 header) % 0x100000000
    let size ← Bytes.region? file offset 4
    if Bytes.value size ≤ 4 then some []
    else Bytes.region? file (offset + 4) (Bytes.value size - 4)

/-- A long name; its offset counts the size at the head of the table. -/
def longName? (names : List UInt8) (offset : Nat) : Option String :=
  if offset < 4 || offset - 4 > names.length then none
  else some (Bytes.untilZero (names.drop (offset - 4)))

/-- Whether the name of a symbol can be read: it stands in the symbol, or its place among the long
names does behind four zeros. A symbol of zeros only has no name. -/
def isNamed (names symbol : List UInt8) : Bool :=
  let place := Bytes.wordAt 4 4 symbol
  Bytes.wordAt 4 0 symbol != 0 || place == 0 || (longName? names place).isSome

/-- Whether so many symbols can be read. Auxiliary symbols, of which `auxiliary` are still to come,
have no names. -/
def symbolsReadable (names : List UInt8) : (count auxiliary : Nat) → List UInt8 → Bool
  | 0, auxiliary, _ => auxiliary == 0
  | count + 1, auxiliary, rest =>
    if rest.length < 18 then false
    else if auxiliary > 0 then symbolsReadable names count (auxiliary - 1) (rest.drop 18)
    else isNamed names rest && symbolsReadable names count (Bytes.wordAt 1 17 rest) (rest.drop 18)

/-- The least size of the optional header and where the number of directories stands in it, by its
kind. -/
def optionalLayout? : Nat → Option (Nat × Nat)
  | 0x10B => some (96, 92)
  | 0x20B => some (112, 108)
  | _ => none

/-- So many directories. -/
def directoriesFrom : Nat → List UInt8 → List (Nat × Nat)
  | 0, _ => []
  | count + 1, rest =>
    (Bytes.wordAt 4 0 rest, Bytes.wordAt 4 4 rest) :: directoriesFrom count (rest.drop 8)

/-- The directories of an optional header of the given size; an image without one has none. -/
def directories? (file : List UInt8) (offset size : Nat) : Option (List (Nat × Nat)) :=
  if size == 0 then some []
  else if size < 2 then none
  else do
    let (least, place) ← optionalLayout? (Bytes.value (← Bytes.region? file offset 2))
    let header ← Bytes.region? file offset least
    let count := Bytes.wordAt 4 place header
    if size != least + 8 * count then none
    else
      let rest ← Bytes.region? file (offset + least) (8 * count)
      some (directoriesFrom count rest)

/-- A whole number with an optional sign. -/
def wholeNumber? (s : String) : Option Int :=
  let digits? (cs : List Char) : Option Nat :=
    if cs.isEmpty || !cs.all Char.isDigit then none
    else some (cs.foldl (fun n c => 10 * n + (c.toNat - 48)) 0)
  match s.toList with
  | '-' :: cs => (digits? cs).map fun n => -n
  | '+' :: cs => (digits? cs).map Int.ofNat
  | cs => (digits? cs).map Int.ofNat

/-- The name of a section: its first eight bytes, or a long name if they are a stroke and a
number. -/
def sectionName? (names header : List UInt8) : Option String :=
  let short := header.take 8
  if short.head? == some 0x2F then do
    let n ← wholeNumber? (Bytes.untilZero (short.drop 1))
    longName? names (n % 0x100000000).toNat
  else some (Bytes.untilZero short)

/-- The sections that so many headers describe. The relocations of each must be in the file. -/
def sectionsFrom? (file names : List UInt8) : Nat → List UInt8 → Option (List Section)
  | 0, _ => some []
  | count + 1, rest => do
    let header ← Bytes.region? rest 0 40
    let name ← sectionName? names header
    let relocations := Bytes.wordAt 2 32 header
    if relocations > 0 then
      let _ ← Bytes.region? file (Bytes.wordAt 4 24 header) (10 * relocations)
    let found : Section := ⟨name, Bytes.wordAt 4 12 header, Bytes.wordAt 4 8 header,
      Bytes.wordAt 4 16 header, Bytes.wordAt 4 20 header⟩
    return found :: (← sectionsFrom? file names count (rest.drop 40))

/-- The image of a file. -/
def parse? (file : List UInt8) : Option Image := do
  let start ← start? file
  let header ← Bytes.region? file start headerSize
  guard (machines.contains (Bytes.wordAt 2 0 header))
  let names ← longNames? file header
  let symbols := Bytes.wordAt 4 8 header
  let symbolCount := if symbols == 0 then 0 else Bytes.wordAt 4 12 header
  guard (symbolsReadable names symbolCount 0 (file.drop symbols))
  let optionalSize := Bytes.wordAt 2 16 header
  let directories ← directories? file (start + headerSize) optionalSize
  let sections ← sectionsFrom? file names (Bytes.wordAt 2 2 header)
    (file.drop (start + headerSize + optionalSize))
  return { directories, sections }

/-- So many bytes at an address, from the first section that is mapped to it. -/
def read (image : Image) (file : List UInt8) (address size : Nat) :
    Except AssemblyError (List UInt8) :=
  match image.sections.find? (·.covers address) with
  | none => .error (.malformed (.unmapped address))
  | some s => match s.content? file with
    | none => .error .notImage
    | some content => match Bytes.region? content (address - s.address) size with
      | none => .error (.malformed (.outOfSection address s.name))
      | some bytes => .ok bytes

/-- The number of the directory that tells where the metadata is. -/
def metadataDirectory : Nat := 14

/-- The metadata root of an image. A first header, found through the directories, tells where it
is. -/
def metadataRoot (image : Image) (file : List UInt8) : Except AssemblyError (List UInt8) := do
  match image.directories[metadataDirectory]? with
  | none | some (0, _) => throw .notManaged
  | some (address, size) =>
    let header ← image.read file address size
    if header.length < 16 then throw (.malformed .shortHeader)
    image.read file (Bytes.wordAt 4 8 header) (Bytes.wordAt 4 12 header)

end Image

/-- The public types of an assembly. -/
def readTypes (file : List UInt8) : Except AssemblyError (List TypeName) := do
  match Image.parse? file with
  | none => throw .notImage
  | some image => (decodeMetadata (← image.metadataRoot file)).mapError .malformed

end CSharpAudit
