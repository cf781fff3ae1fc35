import Mathlib
import CSharpAudit.Assembly.Metadata
import CSharpAudit.Proofs.Utf8

/-!
# Metadata as it is written

A metadata root is written stream by stream and a tables stream row by row, each column at the width
that the format prescribes for it. What is read from a root that is written so are the public type
definitions, whatever else the root holds.

A layout fixes all that the format leaves open: the version, the order and padding of the streams,
which tables there are and how long they are, the widths of the heaps, where in its heap a text
stands, and what the columns hold that nothing is read from.

## Main definitions

* `Bytes.word` — a number as a word
* `Metadata.HeapEntry` — a text that stands in a heap
* `Metadata.TablesLayout` — a tables stream, to be written by `TablesLayout.encode`
* `Metadata.RootLayout` — a metadata root, to be written by `RootLayout.encode`
* `Metadata.beforeArity` — a name up to its first backquote, or all of it if it begins with one

## Main results

* `Metadata.streams_encode` — the streams of a root that is written are read back
* `Metadata.tableHeader_encode` — so is the header of its tables
* `Metadata.decodeMetadata_encode` — the public types of a root that is written are read, in order
* `Metadata.decodeMetadata_quotedRoot` — a name with a backquote in front is not cut at another one

## References

Partition II of ECMA-335: the metadata root is II.24.2.1, the stream headers II.24.2.2, the tables
stream II.24.2.6, and the tables Module, TypeRef and TypeDef are II.22.30, II.22.38 and II.22.37.
-/

namespace CSharpAudit

namespace Bytes

variable {width n offset : Nat} {bs rest before content after : List UInt8}

/-- A number as a word of so many bytes, its lowest byte first. What does not fit is left out. -/
def word : Nat → Nat → List UInt8
  | 0, _ => []
  | width + 1, n => n.toUInt8 :: word width (n / 256)

@[simp] theorem length_word (width n : Nat) : (word width n).length = width := by
  induction width generalizing n with
  | zero => rfl
  | succ width ih => rw [word, List.length_cons, ih]

/-- A number that fits a word is the value of it. -/
theorem value_word (h : n < 256 ^ width) : value (word width n) = n := by
  induction width generalizing n with
  | zero =>
    have hn : n = 0 := by simpa using h
    rw [hn, word, value]
  | succ width ih =>
    have hdiv : n / 256 < 256 ^ width := Nat.div_lt_of_lt_mul (by rwa [← Nat.pow_succ'])
    have hlow : n.toUInt8.toNat = n % 256 := UInt8.toNat_ofNat'
    rw [word, value, ih hdiv, hlow]
    exact Nat.mod_add_div n 256

/-- A word that is written is read back. -/
theorem word?_append (h : n < 256 ^ width) (rest : List UInt8) :
    word? width (word width n ++ rest) = some (n, rest) := by
  have hlength : ¬ (word width n ++ rest).length < width := by simp
  rw [word?, if_neg hlength, List.take_left' (length_word width n),
    List.drop_left' (length_word width n), value_word h]

theorem wordAt_append (hbefore : before.length = offset) (h : n < 256 ^ width)
    (rest : List UInt8) : wordAt width offset (before ++ (word width n ++ rest)) = n := by
  rw [wordAt, List.drop_left' hbefore, List.take_left' (length_word width n), value_word h]

/-- A region is cut out at its offset. -/
theorem region?_append (before content after : List UInt8) :
    region? (before ++ (content ++ after)) before.length content.length = some content := by
  have hwithin : before.length + content.length ≤ (before ++ (content ++ after)).length := by
    simp only [List.length_append]
    omega
  rw [region?, if_pos hwithin, List.drop_left, List.take_left]

/-- A text ends at its zero byte. -/
theorem beforeZero?_append (h : 0 ∉ bs) (rest : List UInt8) :
    beforeZero? (bs ++ 0 :: rest) = some bs := by
  have hkeep : ∀ b ∈ bs, (b != 0) = true := by
    intro b hb
    simpa using fun hzero : b = 0 => h (hzero ▸ hb)
  rw [beforeZero?, if_pos (by simp), List.takeWhile_append_of_pos hkeep,
    List.takeWhile_cons_of_neg (by simp), List.append_nil]

end Bytes

namespace Metadata

/-! ### Texts -/

/-- A text that stands in a heap, with a zero byte behind it. -/
structure HeapEntry (heap : List UInt8) where
  index : Nat
  bytes : List UInt8
  zero_notMem : 0 ∉ bytes
  stands : bytes ++ [0] <+: heap.drop index

namespace HeapEntry

variable {heap : List UInt8}

theorem index_lt (e : HeapEntry heap) : e.index < heap.length := by
  have hle := e.stands.length_le
  simp only [List.length_append, List.length_singleton, List.length_drop] at hle
  omega

/-- A text that stands in a heap is read there. -/
theorem heapText_index (e : HeapEntry heap) :
    heapText heap e.index = .ok (Text.Utf8.text e.bytes) := by
  obtain ⟨rest, hrest⟩ := e.stands
  have hin : ¬ e.index > heap.length := Nat.not_lt.mpr (Nat.le_of_lt e.index_lt)
  rw [List.append_assoc, List.singleton_append] at hrest
  rw [heapText, if_neg hin, ← hrest, Bytes.beforeZero?_append e.zero_notMem]

end HeapEntry

/-- A backquote. -/
def backquote : UInt8 := 0x60

/-- A name up to its first backquote. A name whose first character is a backquote is left as it
is. -/
def beforeArity (name : List UInt8) : List UInt8 :=
  if name.idxOf backquote = 0 then name else name.take (name.idxOf backquote)

/-- A name that does not begin with a backquote is cut at the first one. -/
theorem beforeArity_cons {b : UInt8} (hb : b ≠ backquote) (bs : List UInt8) :
    beforeArity (b :: bs) = (b :: bs).takeWhile (· != backquote) := by
  have htake : ∀ cs : List UInt8,
      cs.take (cs.idxOf backquote) = cs.takeWhile (· != backquote) := by
    intro cs
    induction cs with
    | nil => rfl
    | cons c cs ih =>
      by_cases hc : c = backquote
      · simp [hc]
      · rw [List.idxOf_cons_ne _ hc, List.take_succ_cons, ih,
          List.takeWhile_cons_of_pos (by simpa using hc)]
  rw [beforeArity, if_neg (by rw [List.idxOf_cons_ne _ hb]; exact Nat.succ_ne_zero _), htake]

/-- The number of type parameters is cut off a text where it is cut off the bytes. -/
theorem withoutArity_text (name : List UInt8) :
    withoutArity (Text.Utf8.text name) = Text.Utf8.text (beforeArity name) := by
  have hquote : Char.ofNat backquote.toNat = '`' := rfl
  have hhead := Text.Utf8.head?_text_eq_iff (d := backquote) (by decide) (by decide) name
  have hcut := Text.Utf8.text_takeWhile_ne (d := backquote) (by decide) (by decide) name
  rw [hquote] at hhead hcut
  cases name with
  | nil => simp [withoutArity, beforeArity, Text.Utf8.text, Text.Utf8.pieces]
  | cons b bs =>
    apply String.toList_inj.mp
    by_cases hb : b = backquote
    · -- the text starts with a backquote as well, so nothing is cut off
      obtain ⟨cs, hcs⟩ := List.head?_eq_some_iff.mp (hhead.mpr (by rw [hb]; rfl))
      have hleft : withoutArity (Text.Utf8.text (b :: bs)) = Text.Utf8.text (b :: bs) := by
        simp only [withoutArity, hcs]
      have hright : beforeArity (b :: bs) = b :: bs := by
        rw [beforeArity, if_pos (by rw [hb, List.idxOf_cons_self])]
      rw [hleft, hright]
    · rw [beforeArity_cons hb, hcut, withoutArity]
      split
      case h_1 hnil => rw [hnil]; rfl
      case h_2 cs hcs =>
        rw [hcs] at hhead
        exact absurd (Option.some.inj (hhead.mp rfl)) hb
      case h_3 => exact String.toList_ofList

/-! ### Tables -/

/-- A row of the table of modules. -/
structure ModuleRow where
  generation : Nat
  name : Nat
  id : Nat
  editId : Nat
  baseId : Nat

/-- The columns of the row. -/
def ModuleRow.columns (r : ModuleRow) : List Nat := [r.generation, r.name, r.id, r.editId, r.baseId]

/-- A row of the table of references to types. -/
structure TypeRefRow where
  scope : Nat
  name : Nat
  namespaceName : Nat

/-- The columns of the row. -/
def TypeRefRow.columns (r : TypeRefRow) : List Nat := [r.scope, r.name, r.namespaceName]

/-- A row of the table of type definitions. -/
structure TypeDefRow (heap : List UInt8) where
  flags : UInt32
  name : HeapEntry heap
  namespaceName : HeapEntry heap
  base : Nat
  firstField : Nat
  firstMethod : Nat

namespace TypeDefRow

variable {heap : List UInt8}

/-- The columns of the row. -/
def columns (r : TypeDefRow heap) : List Nat :=
  [r.flags.toNat, r.name.index, r.namespaceName.index, r.base, r.firstField, r.firstMethod]

/-- Whether the type is public and stands in no other. -/
def isPublic (r : TypeDefRow heap) : Bool := r.flags &&& 7 == 1

/-- The name of the type. -/
def typeName (r : TypeDefRow heap) : TypeName :=
  ⟨Text.Utf8.text r.namespaceName.bytes, Text.Utf8.text (beforeArity r.name.bytes)⟩

end TypeDefRow

/-- The bytes of a row: its columns, each at its width. -/
def rowBytes (widths columns : List Nat) : List UInt8 :=
  (List.zipWith Bytes.word widths columns).flatten

/-- A row is as long as its columns are wide. -/
theorem length_rowBytes {widths columns : List Nat} (h : widths.length = columns.length) :
    (rowBytes widths columns).length = widths.sum := by
  induction widths generalizing columns with
  | nil => rfl
  | cons w ws ih =>
    cases columns with
    | nil => cases h
    | cons c cs =>
      have hrest : (rowBytes ws cs).length = ws.sum := ih (Nat.succ.inj h)
      simp only [rowBytes, List.zipWith_cons_cons, List.flatten_cons, List.length_append,
        Bytes.length_word, List.sum_cons] at hrest ⊢
      rw [hrest]

/-- The bytes of a table: its rows, one after the other. -/
def tableBytes {α : Type} (widths : List Nat) (columns : α → List Nat) (as : List α) : List UInt8 :=
  as.flatMap fun a => rowBytes widths (columns a)

/-- A table is as long as its rows. -/
theorem length_tableBytes {α : Type} (widths : List Nat) (columns : α → List Nat) (as : List α)
    (h : ∀ a, widths.length = (columns a).length) :
    (tableBytes widths columns as).length = as.length * widths.sum := by
  rw [tableBytes]
  induction as with
  | nil => simp
  | cons a as ih =>
    rw [List.flatMap_cons, List.length_append, length_rowBytes (h a), ih, List.length_cons,
      Nat.succ_mul, Nat.add_comm]

/-- What a tables stream holds. Numbers in columns that nothing is read from are arbitrary, and so
are the bytes behind the type definitions: rows of tables with greater numbers. -/
structure TablesLayout where
  reserved : Nat
  version : Nat
  /-- The widths of the heaps, and whether there is extra data. -/
  flags : UInt8
  reservedByte : Nat
  /-- Which tables there are, one bit for each. -/
  present : UInt64
  sorted : Nat
  /-- The numbers of rows of the tables other than the three that follow. -/
  otherRows : Nat → UInt32
  extra : Nat
  heap : List UInt8
  modules : List ModuleRow
  typeRefs : List TypeRefRow
  types : List (TypeDefRow heap)
  behind : List UInt8
  modules_present : modules ≠ [] → present.toNat.testBit 0x00
  typeRefs_present : typeRefs ≠ [] → present.toNat.testBit 0x01
  types_present : types ≠ [] → present.toNat.testBit 0x02
  /-- References to texts fit two bytes where they are as narrow as that. -/
  index_lt : flags.toNat.testBit 0 = false →
    ∀ r ∈ types, r.name.index < 2 ^ 16 ∧ r.namespaceName.index < 2 ^ 16

namespace TablesLayout

variable (x : TablesLayout)

/-- The number of rows of a table. -/
def rows (t : Nat) : Nat :=
  if x.present.toNat.testBit t then
    match t with
    | 0x00 => x.modules.length
    | 0x01 => x.typeRefs.length
    | 0x02 => x.types.length
    | t => (x.otherRows t).toNat
  else 0

/-- The width of a reference to a text. -/
def textWidth : Nat := if x.flags.toNat.testBit 0 then 4 else 2

/-- The width of a reference to a GUID. -/
def guidWidth : Nat := if x.flags.toNat.testBit 1 then 4 else 2

/-- The width of a reference to a row of one of some tables, with a tag of so many bits to tell
which. -/
def codedWidth (tagBits : Nat) (tables : List Nat) : Nat :=
  if ∀ t ∈ tables, x.rows t < 2 ^ (16 - tagBits) then 2 else 4

/-- The width of a reference to a row of a table. -/
def indexWidth (t : Nat) : Nat := if x.rows t < 2 ^ 16 then 2 else 4

/-- The widths of the columns of the table of modules. -/
def moduleWidths : List Nat := [2, x.textWidth, x.guidWidth, x.guidWidth, x.guidWidth]

/-- The widths of the columns of the table of references to types. Their scope is a row of Module,
ModuleRef, AssemblyRef or TypeRef. -/
def typeRefWidths : List Nat :=
  [x.codedWidth 2 [0x00, 0x1A, 0x23, 0x01], x.textWidth, x.textWidth]

/-- The widths of the columns of a type definition behind its name and namespace. Its base is a row
of TypeDef, TypeRef or TypeSpec, and it has rows of Field and MethodDef. -/
def typeTailWidths : List Nat :=
  [x.codedWidth 2 [0x02, 0x01, 0x1B], x.indexWidth 0x04, x.indexWidth 0x06]

/-- The widths of the columns of the table of type definitions. -/
def typeWidths : List Nat := [4, x.textWidth, x.textWidth] ++ x.typeTailWidths

/-- The tables that are present, in order. -/
def numbers : List Nat := (List.range 64).filter x.present.toNat.testBit

/-- The header up to the numbers of rows. -/
def headerBytes : List UInt8 :=
  (Bytes.word 4 x.reserved ++ Bytes.word 2 x.version) ++ (Bytes.word 1 x.flags.toNat ++
    (Bytes.word 1 x.reservedByte ++ (Bytes.word 8 x.present.toNat ++ Bytes.word 8 x.sorted)))

/-- The numbers of rows of the tables that are present. -/
def countBytes : List UInt8 := x.numbers.flatMap fun t => Bytes.word 4 (x.rows t)

/-- The extra data. -/
def extraBytes : List UInt8 := if x.flags.toNat.testBit 6 then Bytes.word 4 x.extra else []

/-- The rows of the tables before that of type definitions. -/
def rowsBeforeTypes : List UInt8 :=
  tableBytes x.moduleWidths ModuleRow.columns x.modules ++
    tableBytes x.typeRefWidths TypeRefRow.columns x.typeRefs

/-- Some rows of the table of type definitions. -/
def typeBytes (rs : List (TypeDefRow x.heap)) : List UInt8 :=
  tableBytes x.typeWidths TypeDefRow.columns rs

/-- The tables stream. -/
def encode : List UInt8 :=
  x.headerBytes ++ (x.countBytes ++ (x.extraBytes ++
    (x.rowsBeforeTypes ++ (x.typeBytes x.types ++ x.behind))))

/-! #### Reading the header -/

/-- What is read from the header. -/
def header : TableHeader :=
  ⟨x.flags.toNat.testBit 0, x.flags.toNat.testBit 1, x.numbers.map fun t => (t, x.rows t)⟩

theorem length_headerBytes : x.headerBytes.length = 24 := by
  simp only [headerBytes, List.length_append, Bytes.length_word]

/-- The tables that are there are those whose bit is set. -/
theorem mem_numbers {t : Nat} : t ∈ x.numbers ↔ t < 64 ∧ x.present.toNat.testBit t = true := by
  rw [numbers, List.mem_filter, List.mem_range]

/-- The number of rows of a table is read back, no rows if the table is absent. -/
theorem rows_header (t : TableKind) : x.header.rows t = x.rows t.number := by
  have hlookup : ∀ ts : List Nat, (ts.map fun t => (t, x.rows t)).lookup t.number =
      if t.number ∈ ts then some (x.rows t.number) else none := by
    intro ts
    induction ts with
    | nil => rfl
    | cons u us ih =>
      by_cases hu : t.number = u
      · simp [hu]
      · rw [List.map_cons, List.lookup_cons, beq_false_of_ne hu, ih]
        simp [hu]
  rw [TableHeader.rows, header, hlookup]
  by_cases ht : t.number ∈ x.numbers
  · rw [if_pos ht, Option.getD_some]
  · have hsmall : t.number < 64 := by cases t <;> decide
    have habsent : ¬ x.present.toNat.testBit t.number = true := fun h =>
      ht (x.mem_numbers.mpr ⟨hsmall, h⟩)
    rw [if_neg ht, Option.getD_none]
    exact (if_neg habsent).symm

/-- A column of references is read at the width it was written at. -/
theorem rowWidth_header (tagBits : Nat) (ts : List TableKind) :
    x.header.rowWidth tagBits ts = x.codedWidth tagBits (ts.map TableKind.number) := by
  have hlong : (ts.any fun t => x.header.rows t ≥ 1 <<< (16 - tagBits)) = true ↔
      ¬ ∀ t ∈ ts.map TableKind.number, x.rows t < 2 ^ (16 - tagBits) := by
    simp [rows_header, Nat.one_shiftLeft]
  by_cases h : ∀ t ∈ ts.map TableKind.number, x.rows t < 2 ^ (16 - tagBits)
  · rw [codedWidth, if_pos h, TableHeader.rowWidth, if_neg (by rw [hlong]; exact not_not.mpr h)]
  · rw [codedWidth, if_neg h, TableHeader.rowWidth, if_pos (hlong.mpr h)]

theorem codedWidth_singleton (t : Nat) : x.codedWidth 0 [t] = x.indexWidth t := by
  simp [codedWidth, indexWidth]

theorem moduleSize_header : x.header.moduleSize = x.moduleWidths.sum := by
  have hsum : x.moduleWidths.sum = 2 + (x.textWidth + (x.guidWidth + (x.guidWidth +
      (x.guidWidth + 0)))) := rfl
  have htext : x.header.textWidth = x.textWidth := rfl
  have hguid : TableHeader.heapWidth x.header.wideGuids = x.guidWidth := rfl
  rw [TableHeader.moduleSize, htext, hguid, hsum]
  omega

theorem typeRefSize_header : x.header.typeRefSize = x.typeRefWidths.sum := by
  have hsum : x.typeRefWidths.sum = x.codedWidth 2 [0x00, 0x1A, 0x23, 0x01] +
      (x.textWidth + (x.textWidth + 0)) := rfl
  have htext : x.header.textWidth = x.textWidth := rfl
  have hscope := x.rowWidth_header 2 [.module, .moduleRef, .assemblyRef, .typeRef]
  rw [TableHeader.typeRefSize, hscope, htext, hsum]
  simp only [List.map_cons, List.map_nil, TableKind.number]
  omega

/-- What is skipped behind a row is what was written behind it. -/
theorem typeTailSize_header : x.header.typeTailSize = x.typeTailWidths.sum := by
  have hsum : x.typeTailWidths.sum = x.codedWidth 2 [0x02, 0x01, 0x1B] +
      (x.indexWidth 0x04 + (x.indexWidth 0x06 + 0)) := rfl
  rw [TableHeader.typeTailSize, rowWidth_header, rowWidth_header, rowWidth_header, hsum]
  simp only [List.map_cons, List.map_nil, TableKind.number, codedWidth_singleton]
  omega

theorem rows_modules : x.rows 0x00 = x.modules.length := by
  by_cases h : x.modules = []
  · simp [rows, h]
  · rw [rows, if_pos (x.modules_present h)]

theorem rows_typeRefs : x.rows 0x01 = x.typeRefs.length := by
  by_cases h : x.typeRefs = []
  · simp [rows, h]
  · rw [rows, if_pos (x.typeRefs_present h)]

theorem rows_types : x.rows 0x02 = x.types.length := by
  by_cases h : x.types = []
  · simp [rows, h]
  · rw [rows, if_pos (x.types_present h)]

theorem length_modules : (tableBytes x.moduleWidths ModuleRow.columns x.modules).length =
    x.modules.length * x.moduleWidths.sum :=
  length_tableBytes _ _ _ fun _ => rfl

theorem length_typeRefs : (tableBytes x.typeRefWidths TypeRefRow.columns x.typeRefs).length =
    x.typeRefs.length * x.typeRefWidths.sum :=
  length_tableBytes _ _ _ fun _ => rfl

theorem length_types : (x.typeBytes x.types).length = x.types.length * x.typeWidths.sum :=
  length_tableBytes _ _ _ fun _ => rfl

/-- What is skipped before the type definitions is what was written before them. -/
theorem length_rowsBeforeTypes : x.rowsBeforeTypes.length = x.header.sizeBeforeTypes := by
  rw [rowsBeforeTypes, List.length_append, length_modules, length_typeRefs,
    TableHeader.sizeBeforeTypes, rows_header, rows_header, moduleSize_header, typeRefSize_header]
  simp only [TableKind.number, rows_modules, rows_typeRefs]

/-- The number of rows of a table fits its field in a stream that is short enough. -/
theorem rows_lt (h : x.encode.length < 2 ^ 32) (t : Nat) : x.rows t < 256 ^ 4 := by
  have hmodules := x.length_modules
  have htypeRefs := x.length_typeRefs
  have htypes := x.length_types
  have hrow {n k : Nat} (hk : 0 < k) : n ≤ n * k := Nat.le_mul_of_pos_right n hk
  have hm := hrow (n := x.modules.length) (k := x.moduleWidths.sum)
    (by simp [moduleWidths])
  have hr := hrow (n := x.typeRefs.length) (k := x.typeRefWidths.sum)
    (by simp only [typeRefWidths, textWidth, List.sum_cons]; split <;> omega)
  have ht := hrow (n := x.types.length) (k := x.typeWidths.sum) (by simp [typeWidths])
  simp only [encode, rowsBeforeTypes, List.length_append] at h
  simp only [rows]
  split
  · split
    · omega
    · omega
    · omega
    · exact (x.otherRows t).toNat_lt
  · omega

/-- The row counts are read back. -/
theorem rowCounts_countBytes (h : x.encode.length < 2 ^ 32) (rest : List UInt8) :
    rowCounts x.numbers (x.countBytes ++ rest) =
      .ok (x.numbers.map fun t => (t, x.rows t), rest) := by
  rw [countBytes]
  induction x.numbers with
  | nil => rfl
  | cons t ts ih =>
    rw [List.flatMap_cons, List.append_assoc, rowCounts, Bytes.word?_append (x.rows_lt h t)]
    simp only [ih]
    rfl

/-- The header of the tables is read back, and the rows follow it. -/
theorem tableHeader_encode (h : x.encode.length < 2 ^ 32) :
    tableHeader x.encode =
      .ok (x.header, x.rowsBeforeTypes ++ (x.typeBytes x.types ++ x.behind)) := by
  -- The fields at fixed positions are found by what stands in front of them.
  have hlong : ¬ x.encode.length < 24 := by
    simp only [encode, List.length_append, length_headerBytes]
    omega
  have hflags : Bytes.wordAt 1 6 x.encode = x.flags.toNat := by
    have hshape : x.encode = (Bytes.word 4 x.reserved ++ Bytes.word 2 x.version) ++
        (Bytes.word 1 x.flags.toNat ++ (Bytes.word 1 x.reservedByte ++
          (Bytes.word 8 x.present.toNat ++ (Bytes.word 8 x.sorted ++ (x.countBytes ++
            (x.extraBytes ++ (x.rowsBeforeTypes ++ (x.typeBytes x.types ++ x.behind)))))))) := by
      simp only [encode, headerBytes, List.append_assoc]
    rw [hshape]
    exact Bytes.wordAt_append (by simp) (show x.flags.toNat < 256 ^ 1 from x.flags.toNat_lt) _
  have hpresent : Bytes.wordAt 8 8 x.encode = x.present.toNat := by
    have hshape : x.encode = (Bytes.word 4 x.reserved ++ Bytes.word 2 x.version ++
        Bytes.word 1 x.flags.toNat ++ Bytes.word 1 x.reservedByte) ++
          (Bytes.word 8 x.present.toNat ++ (Bytes.word 8 x.sorted ++ (x.countBytes ++
            (x.extraBytes ++ (x.rowsBeforeTypes ++ (x.typeBytes x.types ++ x.behind)))))) := by
      simp only [encode, headerBytes, List.append_assoc]
    rw [hshape]
    exact Bytes.wordAt_append (by simp) (show x.present.toNat < 256 ^ 8 from x.present.toNat_lt) _
  have hdrop : x.encode.drop 24 = x.countBytes ++ (x.extraBytes ++ (x.rowsBeforeTypes ++
      (x.typeBytes x.types ++ x.behind))) :=
    List.drop_left' x.length_headerBytes
  have hextra : x.extraBytes.length = if x.flags.toNat.testBit 6 then 4 else 0 := by
    rw [extraBytes]
    split <;> simp
  have hcounts := x.rowCounts_countBytes h
  rw [numbers] at hcounts
  simp only [tableHeader, hlong, hflags, hpresent, hdrop, hcounts, ← hextra]
  simp only [if_false, Except.bind, bind, pure, Except.pure, List.drop_left]
  rfl

/-! #### Reading the type definitions -/

theorem textWidth_header : x.header.textWidth = x.textWidth := rfl

/-- A reference to a text fits its column. -/
theorem index_lt_pow (h : x.heap.length < 2 ^ 32) {r : TypeDefRow x.heap} (hr : r ∈ x.types) :
    r.name.index < 256 ^ x.textWidth ∧ r.namespaceName.index < 256 ^ x.textWidth := by
  have hname := r.name.index_lt
  have hnamespace := r.namespaceName.index_lt
  by_cases hwide : x.flags.toNat.testBit 0 = true
  · rw [textWidth, if_pos hwide]
    omega
  · have hnarrow := x.index_lt (Bool.not_eq_true _ ▸ hwide) r hr
    rw [textWidth, if_neg hwide]
    omega

/-- A type definition is read back. -/
theorem typeRow_rowBytes (h : x.heap.length < 2 ^ 32) {r : TypeDefRow x.heap} (hr : r ∈ x.types)
    (rest : List UInt8) : ∃ tail, tail.length = x.header.typeTailSize ∧
      typeRow x.header (rowBytes x.typeWidths r.columns ++ rest) =
        .ok (⟨r.flags.toNat, r.name.index, r.namespaceName.index⟩, tail ++ rest) := by
  obtain ⟨hname, hnamespace⟩ := x.index_lt_pow h hr
  have hflags : r.flags.toNat < 256 ^ 4 := r.flags.toNat_lt
  refine ⟨rowBytes x.typeTailWidths [r.base, r.firstField, r.firstMethod], ?_, ?_⟩
  · rw [typeTailSize_header]
    exact length_rowBytes rfl
  · have hbytes : rowBytes x.typeWidths r.columns ++ rest = Bytes.word 4 r.flags.toNat ++
        (Bytes.word x.textWidth r.name.index ++ (Bytes.word x.textWidth r.namespaceName.index ++
          (rowBytes x.typeTailWidths [r.base, r.firstField, r.firstMethod] ++ rest))) := by
      simp [rowBytes, typeWidths, TypeDefRow.columns]
    simp only [typeRow, textWidth_header, hbytes, Bytes.word?_append hflags,
      Bytes.word?_append hname, Bytes.word?_append hnamespace]

theorem isPublic_typeRow {heap : List UInt8} (r : TypeDefRow heap) :
    (TypeRow.mk r.flags.toNat r.name.index r.namespaceName.index).isPublic = r.isPublic := by
  have hand : (r.flags &&& 7).toNat = r.flags.toNat % 8 := by
    rw [UInt32.toNat_and]
    exact Nat.and_two_pow_sub_one_eq_mod r.flags.toNat 3
  rw [TypeRow.isPublic, TypeDefRow.isPublic, Bool.eq_iff_iff, beq_iff_eq, beq_iff_eq,
    ← UInt32.toNat_inj, hand]
  rfl

/-- The names of the public types of some type definitions. -/
def publicNames {heap : List UInt8} (rs : List (TypeDefRow heap)) : List TypeName :=
  (rs.filter TypeDefRow.isPublic).map TypeDefRow.typeName

/-- Row after row is read, and the name of each that is public is listed. -/
theorem publicTypes_typeBytes (h : x.heap.length < 2 ^ 32) (rs : List (TypeDefRow x.heap))
    (hrs : ∀ r ∈ rs, r ∈ x.types) (rest : List UInt8) :
    publicTypes x.header x.heap rs.length (x.typeBytes rs ++ rest) = .ok (publicNames rs) := by
  induction rs with
  | nil => rfl
  | cons r rs ih =>
    have ih := ih fun q hq => hrs q (List.mem_cons_of_mem r hq)
    obtain ⟨tail, htail, hrow⟩ := x.typeRow_rowBytes h (hrs r List.mem_cons_self)
      (x.typeBytes rs ++ rest)
    have hnext : (tail ++ (x.typeBytes rs ++ rest)).drop x.header.typeTailSize =
        x.typeBytes rs ++ rest := List.drop_left' htail
    have hbytes : x.typeBytes (r :: rs) ++ rest =
        rowBytes x.typeWidths r.columns ++ (x.typeBytes rs ++ rest) := by
      rw [typeBytes, tableBytes, List.flatMap_cons, List.append_assoc]
      rfl
    rw [hbytes, List.length_cons, publicTypes, hrow]
    cases hpublic : r.isPublic with
    | false => simp [Except.bind, bind, isPublic_typeRow, hpublic, hnext, ih, publicNames]
    | true =>
      simp [Except.bind, bind, pure, Except.pure, isPublic_typeRow, hpublic, hnext, ih,
        publicNames, HeapEntry.heapText_index, withoutArity_text, TypeDefRow.typeName]

end TablesLayout

/-! ### Streams -/

/-- A stream of a root. The bytes behind its content fill the space up to the next stream. -/
structure StreamLayout where
  name : List UInt8
  zero_notMem : 0 ∉ name
  content : List UInt8
  padding : List UInt8

namespace StreamLayout

/-- The bytes of the content and of the space behind it. -/
def body (s : StreamLayout) : List UInt8 := s.content ++ s.padding

/-- The header of a stream whose content stands at an offset. The name is filled up with zero bytes
to a multiple of four, with one at least. -/
def header (offset : Nat) (s : StreamLayout) : List UInt8 :=
  Bytes.word 4 offset ++ (Bytes.word 4 s.content.length ++
    (s.name ++ List.replicate (4 - s.name.length % 4) 0))

/-- The size of the header of a stream. -/
def headerSize (s : StreamLayout) : Nat := 8 + (s.name.length + (4 - s.name.length % 4))

/-- The headers of streams whose contents stand one after the other, from an offset on. -/
def headers : Nat → List StreamLayout → List UInt8
  | _, [] => []
  | offset, s :: ss => s.header offset ++ headers (offset + s.body.length) ss

/-- The stream headers are as long as their sizes say. -/
theorem length_headers (offset : Nat) (ss : List StreamLayout) :
    (headers offset ss).length = (ss.map headerSize).sum := by
  induction ss generalizing offset with
  | nil => rfl
  | cons s ss ih =>
    rw [headers, List.length_append, ih, List.map_cons, List.sum_cons]
    simp only [header, headerSize, List.length_append, Bytes.length_word, List.length_replicate]
    omega

/-! #### Reading a header -/

section Header

variable {offset : Nat} {s : StreamLayout}

/-- A stream header is its two words, its name and the padding of the name. -/
theorem header_append (offset : Nat) (s : StreamLayout) (others : List UInt8) :
    s.header offset ++ others = Bytes.word 4 offset ++ (Bytes.word 4 s.content.length ++
      (s.name ++ (List.replicate (4 - s.name.length % 4) 0 ++ others))) := by
  simp only [header, List.append_assoc]

/-- The first word of a stream header is the offset of its body. -/
theorem wordAt_header (hoffset : offset < 256 ^ 4) (others : List UInt8) :
    Bytes.wordAt 4 0 (s.header offset ++ others) = offset := by
  rw [header_append]
  exact Bytes.wordAt_append List.length_nil hoffset _

/-- The second one is the length of its content. -/
theorem wordAt_header_size (hsize : s.content.length < 256 ^ 4) (others : List UInt8) :
    Bytes.wordAt 4 4 (s.header offset ++ others) = s.content.length := by
  rw [header_append]
  exact Bytes.wordAt_append (Bytes.length_word 4 _) hsize _

/-- The name of a stream ends at its first zero byte. -/
theorem beforeZero?_header (others : List UInt8) :
    Bytes.beforeZero? ((s.header offset ++ others).drop 8) = some s.name := by
  -- at least one zero byte fills the name up
  have hzero : 4 - s.name.length % 4 = (3 - s.name.length % 4) + 1 := by omega
  rw [header_append, ← List.append_assoc, List.drop_left' (by simp), hzero, List.replicate_succ]
  exact Bytes.beforeZero?_append s.zero_notMem _

/-- The name is padded as far as the next header. -/
theorem drop_header (others : List UInt8) :
    (s.header offset ++ others).drop (8 + (s.name.length + 4) / 4 * 4) = others := by
  apply List.drop_left'
  simp only [header, List.length_append, Bytes.length_word, List.length_replicate]
  omega

theorem eight_le_length_header : 8 ≤ (s.header offset).length := by
  simp only [header, List.length_append, Bytes.length_word]
  omega

end Header

/-- The streams of a root are read back from their headers. -/
theorem streamsFrom_headers {root : List UInt8} (hroot : root.length < 2 ^ 32)
    (ss : List StreamLayout) (before rest : List UInt8)
    (hbodies : root = before ++ ss.flatMap body) :
    streamsFrom root ss.length (headers before.length ss ++ rest) =
      .ok (ss.map fun s => (Text.Utf8.text s.name, s.content)) := by
  -- along the streams, with the bodies that have been written already in front
  induction ss generalizing before with
  | nil => rfl
  | cons s ss ih =>
    have hsplit : root = before ++ (s.content ++ (s.padding ++ ss.flatMap body)) := by
      rw [hbodies, List.flatMap_cons, body]
      simp only [List.append_assoc]
    have hfit : before.length < 256 ^ 4 ∧ s.content.length < 256 ^ 4 := by
      rw [hsplit] at hroot
      simp only [List.length_append] at hroot
      omega
    have hregion : Bytes.region? root before.length s.content.length = some s.content := by
      rw [hsplit]
      exact Bytes.region?_append _ _ _
    have hrest : streamsFrom root ss.length
        (headers (before.length + s.body.length) ss ++ rest) =
          .ok (ss.map fun s => (Text.Utf8.text s.name, s.content)) := by
      have hothers := ih (before ++ s.body)
        (by rw [hbodies, List.flatMap_cons, List.append_assoc])
      rwa [List.length_append] at hothers
    rw [headers, List.append_assoc]
    -- What follows the first header matters only through what is read from it.
    generalize headers (before.length + s.body.length) ss ++ rest = others at hrest ⊢
    have hlong : ¬ (s.header before.length ++ others).length < 8 := by
      have hlength : 8 ≤ (s.header before.length).length := eight_le_length_header
      rw [List.length_append]
      omega
    rw [List.length_cons, streamsFrom]
    simp only [hlong, if_false, wordAt_header hfit.1, wordAt_header_size hfit.2,
      beforeZero?_header, hregion, drop_header, hrest]
    rfl

end StreamLayout

/-- Some streams hold a content under a name if there is one of that name and all of them have the
content. -/
def Holds (ss : List StreamLayout) (name content : List UInt8) : Prop :=
  (∃ s ∈ ss, s.name = name) ∧ ∀ s ∈ ss, s.name = name → s.content = content

instance (ss : List StreamLayout) (name content : List UInt8) :
    Decidable (Holds ss name content) :=
  inferInstanceAs (Decidable (_ ∧ _))

/-- The bytes of a name of ASCII characters. -/
def nameBytes (name : String) : List UInt8 := name.toList.map fun c => c.toNat.toUInt8

/-- A name of ASCII characters other than zero. -/
def IsAscii (name : String) : Prop := ∀ c ∈ name.toList, c.toNat ≠ 0 ∧ c.toNat < 0x80

instance (name : String) : Decidable (IsAscii name) := List.decidableBAll ..

/-- No other bytes than its own are read as a name of ASCII characters. -/
theorem text_eq_iff {name : String} (hname : IsAscii name) (bs : List UInt8) :
    Text.Utf8.text bs = name ↔ bs = nameBytes name := by
  constructor
  · intro h
    exact Text.Utf8.eq_of_text_eq hname (congrArg String.toList h)
  · rintro rfl
    exact String.toList_inj.mp (Text.Utf8.text_map_ascii fun c hc => (hname c hc).2)

section Lookup

variable {ss : List StreamLayout} {name : String} {content : List UInt8}

/-- What some streams hold under a name is found under it. -/
theorem stream?_eq_some (hname : IsAscii name) (h : Holds ss (nameBytes name) content) :
    stream? name (ss.map fun s => (Text.Utf8.text s.name, s.content)) = some content := by
  obtain ⟨⟨s, hs, hsname⟩, hunique⟩ := h
  rw [stream?]
  cases hfound : List.lookup name
      (ss.map fun s => (Text.Utf8.text s.name, s.content)).reverse with
  | none =>
    have hne := List.lookup_eq_none_iff.mp hfound (Text.Utf8.text s.name, s.content)
      (List.mem_reverse.mpr (List.mem_map_of_mem hs))
    rw [(text_eq_iff hname _).mpr hsname] at hne
    simp at hne
  | some c =>
    obtain ⟨before, after, hsplit, -⟩ := List.lookup_eq_some_iff.mp hfound
    have hmem : (name, c) ∈ ss.map fun s => (Text.Utf8.text s.name, s.content) := by
      rw [← List.mem_reverse, hsplit]
      simp
    obtain ⟨t, ht, heq⟩ := List.mem_map.mp hmem
    obtain ⟨htname, rfl⟩ := Prod.mk.inj heq
    rw [hunique t ht ((text_eq_iff hname _).mp htname)]

/-- A stream that was not written is not found. -/
theorem stream?_eq_none (hname : IsAscii name) (h : ∀ s ∈ ss, s.name ≠ nameBytes name) :
    stream? name (ss.map fun s => (Text.Utf8.text s.name, s.content)) = none := by
  rw [stream?, List.lookup_eq_none_iff]
  intro p hp
  obtain ⟨s, hs, rfl⟩ := List.mem_map.mp (List.mem_reverse.mp hp)
  have hne : name ≠ Text.Utf8.text s.name := fun heq =>
    h s hs ((text_eq_iff hname _).mp heq.symm)
  simpa using hne

end Lookup

/-! ### Roots -/

/-- The name of a tables stream, which tells whether its tables may be in disorder. -/
def tablesName (unordered : Bool) : String := if unordered then "#-" else "#~"

/-- What a metadata root holds. Among its streams, in any order, there are one of tables and the
heap that the tables refer to; what the others hold and are called is left open. -/
structure RootLayout where
  tables : TablesLayout
  /-- The version of the format and a reserved word. -/
  format : Nat
  version : List UInt8
  flags : Nat
  unordered : Bool
  streams : List StreamLayout
  streams_lt : streams.length < 2 ^ 16
  holds_tables : Holds streams (nameBytes (tablesName unordered)) tables.encode
  holds_heap : Holds streams (nameBytes "#Strings") tables.heap
  /-- Tables in disorder are not beside tables in order. -/
  no_ordered : unordered = true → ∀ s ∈ streams, s.name ≠ nameBytes "#~"

namespace RootLayout

variable (x : RootLayout)

/-- What stands before the version. -/
def signatureBytes : List UInt8 := signature ++ Bytes.word 8 x.format

/-- What stands before the headers of the streams. -/
def prologue : List UInt8 :=
  x.signatureBytes ++ (Bytes.word 4 x.version.length ++ (x.version ++
    (Bytes.word 2 x.flags ++ Bytes.word 2 x.streams.length)))

/-- Where the content of the first stream stands. -/
def bodyOffset : Nat := x.prologue.length + (x.streams.map StreamLayout.headerSize).sum

/-- The headers of the streams. -/
def headerBytes : List UInt8 := StreamLayout.headers x.bodyOffset x.streams

/-- The metadata root. -/
def encode : List UInt8 :=
  x.prologue ++ (x.headerBytes ++ x.streams.flatMap StreamLayout.body)

/-- No stream is longer than its root. -/
theorem length_content_lt (h : x.encode.length < 2 ^ 32) {s : StreamLayout}
    (hs : s ∈ x.streams) : s.content.length < 2 ^ 32 := by
  have hbody : s.body.length ≤ (x.streams.flatMap StreamLayout.body).length := by
    rw [List.length_flatMap]
    exact List.le_sum_of_mem (List.mem_map_of_mem hs)
  simp only [encode, List.length_append] at h
  rw [StreamLayout.body, List.length_append] at hbody
  omega

/-- What stands behind the numbers of a root: the headers of the streams and their contents. -/
def bodies : List UInt8 := x.headerBytes ++ x.streams.flatMap StreamLayout.body

theorem length_signatureBytes : x.signatureBytes.length = 12 := by
  rw [signatureBytes, List.length_append, Bytes.length_word]
  rfl

theorem length_prologue : x.prologue.length = 16 + x.version.length + 4 := by
  simp only [prologue, List.length_append, Bytes.length_word, length_signatureBytes]
  omega

theorem take_encode : x.encode.take 4 = signature := by
  rw [encode, prologue, signatureBytes]
  simp only [List.append_assoc]
  exact List.take_left' rfl

theorem wordAt_version (h : x.encode.length < 2 ^ 32) :
    Bytes.wordAt 4 12 x.encode = x.version.length := by
  have hfit : x.version.length < 256 ^ 4 := by
    simp only [encode, List.length_append, length_prologue] at h
    omega
  rw [encode, prologue, List.append_assoc, List.append_assoc]
  exact Bytes.wordAt_append x.length_signatureBytes hfit _

/-- Behind the version stand the flags and the number of streams. -/
theorem drop_version : x.encode.drop (16 + x.version.length) =
    Bytes.word 2 x.flags ++ (Bytes.word 2 x.streams.length ++ x.bodies) := by
  have hshape : x.encode = (x.signatureBytes ++ Bytes.word 4 x.version.length ++ x.version) ++
      (Bytes.word 2 x.flags ++ (Bytes.word 2 x.streams.length ++ x.bodies)) := by
    rw [encode, prologue, bodies]
    simp only [List.append_assoc]
  rw [hshape]
  apply List.drop_left'
  simp only [List.length_append, Bytes.length_word, length_signatureBytes]

/-- The streams of a root are read from its headers. -/
theorem streamsFrom_bodies (h : x.encode.length < 2 ^ 32) :
    streamsFrom x.encode x.streams.length x.bodies =
      .ok (x.streams.map fun s => (Text.Utf8.text s.name, s.content)) := by
  have hbefore : (x.prologue ++ x.headerBytes).length = x.bodyOffset := by
    rw [List.length_append, headerBytes, StreamLayout.length_headers, bodyOffset]
  have hfrom := StreamLayout.streamsFrom_headers h x.streams (x.prologue ++ x.headerBytes)
    (x.streams.flatMap StreamLayout.body) (by rw [encode, List.append_assoc])
  rwa [hbefore] at hfrom

/-- The streams of a root that is written are read back. -/
theorem streams_encode (h : x.encode.length < 2 ^ 32) :
    Metadata.streams x.encode =
      .ok (x.streams.map fun s => (Text.Utf8.text s.name, s.content)) := by
  have hcount : Bytes.wordAt 2 2
      (Bytes.word 2 x.flags ++ (Bytes.word 2 x.streams.length ++ x.bodies)) = x.streams.length :=
    Bytes.wordAt_append (Bytes.length_word 2 _) x.streams_lt _
  have hheaders : (Bytes.word 2 x.flags ++ (Bytes.word 2 x.streams.length ++ x.bodies)).drop 4 =
      x.bodies := by
    rw [← List.append_assoc]
    exact List.drop_left' (by simp)
  have hlong : (decide (x.encode.length < 16) || x.encode.take 4 != signature) = false := by
    have hlarge : ¬ x.encode.length < 16 := by
      rw [encode, List.length_append, length_prologue]
      omega
    simp [x.take_encode, hlarge]
  have hroom :
      ¬ (Bytes.word 2 x.flags ++ (Bytes.word 2 x.streams.length ++ x.bodies)).length < 4 := by
    simp only [List.length_append, Bytes.length_word]
    omega
  rw [Metadata.streams]
  simp only [hlong, x.wordAt_version h, x.drop_version, hroom, hcount, hheaders,
    x.streamsFrom_bodies h]
  rfl

end RootLayout

/-- From a metadata root that is written by its layout, exactly the public types are read, in the
order of the type definitions, and each without its number of type parameters. -/
theorem decodeMetadata_encode (x : RootLayout) (h : x.encode.length < 2 ^ 32) :
    decodeMetadata x.encode =
      .ok ((x.tables.types.filter fun r => r.flags &&& 7 == 1).map fun r =>
        ⟨Text.Utf8.text r.namespaceName.bytes, Text.Utf8.text (beforeArity r.name.bytes)⟩) := by
  -- The tables stand in the stream that the layout chose, and no other one comes first.
  have htables : ((stream? "#~" (x.streams.map fun s => (Text.Utf8.text s.name, s.content))).or
      (stream? "#-" (x.streams.map fun s => (Text.Utf8.text s.name, s.content)))) =
        some x.tables.encode := by
    have hholds := x.holds_tables
    cases hunordered : x.unordered with
    | false =>
      rw [hunordered] at hholds
      rw [stream?_eq_some (show IsAscii "#~" by decide) hholds, Option.some_or]
    | true =>
      rw [hunordered] at hholds
      rw [stream?_eq_none (by decide) (x.no_ordered hunordered), Option.none_or,
        stream?_eq_some (show IsAscii "#-" by decide) hholds]
  have hheap := stream?_eq_some (by decide) x.holds_heap
  have htablesLength : x.tables.encode.length < 2 ^ 32 := by
    obtain ⟨⟨s, hs, hname⟩, hcontent⟩ := x.holds_tables
    rw [← hcontent s hs hname]
    exact x.length_content_lt h hs
  have hheapLength : x.tables.heap.length < 2 ^ 32 := by
    obtain ⟨⟨s, hs, hname⟩, hcontent⟩ := x.holds_heap
    rw [← hcontent s hs hname]
    exact x.length_content_lt h hs
  have hcount : x.tables.header.rows .typeDef = x.tables.types.length := by
    rw [x.tables.rows_header]
    exact x.tables.rows_types
  have hdrop : (x.tables.rowsBeforeTypes ++
      (x.tables.typeBytes x.tables.types ++ x.tables.behind)).drop x.tables.header.sizeBeforeTypes =
        x.tables.typeBytes x.tables.types ++ x.tables.behind :=
    List.drop_left' x.tables.length_rowsBeforeTypes
  have hrows := x.tables.publicTypes_typeBytes hheapLength x.tables.types (fun _ hr => hr)
    x.tables.behind
  rw [decodeMetadata, x.streams_encode h]
  simp only [Except.bind, bind, htables, hheap, Option.getD_some,
    x.tables.tableHeader_encode htablesLength, hcount, hdrop, hrows]
  rfl

/-- A heap of two texts behind the empty one. -/
def twoTexts : List UInt8 := 0 :: (nameBytes "Acme" ++ 0 :: (nameBytes "Bag`1" ++ [0]))

/-- The empty text of the heap. -/
def emptyEntry : HeapEntry twoTexts := ⟨0, [], by decide, by decide⟩

/-- The first text of the heap. -/
def namespaceEntry : HeapEntry twoTexts := ⟨1, nameBytes "Acme", by decide, by decide⟩

/-- The second text of the heap. -/
def nameEntry : HeapEntry twoTexts := ⟨6, nameBytes "Bag`1", by decide, by decide⟩

/-- A hidden type and a public one behind a module and a reference to a type whose scope is wide, as
there are many references to assemblies. References to texts are wide, too, and there is extra
data. -/
def wideTables : TablesLayout where
  reserved := 0
  version := 2
  flags := 0x41
  reservedByte := 1
  present := 0x800000007
  sorted := 0
  otherRows _ := 0x4000
  extra := 7
  heap := twoTexts
  modules := [⟨0, 1, 1, 0, 0⟩]
  typeRefs := [⟨6, 6, 1⟩]
  types := [⟨0, nameEntry, emptyEntry, 0, 1, 1⟩, ⟨0x101, nameEntry, namespaceEntry, 5, 1, 1⟩]
  behind := [1, 2, 3]
  modules_present := by decide
  typeRefs_present := by decide
  types_present := by decide
  index_lt := by decide

/-- The tables behind their heap, with a stream of another name between them. -/
def wideRoot : RootLayout where
  tables := wideTables
  format := 0x10001
  version := nameBytes "v4.0.30319"
  flags := 0
  unordered := false
  streams := [⟨nameBytes "#Strings", by decide, twoTexts, [0, 0]⟩,
    ⟨nameBytes "#GUID", by decide, [9], []⟩, ⟨nameBytes "#~", by decide, wideTables.encode, []⟩]
  streams_lt := by decide
  holds_tables := by decide +kernel
  holds_heap := by decide +kernel
  no_ordered := by decide

/-- Of the two types the public one is read, without its number of type parameters. -/
theorem decodeMetadata_wideRoot : wideRoot.encode.length < 2 ^ 32 ∧
    decodeMetadata wideRoot.encode = .ok [⟨"Acme", "Bag"⟩] := by
  have hlength : wideRoot.encode.length < 2 ^ 32 := by decide +kernel
  have hnamespace : Text.Utf8.text (nameBytes "Acme") = "Acme" :=
    (text_eq_iff (by decide) _).mpr rfl
  have hname : Text.Utf8.text (nameBytes "Bag") = "Bag" := (text_eq_iff (by decide) _).mpr rfl
  refine ⟨hlength, ?_⟩
  rw [decodeMetadata_encode wideRoot hlength, ← hnamespace, ← hname]
  rfl

/-- A name up to the first backquote behind its first character. It differs from `beforeArity` in
names that begin with a backquote and have another one. -/
def beforeInnerQuote : List UInt8 → List UInt8
  | [] => []
  | b :: bs => b :: bs.takeWhile (· != backquote)

/-- A heap of a text that begins with a backquote and has another one. -/
def quotedText : List UInt8 := 0 :: (nameBytes "`a`1" ++ [0])

/-- One public type of that name. -/
def quotedTables : TablesLayout where
  reserved := 0
  version := 2
  flags := 0
  reservedByte := 1
  present := 0x4
  sorted := 0
  otherRows _ := 0
  extra := 0
  heap := quotedText
  modules := []
  typeRefs := []
  types := [⟨1, ⟨1, nameBytes "`a`1", by decide, by decide⟩, ⟨0, [], by decide, by decide⟩, 0, 1, 1⟩]
  behind := []
  modules_present := by decide
  typeRefs_present := by decide
  types_present := by decide
  index_lt := by decide

/-- The tables behind their heap. -/
def quotedRoot : RootLayout where
  tables := quotedTables
  format := 0x10001
  version := nameBytes "v4.0"
  flags := 0
  unordered := false
  streams := [⟨nameBytes "#Strings", by decide, quotedText, []⟩,
    ⟨nameBytes "#~", by decide, quotedTables.encode, []⟩]
  streams_lt := by decide
  holds_tables := by decide +kernel
  holds_heap := by decide +kernel
  no_ordered := by decide

/-- A name that begins with a backquote is read with its number of type parameters. The backquote in
front of that number is not taken for the end of the name. -/
theorem decodeMetadata_quotedRoot : quotedRoot.encode.length < 2 ^ 32 ∧
    decodeMetadata quotedRoot.encode = .ok [⟨"", "`a`1"⟩] ∧
    decodeMetadata quotedRoot.encode ≠
      .ok ((quotedRoot.tables.types.filter fun r => r.flags &&& 7 == 1).map fun r =>
        ⟨Text.Utf8.text r.namespaceName.bytes, Text.Utf8.text (beforeInnerQuote r.name.bytes)⟩) := by
  have hread : decodeMetadata quotedRoot.encode = .ok [⟨"", "`a`1"⟩] := by decide +kernel
  refine ⟨by decide +kernel, hread, ?_⟩
  rw [hread]
  decide +kernel

end Metadata

end CSharpAudit
