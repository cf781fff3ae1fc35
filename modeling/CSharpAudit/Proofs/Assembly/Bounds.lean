import CSharpAudit.Number.Basic
import CSharpAudit.Proofs.Assembly.Encoding

/-!
# Reading metadata within bounds

Lengths, offsets and numbers of rows in metadata come from a file and may be anything. A reader that
keeps its position as a word of 64 bits and takes parts of byte strings could be led astray: a sum
may leave the words, a part may not be there.

The checked reader follows positions through a root and stops with a trap wherever that happens. It
also counts the type definitions that it visits. On a root of up to 2³² bytes it runs into no trap
and reads what `decodeMetadata` reads.

## Main definitions

* `Metadata.Trap` — what a reader must not do
* `Metadata.Reader` — a step of the checked reader
* `Metadata.Runs` — what a step comes to, and how many rows it visits
* `Metadata.Reader.metadata` — the checked reader
* `Metadata.tablesStream` — the tables that it reads

## Main results

* `Metadata.runs_streams` — the streams are read within bounds
* `Metadata.runs_types` — so are type definitions, which are no more than the bytes suffice for
* `Metadata.reader_stays_in_bounds` — the checked reader runs into no trap
-/

namespace CSharpAudit.Metadata

/-! ### Steps -/

/-- What a reader must not do. -/
inductive Trap where
  /-- A number is no signed word. -/
  | overflow
  /-- A part of a byte string is not there. -/
  | outOfRange
  deriving DecidableEq, Repr, Inhabited

/-- A step of a reader. It ends with a result or finds metadata malformed unless it runs into a
trap, and it counts the rows that it visits. -/
abbrev Reader : Type → Type := ExceptT MetadataFault (StateT Nat (Except Trap))

namespace Reader

variable {α β : Type}

/-- The outcome of a step, and the number of rows visited in it. -/
def outcome (m : Reader α) : Except Trap (Except MetadataFault α × Nat) := m.run.run 0

/-- A trap. -/
def trap (t : Trap) : Reader α := ExceptT.mk fun _ => .error t

/-- The step that visits a row. -/
def visit : Reader Unit := ExceptT.mk fun visited => .ok (.ok (), visited + 1)

/-- The sum of two words. -/
def add (a b : Nat) : Reader Nat := if a + b < signedEnd then pure (a + b) else trap .overflow

/-- The product of two words. -/
def mul (a b : Nat) : Reader Nat := if a * b < signedEnd then pure (a * b) else trap .overflow

/-- A part of a byte string, from a position up to another. -/
def slice (bs : List UInt8) (start stop : Nat) : Reader (List UInt8) :=
  if start ≤ stop ∧ stop ≤ bs.length then pure ((bs.drop start).take (stop - start))
  else trap .outOfRange

/-- An element of a list. -/
def get (as : List α) (i : Nat) : Reader α :=
  match as[i]? with
  | some a => pure a
  | none => trap .outOfRange

/-- The word of so many bytes at the head of a byte string. -/
def word (width : Nat) (bs : List UInt8) : Reader Nat :=
  if width ≤ bs.length then pure (Bytes.value (bs.take width)) else trap .outOfRange

/-- The word of so many bytes at a position. -/
def wordAt (width pos : Nat) (bs : List UInt8) : Reader Nat := do
  word width (← slice bs pos bs.length)

/-! ### The reader -/

/-- Where the first zero byte stands. -/
def zeroIndex? (bs : List UInt8) : Option Nat := bs.findIdx? (· == 0)

/-- The streams that so many headers from a position on list. -/
def streamsFrom (root : List UInt8) : Nat → Nat → Reader (List (String × List UInt8))
  | 0, _ => pure []
  | count + 1, pos => do
    if (← add pos 8) > root.length then throw .truncatedStreamHeader
    else
      let offset ← wordAt 4 pos root
      let size ← wordAt 4 (← add pos 4) root
      let pos ← add pos 8
      match zeroIndex? (← slice root pos root.length) with
      | none => throw .unterminatedStreamName
      | some length =>
        let name := Text.Utf8.text (← slice root pos (← add pos length))
        let padded ← add length 4
        let next ← add pos (padded - padded % 4)
        let stop ← add offset size
        if stop > root.length then throw (.streamOutOfRange name)
        else
          let content ← slice root offset stop
          let others ← streamsFrom root count next
          pure ((name, content) :: others)

/-- The streams of a root. -/
def streams (root : List UInt8) : Reader (List (String × List UInt8)) := do
  if root.length < 16 then throw .missingSignature
  else if (← slice root 0 4) != signature then throw .missingSignature
  else
    let version ← wordAt 4 12 root
    let pos ← add 16 version
    if (← add pos 4) > root.length then throw .truncatedRoot
    else
      let count ← wordAt 2 (← add pos 2) root
      streamsFrom root count (← add pos 4)

/-- The word of so many bytes at a position of the tables, and the position behind it. -/
def tableWord (tables : List UInt8) (width pos : Nat) : Reader (Nat × Nat) := do
  if (← add pos width) > tables.length then throw .truncatedTable
  else
    let n ← wordAt width pos tables
    pure (n, ← add pos width)

/-- The numbers of rows of some tables, none for those that are absent, and the position behind the
numbers. -/
def rowCounts (tables : List UInt8) (present : Nat) : List Nat → Nat → Reader (List Nat × Nat)
  | [], pos => pure ([], pos)
  | t :: ts, pos => do
    if present.testBit t then
      let (n, pos) ← tableWord tables 4 pos
      let (ns, pos) ← rowCounts tables present ts pos
      pure (n :: ns, pos)
    else
      let (ns, pos) ← rowCounts tables present ts pos
      pure (0 :: ns, pos)

/-- The width of a reference to a row of one of some tables. -/
def rowWidth (rows : List Nat) (tagBits : Nat) : List TableKind → Reader Nat
  | [] => pure 2
  | t :: ts => do
    if (← get rows t.number) ≥ 1 <<< (16 - tagBits) then pure 4 else rowWidth rows tagBits ts

/-- The bytes of the text at an index of the heap. -/
def heapBytes (heap : List UInt8) (index : Nat) : Reader (List UInt8) := do
  if index > heap.length then throw (.stringOutOfRange index)
  else match zeroIndex? (← slice heap index heap.length) with
    | none => throw (.unterminatedString index)
    | some length => slice heap index (← add index length)

/-- A name without its number of type parameters. -/
def withoutArity (name : List UInt8) : Reader (List UInt8) :=
  match name.findIdx? (· == backquote) with
  | none => pure name
  | some i => if i > 0 then slice name 0 i else pure name

/-- The first columns of a type definition at a position, and the position behind them. -/
def typeRow (tables : List UInt8) (textWidth pos : Nat) : Reader (TypeRow × Nat) := do
  let (flags, pos) ← tableWord tables 4 pos
  let (name, pos) ← tableWord tables textWidth pos
  let (namespaceName, pos) ← tableWord tables textWidth pos
  pure (⟨flags, name, namespaceName⟩, pos)

/-- The public types of so many type definitions from a position on. References to texts have a
width, and so have the columns behind them. -/
def types (tables heap : List UInt8) (textWidth tailWidth : Nat) :
    Nat → Nat → Reader (List TypeName)
  | 0, _ => pure []
  | count + 1, pos => do
    visit
    let (row, pos) ← typeRow tables textWidth pos
    let next ← add pos tailWidth
    if row.isPublic then
      let name ← heapBytes heap row.name
      let namespaceName ← heapBytes heap row.namespaceName
      let name ← withoutArity name
      let others ← types tables heap textWidth tailWidth count next
      pure (⟨Text.Utf8.text namespaceName, Text.Utf8.text name⟩ :: others)
    else types tables heap textWidth tailWidth count next

/-- The position behind the extra data, of which a flag tells. -/
def skipExtra (flags pos : Nat) : Reader Nat := if flags.testBit 6 then add pos 4 else pure pos

/-- The flags of the tables, the numbers of rows, and the position of the first row. -/
def header (tables : List UInt8) : Reader (Nat × List Nat × Nat) := do
  if tables.length < 24 then throw .shortTables
  else
    let flags ← get tables 6
    let present ← wordAt 8 8 tables
    let (rows, pos) ← rowCounts tables present (List.range 64) 24
    let pos ← skipExtra flags.toNat pos
    pure (flags.toNat, rows, pos)

/-- The size of all tables before that of type definitions. -/
def sizeBeforeTypes (textWidth guidWidth : Nat) (rows : List Nat) : Reader Nat := do
  let moduleSize ← add (← add 2 textWidth) (← mul 3 guidWidth)
  let scope ← rowWidth rows 2 [.module, .moduleRef, .assemblyRef, .typeRef]
  let typeRefSize ← add scope (← mul 2 textWidth)
  let modules ← mul (← get rows TableKind.module.number) moduleSize
  let typeRefs ← mul (← get rows TableKind.typeRef.number) typeRefSize
  add modules typeRefs

/-- The size of the columns of a type definition behind its name and namespace. -/
def tailSize (rows : List Nat) : Reader Nat := do
  let base ← rowWidth rows 2 [.typeDef, .typeRef, .typeSpec]
  let firstField ← rowWidth rows 0 [.field]
  let firstMethod ← rowWidth rows 0 [.method]
  add (← add base firstField) firstMethod

/-- The public types of the type definitions of the tables. -/
def typeDefinitions (tables heap : List UInt8) : Reader (List TypeName) := do
  let (flags, rows, pos) ← header tables
  let textWidth := TableHeader.heapWidth (flags.testBit 0)
  let guidWidth := TableHeader.heapWidth (flags.testBit 1)
  let pos ← add pos (← sizeBeforeTypes textWidth guidWidth rows)
  let tailWidth ← tailSize rows
  types tables heap textWidth tailWidth (← get rows TableKind.typeDef.number) pos

/-- The public types of a metadata root. -/
def metadata (root : List UInt8) : Reader (List TypeName) := do
  let ss ← streams root
  match (stream? "#~" ss).or (stream? "#-" ss) with
  | none => throw .noTables
  | some tables => typeDefinitions tables ((stream? "#Strings" ss).getD [])

end Reader

/-! ### What steps come to -/

/-- A step runs into no trap, wherever it is taken, and comes to a result or a fault after a number
of rows. -/
def Runs {α : Type} (m : Reader α) (r : Except MetadataFault α) (visited : Nat) : Prop :=
  ∀ before, m.run.run before = .ok (r, before + visited)

section Steps

variable {α β : Type} {m : Reader α} {f : α → Reader β} {a : α} {r : Except MetadataFault β}
  {fault : MetadataFault} {i j : Nat} {bs : List UInt8}

theorem Runs.outcome_eq {r : Except MetadataFault α} (h : Runs m r i) : m.outcome = .ok (r, i) := by
  have h := h 0
  rwa [Nat.zero_add] at h

theorem runs_pure (a : α) : Runs (pure a) (.ok a) 0 := fun _ => rfl

theorem runs_throw (fault : MetadataFault) : Runs (throw fault : Reader α) (.error fault) 0 :=
  fun _ => rfl

theorem runs_visit : Runs Reader.visit (.ok ()) 1 := fun _ => rfl

/-- A step that comes to a result is followed by the next one. -/
theorem Runs.bind (h : Runs m (.ok a) i) (hf : Runs (f a) r j) : Runs (m >>= f) r (i + j) := by
  intro before
  have hm := h before
  have hf := hf (before + i)
  simp only [ExceptT.run_bind, StateT.run_bind, hm]
  rw [← Nat.add_assoc]
  exact hf

/-- A step that finds a fault is followed by none. -/
theorem Runs.bind_error (h : Runs m (.error fault) i) : Runs (m >>= f) (.error fault) i := by
  intro before
  have hm := h before
  simp only [ExceptT.run_bind, StateT.run_bind, hm]
  rfl

/-- A step that visits no row is followed by the next one. -/
theorem Runs.bind_zero (h : Runs m (.ok a) 0) (hf : Runs (f a) r j) : Runs (m >>= f) r j := by
  have := h.bind hf
  rwa [Nat.zero_add] at this

theorem runs_add {a b : Nat} (h : a + b < 2 ^ 63) : Runs (Reader.add a b) (.ok (a + b)) 0 := by
  rw [Reader.add, if_pos (show a + b < signedEnd from h)]
  exact runs_pure _

theorem runs_mul {a b : Nat} (h : a * b < 2 ^ 63) : Runs (Reader.mul a b) (.ok (a * b)) 0 := by
  rw [Reader.mul, if_pos (show a * b < signedEnd from h)]
  exact runs_pure _

theorem runs_slice (bs : List UInt8) {start stop : Nat} (h : start ≤ stop) (h' : stop ≤ bs.length) :
    Runs (Reader.slice bs start stop) (.ok ((bs.drop start).take (stop - start))) 0 := by
  rw [Reader.slice, if_pos ⟨h, h'⟩]
  exact runs_pure _

/-- The rest of a byte string from a position on. -/
theorem runs_slice_rest (bs : List UInt8) {start : Nat} (h : start ≤ bs.length) :
    Runs (Reader.slice bs start bs.length) (.ok (bs.drop start)) 0 := by
  have hslice := runs_slice bs h (Nat.le_refl bs.length)
  rwa [List.take_of_length_le (by rw [List.length_drop])] at hslice

theorem runs_get {as : List α} (h : as[i]? = some a) : Runs (Reader.get as i) (.ok a) 0 := by
  rw [Reader.get, h]
  exact runs_pure _

theorem runs_wordAt {width pos : Nat} (h : pos + width ≤ bs.length) :
    Runs (Reader.wordAt width pos bs) (.ok (Bytes.wordAt width pos bs)) 0 := by
  refine (runs_slice_rest _ (by omega)).bind_zero ?_
  rw [Reader.word, if_pos (by rw [List.length_drop]; omega)]
  exact runs_pure _

end Steps

/-- What follows a step is made of its result. -/
theorem Runs.map {α β : Type} {m : Reader α} {r : Except MetadataFault α} {i : Nat} (g : α → β)
    (h : Runs m r i) : Runs (m >>= fun a => pure (g a)) (r.map g) i := by
  cases r with
  | error fault => exact h.bind_error
  | ok a => exact Runs.bind (f := fun a => pure (g a)) h (runs_pure (g a))

/-! ### Streams -/

theorem wordAt_drop (width offset pos : Nat) (bs : List UInt8) :
    Bytes.wordAt width offset (bs.drop pos) = Bytes.wordAt width (pos + offset) bs := by
  rw [Bytes.wordAt, Bytes.wordAt, List.drop_drop]

/-- A word is less than the number of all words of its width. -/
theorem value_lt (bs : List UInt8) : Bytes.value bs < 256 ^ bs.length := by
  induction bs with
  | nil => decide
  | cons b bs ih =>
    have hb : b.toNat < 256 := b.toNat_lt
    rw [Bytes.value, List.length_cons, Nat.pow_succ]
    omega

theorem wordAt_lt (width pos : Nat) (bs : List UInt8) :
    Bytes.wordAt width pos bs < 256 ^ width :=
  (value_lt _).trans_le (Nat.pow_le_pow_right (by decide) (List.length_take_le _ _))

/-- The bytes before the first zero byte are as many as its index says. -/
theorem beforeZero?_eq (bs : List UInt8) :
    Bytes.beforeZero? bs = (Reader.zeroIndex? bs).map fun i => bs.take i := by
  induction bs with
  | nil => rfl
  | cons b bs ih =>
    simp only [Bytes.beforeZero?, Reader.zeroIndex?] at ih ⊢
    rw [List.findIdx?_cons]
    by_cases hb : b = 0
    · simp [hb]
    · have hcontains : (b :: bs).contains 0 = bs.contains 0 := by
        simp [Ne.symm hb]
      rw [hcontains]
      -- Both searches agree on whether there is a zero byte at all.
      by_cases hzero : bs.contains 0 = true
      · rw [if_pos hzero] at ih ⊢
        cases hfind : bs.findIdx? (· == 0) with
        | none => rw [hfind] at ih; cases ih
        | some i =>
          rw [hfind] at ih
          simpa [hb] using ih
      · rw [if_neg hzero] at ih ⊢
        cases hfind : bs.findIdx? (· == 0) with
        | none => simp [hb]
        | some i => rw [hfind] at ih; cases ih

theorem zeroIndex?_lt {bs : List UInt8} {i : Nat} (h : Reader.zeroIndex? bs = some i) :
    i < bs.length :=
  (List.findIdx?_eq_some_iff_findIdx_eq.mp h).1

section Streams

variable {root : List UInt8}

/-- What is read from a header at a position of the root. -/
theorem streamsFrom_drop (root : List UInt8) (count pos : Nat) :
    streamsFrom root (count + 1) (root.drop pos) =
      if pos + 8 > root.length then .error .truncatedStreamHeader
      else match Reader.zeroIndex? (root.drop (pos + 8)) with
        | none => .error .unterminatedStreamName
        | some length =>
          let name := Text.Utf8.text ((root.drop (pos + 8)).take length)
          let offset := Bytes.wordAt 4 pos root
          let size := Bytes.wordAt 4 (pos + 4) root
          if offset + size > root.length then .error (.streamOutOfRange name)
          else (streamsFrom root count (root.drop (pos + 8 + (length + 4) / 4 * 4))).map
            ((name, (root.drop offset).take size) :: ·) := by
  rw [streamsFrom]
  by_cases hshort : pos + 8 > root.length
  · have hlength : (root.drop pos).length < 8 := by
      rw [List.length_drop]
      omega
    rw [if_pos hlength, if_pos hshort]
    rfl
  · have hlength : ¬ (root.drop pos).length < 8 := by
      rw [List.length_drop]
      omega
    rw [if_neg hlength, if_neg hshort]
    simp only [wordAt_drop, Nat.add_zero, List.drop_drop, beforeZero?_eq]
    cases hzero : Reader.zeroIndex? (root.drop (pos + 8)) with
    | none => rfl
    | some length =>
      -- The name is what stands before the zero byte, so its length is the index of that byte.
      have hle : length ≤ (root.drop (pos + 8)).length := Nat.le_of_lt (zeroIndex?_lt hzero)
      simp only [Option.map_some, List.length_take_of_le hle, Bytes.region?, Nat.add_assoc]
      by_cases hout : Bytes.wordAt 4 pos root + Bytes.wordAt 4 (pos + 4) root > root.length
      · rw [if_neg (Nat.not_le.mpr hout), if_pos hout]
        rfl
      · rw [if_pos (Nat.not_lt.mp hout), if_neg hout]
        rfl

/-- The streams are read within bounds. A position behind the end is met before it grows further. -/
theorem runs_streamsFrom (hroot : root.length ≤ 2 ^ 32) (count : Nat) {pos : Nat}
    (hpos : pos ≤ 2 ^ 34) :
    Runs (Reader.streamsFrom root count pos) (streamsFrom root count (root.drop pos)) 0 := by
  induction count generalizing pos with
  | zero => exact runs_pure _
  | succ count ih =>
    have hword : ∀ i, Bytes.wordAt 4 i root < 2 ^ 32 := fun i => wordAt_lt 4 i root
    rw [streamsFrom_drop, Reader.streamsFrom]
    refine (runs_add (by omega)).bind_zero ?_
    by_cases hshort : pos + 8 > root.length
    · rw [if_pos hshort, if_pos hshort]
      exact runs_throw _
    · rw [if_neg hshort, if_neg hshort]
      refine (runs_wordAt (by omega)).bind_zero ?_
      refine (runs_add (by omega)).bind_zero ?_
      refine (runs_wordAt (by omega)).bind_zero ?_
      refine (runs_add (by omega)).bind_zero ?_
      refine (runs_slice_rest _ (by omega)).bind_zero ?_
      cases hzero : Reader.zeroIndex? (root.drop (pos + 8)) with
      | none => exact runs_throw _
      | some length =>
        have hlength : length < root.length - (pos + 8) := by
          have := zeroIndex?_lt hzero
          rwa [List.length_drop] at this
        have hoffset := hword pos
        have hsize := hword (pos + 4)
        -- the reader pads a name by what is left of a division, the streams by the quotient
        have hpadded : length + 4 - (length + 4) % 4 = (length + 4) / 4 * 4 := by omega
        refine (runs_add (by omega)).bind_zero ?_
        refine (runs_slice _ (by omega) (by omega)).bind_zero ?_
        rw [Nat.add_sub_cancel_left]
        refine (runs_add (by omega)).bind_zero ?_
        refine (runs_add (by omega)).bind_zero ?_
        refine (runs_add (by omega)).bind_zero ?_
        rw [hpadded]
        dsimp only
        by_cases hout : Bytes.wordAt 4 pos root + Bytes.wordAt 4 (pos + 4) root > root.length
        · rw [if_pos hout, if_pos hout]
          exact runs_throw _
        · rw [if_neg hout, if_neg hout]
          refine (runs_slice _ (by omega) (by omega)).bind_zero ?_
          rw [Nat.add_sub_cancel_left]
          exact (ih (by omega)).map _

theorem runs_streams (hroot : root.length ≤ 2 ^ 32) :
    Runs (Reader.streams root) (streams root) 0 := by
  rw [Reader.streams, streams]
  by_cases hshort : root.length < 16
  · simp only [hshort, decide_true, Bool.true_or, if_true]
    exact runs_throw _
  · have hversion : Bytes.wordAt 4 12 root < 2 ^ 32 := wordAt_lt 4 12 root
    simp only [hshort, decide_false, Bool.false_or, if_false]
    refine (runs_slice _ (by omega) (by omega)).bind_zero ?_
    rw [List.drop_zero, Nat.sub_zero]
    by_cases hsignature : (root.take 4 != signature) = true
    · rw [if_pos hsignature, if_pos hsignature]
      exact runs_throw _
    · rw [if_neg hsignature, if_neg hsignature]
      refine (runs_wordAt (by omega)).bind_zero ?_
      refine (runs_add (by omega)).bind_zero ?_
      refine (runs_add (by omega)).bind_zero ?_
      -- The reader compares positions where the other side measures what is left of the root.
      by_cases hend : 16 + Bytes.wordAt 4 12 root + 4 > root.length
      · have hrest : (root.drop (16 + Bytes.wordAt 4 12 root)).length < 4 := by
          rw [List.length_drop]
          omega
        simp only [hend, hrest, if_true]
        exact runs_throw _
      · have hrest : ¬ (root.drop (16 + Bytes.wordAt 4 12 root)).length < 4 := by
          rw [List.length_drop]
          omega
        simp only [hend, hrest, if_false, wordAt_drop, List.drop_drop]
        refine (runs_add (by omega)).bind_zero ?_
        refine (runs_wordAt (by omega)).bind_zero ?_
        refine (runs_add (by omega)).bind_zero ?_
        exact runs_streamsFrom hroot _ (by omega)

end Streams

/-! ### Tables -/

section Tables

variable {tables heap : List UInt8}

/-- A word of the tables is read where its bytes are there. -/
theorem runs_tableWord (tables : List UInt8) {width pos : Nat} (hwidth : 0 < width ∧ width ≤ 4)
    (hpos : pos ≤ 2 ^ 40) :
    (Bytes.word? width (tables.drop pos) = none ∧
      Runs (Reader.tableWord tables width pos) (.error .truncatedTable) 0) ∨
    (pos + width ≤ tables.length ∧
      Bytes.word? width (tables.drop pos) =
        some (Bytes.wordAt width pos tables, tables.drop (pos + width)) ∧
      Runs (Reader.tableWord tables width pos)
        (.ok (Bytes.wordAt width pos tables, pos + width)) 0) := by
  -- Adding cannot overflow here, so only the end of the tables can cut the word off.
  have hadd : Runs (Reader.add pos width) (.ok (pos + width)) 0 := runs_add (by omega)
  by_cases hend : pos + width > tables.length
  · left
    have hshort : (tables.drop pos).length < width := by
      rw [List.length_drop]
      omega
    refine ⟨by rw [Bytes.word?, if_pos hshort], hadd.bind_zero ?_⟩
    rw [if_pos hend]
    exact runs_throw _
  · right
    have hlong : ¬ (tables.drop pos).length < width := by
      rw [List.length_drop]
      omega
    refine ⟨by omega, ?_, hadd.bind_zero ?_⟩
    · rw [Bytes.word?, if_neg hlong, List.drop_drop]
      rfl
    · rw [if_neg hend]
      refine (runs_wordAt (by omega)).bind_zero ?_
      exact hadd.map _

/-- The numbers of rows of some tables, read from a position on: they are of 32 bits each, and those
of other tables are not among them. -/
structure CountsRead (tables : List UInt8) (present : Nat) (ts : List Nat) (pos : Nat)
    (counts : List (Nat × Nat)) (next : Nat) : Prop where
  le_next : pos ≤ next
  next_le : next ≤ pos + 4 * ts.length
  read : rowCounts (ts.filter present.testBit) (tables.drop pos) = .ok (counts, tables.drop next)
  runs : Runs (Reader.rowCounts tables present ts pos)
    (.ok (ts.map fun t => (counts.lookup t).getD 0, next)) 0
  lt : ∀ t, (counts.lookup t).getD 0 < 2 ^ 32
  lookup_eq_none : ∀ t ∉ ts, counts.lookup t = none

namespace CountsRead

variable {present t pos next : Nat} {ts : List Nat} {counts : List (Nat × Nat)}

theorem nil : CountsRead tables present [] pos [] pos where
  le_next := Nat.le_refl _
  next_le := Nat.le_refl _
  read := rfl
  runs := runs_pure _
  lt _ := Nat.two_pow_pos 32
  lookup_eq_none _ _ := rfl

/-- A table that is there has a number of rows, in front of those of the other tables. -/
theorem cons_present (h : CountsRead tables present ts (pos + 4) counts next) (ht : t ∉ ts)
    (hpresent : present.testBit t = true)
    (hword : Bytes.word? 4 (tables.drop pos) =
      some (Bytes.wordAt 4 pos tables, tables.drop (pos + 4)))
    (hruns : Runs (Reader.tableWord tables 4 pos) (.ok (Bytes.wordAt 4 pos tables, pos + 4)) 0) :
    CountsRead tables present (t :: ts) pos ((t, Bytes.wordAt 4 pos tables) :: counts) next where
  le_next := (Nat.le_add_right pos 4).trans h.le_next
  next_le := by
    have hle := h.next_le
    rw [List.length_cons]
    omega
  read := by
    rw [List.filter_cons_of_pos hpresent, rowCounts, hword]
    dsimp only
    rw [h.read]
    rfl
  runs := by
    -- The tables behind `t` have other numbers, so the count in front hides none of theirs.
    have hmap : ts.map (fun u => (((t, Bytes.wordAt 4 pos tables) :: counts).lookup u).getD 0) =
        ts.map fun u => (counts.lookup u).getD 0 := by
      refine List.map_congr_left fun u hu => ?_
      have hne : u ≠ t := fun heq => ht (heq ▸ hu)
      rw [List.lookup_cons, beq_false_of_ne hne]
    rw [Reader.rowCounts, if_pos hpresent]
    refine hruns.bind_zero (h.runs.bind_zero ?_)
    rw [List.map_cons, hmap, List.lookup_cons_self, Option.getD_some]
    exact runs_pure _
  lt u := by
    rw [List.lookup_cons]
    cases hu : u == t with
    | true => exact wordAt_lt 4 pos tables
    | false => exact h.lt u
  lookup_eq_none u hu := by
    rw [List.mem_cons, not_or] at hu
    rw [List.lookup_cons, beq_false_of_ne hu.1]
    exact h.lookup_eq_none u hu.2

/-- A table that is not there has no rows. -/
theorem cons_absent (h : CountsRead tables present ts pos counts next) (ht : t ∉ ts)
    (habsent : ¬present.testBit t = true) :
    CountsRead tables present (t :: ts) pos counts next where
  le_next := h.le_next
  next_le := by
    have hle := h.next_le
    rw [List.length_cons]
    omega
  read := by
    rw [List.filter_cons_of_neg habsent]
    exact h.read
  runs := by
    rw [Reader.rowCounts, if_neg habsent]
    refine h.runs.bind_zero ?_
    rw [List.map_cons, h.lookup_eq_none t ht]
    exact runs_pure _
  lt := h.lt
  lookup_eq_none u hu := h.lookup_eq_none u fun hmem => hu (List.mem_cons_of_mem t hmem)

end CountsRead

/-- The numbers of rows are read within bounds. -/
theorem runs_rowCounts (tables : List UInt8) (present : Nat) {ts : List Nat} (hts : ts.Nodup)
    {pos : Nat} (hpos : pos + 4 * ts.length ≤ 2 ^ 40) :
    (∃ fault, rowCounts (ts.filter present.testBit) (tables.drop pos) = .error fault ∧
      Runs (Reader.rowCounts tables present ts pos) (.error fault) 0) ∨
    ∃ counts next, CountsRead tables present ts pos counts next := by
  induction ts generalizing pos with
  | nil => exact .inr ⟨[], pos, .nil⟩
  | cons t ts ih =>
    obtain ⟨ht, hts⟩ := List.nodup_cons.mp hts
    rw [List.length_cons] at hpos
    -- The position moves on only past the number of a table that is there.
    by_cases hpresent : present.testBit t = true
    · obtain ⟨hword, hruns⟩ | ⟨-, hword, hruns⟩ :=
        runs_tableWord tables (show 0 < 4 ∧ 4 ≤ 4 by decide) (show pos ≤ 2 ^ 40 by omega)
      · left
        rw [List.filter_cons_of_pos hpresent, rowCounts, Reader.rowCounts, if_pos hpresent, hword]
        exact ⟨_, rfl, hruns.bind_error⟩
      · obtain ⟨fault, hcounts, hrest⟩ | ⟨counts, next, hcounts⟩ :=
          ih hts (show pos + 4 + 4 * ts.length ≤ 2 ^ 40 by omega)
        · left
          rw [List.filter_cons_of_pos hpresent, rowCounts, Reader.rowCounts, if_pos hpresent, hword]
          dsimp only
          exact ⟨fault, by rw [hcounts]; rfl, hruns.bind_zero hrest.bind_error⟩
        · exact .inr ⟨_, next, hcounts.cons_present ht hpresent hword hruns⟩
    · obtain ⟨fault, hcounts, hrest⟩ | ⟨counts, next, hcounts⟩ :=
        ih hts (show pos + 4 * ts.length ≤ 2 ^ 40 by omega)
      · left
        rw [List.filter_cons_of_neg hpresent, Reader.rowCounts, if_neg hpresent]
        exact ⟨fault, hcounts, hrest.bind_error⟩
      · exact .inr ⟨counts, next, hcounts.cons_absent ht hpresent⟩

variable {h : TableHeader} {rows : List Nat}

/-- The width of a reference is that which the numbers of rows make it. -/
theorem runs_rowWidth (hrows : ∀ t : TableKind, rows[t.number]? = some (h.rows t)) (tagBits : Nat)
    (ts : List TableKind) :
    Runs (Reader.rowWidth rows tagBits ts) (.ok (h.rowWidth tagBits ts)) 0 := by
  induction ts with
  | nil => exact runs_pure _
  | cons t ts ih =>
    refine (runs_get (hrows t)).bind_zero ?_
    by_cases hlong : h.rows t ≥ 1 <<< (16 - tagBits)
    · have hwide : h.rowWidth tagBits (t :: ts) = 4 := by
        simp [TableHeader.rowWidth, hlong]
      rw [if_pos hlong, hwide]
      exact runs_pure _
    · have hsame : h.rowWidth tagBits (t :: ts) = h.rowWidth tagBits ts := by
        simp [TableHeader.rowWidth, hlong]
      rw [if_neg hlong, hsame]
      exact ih

theorem rowWidth_le (tagBits : Nat) (ts : List TableKind) : h.rowWidth tagBits ts ≤ 4 := by
  rw [TableHeader.rowWidth]
  split <;> decide

theorem heapWidth_mem (wide : Bool) :
    0 < TableHeader.heapWidth wide ∧ TableHeader.heapWidth wide ≤ 4 := by
  cases wide <;> decide

/-- A text is read from the heap within bounds. -/
theorem runs_heapBytes (hheap : heap.length ≤ 2 ^ 32) (index : Nat) :
    ∃ r, Runs (Reader.heapBytes heap index) r 0 ∧
      heapText heap index = r.map Text.Utf8.text := by
  rw [Reader.heapBytes, heapText]
  by_cases hout : index > heap.length
  · rw [if_pos hout, if_pos hout]
    exact ⟨_, runs_throw _, rfl⟩
  · rw [if_neg hout, if_neg hout, beforeZero?_eq]
    have hslice := runs_slice_rest heap (Nat.not_lt.mp hout)
    cases hzero : Reader.zeroIndex? (heap.drop index) with
    | none =>
      refine ⟨.error (.unterminatedString index), hslice.bind_zero ?_, rfl⟩
      rw [hzero]
      exact runs_throw _
    | some length =>
      -- The text ends inside the heap, so its end is a position as well.
      have hlength : length < heap.length - index := by
        have := zeroIndex?_lt hzero
        rwa [List.length_drop] at this
      refine ⟨.ok ((heap.drop index).take length), hslice.bind_zero ?_, rfl⟩
      rw [hzero]
      refine (runs_add (by omega)).bind_zero ?_
      have htake := runs_slice heap (show index ≤ index + length by omega)
        (show index + length ≤ heap.length by omega)
      rwa [Nat.add_sub_cancel_left] at htake

/-- The number of type parameters is cut off within bounds. -/
theorem runs_withoutArity (name : List UInt8) :
    Runs (Reader.withoutArity name) (.ok (beforeArity name)) 0 := by
  rw [Reader.withoutArity, beforeArity, List.idxOf]
  cases hfind : name.findIdx? (· == backquote) with
  | none =>
    have hnone := List.findIdx?_eq_none_iff_findIdx_eq.mp hfind
    rw [hnone, List.take_length, ite_self]
    exact runs_pure _
  | some i =>
    obtain ⟨hlt, rfl⟩ := List.findIdx?_eq_some_iff_findIdx_eq.mp hfind
    by_cases hzero : name.findIdx (· == backquote) = 0
    · simp only [hzero]
      exact runs_pure _
    · have hpos : name.findIdx (· == backquote) > 0 := Nat.pos_of_ne_zero hzero
      simp only [hpos, hzero, if_true, if_false]
      exact runs_slice _ (Nat.zero_le _) (Nat.le_of_lt hlt)

/-- The first columns of a type definition are read within bounds, and they are eight bytes at
least. -/
theorem runs_typeRow (htables : tables.length ≤ 2 ^ 32) {pos : Nat} (hpos : pos ≤ 2 ^ 38) :
    (∃ fault, typeRow h (tables.drop pos) = .error fault ∧
      Runs (Reader.typeRow tables h.textWidth pos) (.error fault) 0) ∨
    ∃ row next, pos + 8 ≤ next ∧ next ≤ tables.length ∧
      typeRow h (tables.drop pos) = .ok (row, tables.drop next) ∧
      Runs (Reader.typeRow tables h.textWidth pos) (.ok (row, next)) 0 := by
  have hwidth : 0 < h.textWidth ∧ h.textWidth ≤ 4 := heapWidth_mem h.wideTexts
  have htwo : 2 ≤ h.textWidth := by
    rw [TableHeader.textWidth]
    cases h.wideTexts <;> decide
  rw [typeRow, Reader.typeRow]
  -- Each of the three words may be the one that is cut off.
  obtain ⟨hflags, hruns⟩ | ⟨hin, hflags, hruns⟩ :=
    runs_tableWord tables (show 0 < 4 ∧ 4 ≤ 4 by decide) (show pos ≤ 2 ^ 40 by omega)
  · exact .inl ⟨_, by rw [hflags], hruns.bind_error⟩
  rw [hflags]
  dsimp only
  obtain ⟨hname, hruns'⟩ | ⟨hin', hname, hruns'⟩ :=
    runs_tableWord tables hwidth (show pos + 4 ≤ 2 ^ 40 by omega)
  · exact .inl ⟨_, by rw [hname], hruns.bind_zero hruns'.bind_error⟩
  rw [hname]
  dsimp only
  obtain ⟨hspace, hruns''⟩ | ⟨hin'', hspace, hruns''⟩ :=
    runs_tableWord tables hwidth (show pos + 4 + h.textWidth ≤ 2 ^ 40 by omega)
  · exact .inl ⟨_, by rw [hspace], hruns.bind_zero (hruns'.bind_zero hruns''.bind_error)⟩
  · refine .inr ⟨_, pos + 4 + h.textWidth + h.textWidth, by omega, hin'', by rw [hspace], ?_⟩
    exact hruns.bind_zero (hruns'.bind_zero (hruns''.map _))

/-- Type definitions are read within bounds. However many there should be, no more are visited than
there are bytes for. -/
theorem runs_types (htables : tables.length ≤ 2 ^ 32) (hheap : heap.length ≤ 2 ^ 32) (count : Nat)
    {pos : Nat} (hpos : pos ≤ 2 ^ 38) :
    ∃ visited, Runs (Reader.types tables heap h.textWidth h.typeTailSize count pos)
        (publicTypes h heap count (tables.drop pos)) visited ∧
      8 * visited ≤ tables.length - pos + 8 := by
  induction count generalizing pos with
  | zero => exact ⟨0, runs_pure _, Nat.zero_le _⟩
  | succ count ih =>
    have htail : h.typeTailSize ≤ 12 := by
      have hbase := rowWidth_le (h := h) 2 [.typeDef, .typeRef, .typeSpec]
      have hfield := rowWidth_le (h := h) 0 [.field]
      have hmethod := rowWidth_le (h := h) 0 [.method]
      rw [TableHeader.typeTailSize]
      omega
    rw [Reader.types, publicTypes]
    obtain ⟨fault, hrow, hruns⟩ | ⟨row, next, hlow, hhigh, hrow, hruns⟩ :=
      runs_typeRow (h := h) htables hpos
    · refine ⟨1 + 0, runs_visit.bind ?_, by omega⟩
      rw [hrow]
      exact hruns.bind_error
    have hnext : Runs (Reader.add next h.typeTailSize) (.ok (next + h.typeTailSize)) 0 :=
      runs_add (by omega)
    obtain ⟨visited, hrest, hbound⟩ := ih (show next + h.typeTailSize ≤ 2 ^ 38 by omega)
    rw [← List.drop_drop] at hrest
    -- the row that is visited takes eight bytes off what is left
    have hone : 8 * 1 ≤ tables.length - pos + 8 := by omega
    have hmore : 8 * (1 + visited) ≤ tables.length - pos + 8 := by omega
    rw [hrow]
    by_cases hpublic : row.isPublic = true
    · obtain ⟨name, hname, hnameText⟩ := runs_heapBytes hheap row.name
      obtain ⟨space, hspace, hspaceText⟩ := runs_heapBytes hheap row.namespaceName
      simp only [Except.bind, bind, hpublic, if_true, hnameText, hspaceText]
      cases name with
      | error fault =>
        refine ⟨1 + 0, runs_visit.bind (hruns.bind_zero (hnext.bind_zero ?_)), hone⟩
        rw [if_pos hpublic]
        exact hname.bind_error
      | ok name =>
        cases space with
        | error fault =>
          refine ⟨1 + 0, runs_visit.bind (hruns.bind_zero (hnext.bind_zero ?_)), hone⟩
          rw [if_pos hpublic]
          exact hname.bind_zero hspace.bind_error
        | ok space =>
          refine ⟨1 + visited, runs_visit.bind (hruns.bind_zero (hnext.bind_zero ?_)), hmore⟩
          rw [if_pos hpublic]
          refine hname.bind_zero (hspace.bind_zero ((runs_withoutArity name).bind_zero ?_))
          rw [← withoutArity_text]
          exact hrest.map _
    · simp only [Except.bind, bind, hpublic]
      refine ⟨1 + visited, runs_visit.bind (hruns.bind_zero (hnext.bind_zero ?_)), hmore⟩
      rw [if_neg hpublic]
      exact hrest

theorem moduleSize_le (h : TableHeader) : h.moduleSize ≤ 18 := by
  have htext := heapWidth_mem h.wideTexts
  have hguid := heapWidth_mem h.wideGuids
  rw [TableHeader.moduleSize, TableHeader.textWidth]
  omega

theorem typeRefSize_le (h : TableHeader) : h.typeRefSize ≤ 12 := by
  have htext := heapWidth_mem h.wideTexts
  have hscope := rowWidth_le (h := h) 2 [.module, .moduleRef, .assemblyRef, .typeRef]
  rw [TableHeader.typeRefSize, TableHeader.textWidth]
  omega

/-- The size of the tables before the type definitions is a sum of products of 32 bits and a few. -/
theorem runs_sizeBeforeTypes (hrows : ∀ t : TableKind, rows[t.number]? = some (h.rows t))
    (hcount : ∀ t, h.rows t < 2 ^ 32) :
    Runs (Reader.sizeBeforeTypes h.textWidth (TableHeader.heapWidth h.wideGuids) rows)
      (.ok h.sizeBeforeTypes) 0 ∧ h.sizeBeforeTypes ≤ 2 ^ 37 := by
  have htext : 0 < h.textWidth ∧ h.textWidth ≤ 4 := heapWidth_mem h.wideTexts
  have hguid := heapWidth_mem h.wideGuids
  -- With 32 bits for the number of rows and a few bytes for each, nothing comes near 64 bits.
  have hscope := rowWidth_le (h := h) 2 [.module, .moduleRef, .assemblyRef, .typeRef]
  have hmodules : h.rows .module * h.moduleSize ≤ 2 ^ 32 * 18 :=
    Nat.mul_le_mul (Nat.le_of_lt (hcount _)) (moduleSize_le h)
  have htypeRefs : h.rows .typeRef * h.typeRefSize ≤ 2 ^ 32 * 12 :=
    Nat.mul_le_mul (Nat.le_of_lt (hcount _)) (typeRefSize_le h)
  constructor
  · refine (runs_add (by omega)).bind_zero ?_
    refine (runs_mul (by omega)).bind_zero ?_
    refine (runs_add (by omega)).bind_zero ?_
    refine (runs_rowWidth hrows _ _).bind_zero ?_
    refine (runs_mul (by omega)).bind_zero ?_
    refine (runs_add (by omega)).bind_zero ?_
    refine (runs_get (hrows .module)).bind_zero ?_
    refine (runs_mul (Nat.lt_of_le_of_lt hmodules (by decide))).bind_zero ?_
    refine (runs_get (hrows .typeRef)).bind_zero ?_
    refine (runs_mul (Nat.lt_of_le_of_lt htypeRefs (by decide))).bind_zero ?_
    exact runs_add (Nat.lt_of_le_of_lt (Nat.add_le_add hmodules htypeRefs) (by decide))
  · rw [TableHeader.sizeBeforeTypes]
    omega

theorem runs_tailSize (hrows : ∀ t : TableKind, rows[t.number]? = some (h.rows t)) :
    Runs (Reader.tailSize rows) (.ok h.typeTailSize) 0 := by
  have hbase := rowWidth_le (h := h) 2 [.typeDef, .typeRef, .typeSpec]
  have hfield := rowWidth_le (h := h) 0 [.field]
  have hmethod := rowWidth_le (h := h) 0 [.method]
  refine (runs_rowWidth hrows _ _).bind_zero ?_
  refine (runs_rowWidth hrows _ _).bind_zero ?_
  refine (runs_rowWidth hrows _ _).bind_zero ?_
  refine (runs_add (by omega)).bind_zero ?_
  exact runs_add (by omega)

theorem runs_skipExtra (flags : Nat) {pos : Nat} (hpos : pos ≤ 2 ^ 38) :
    Runs (Reader.skipExtra flags pos) (.ok (pos + if flags.testBit 6 then 4 else 0)) 0 := by
  rw [Reader.skipExtra]
  split
  · exact runs_add (by omega)
  · exact runs_pure _

/-- A byte is a word of width one. -/
theorem wordAt_one {i : Nat} (hi : i < tables.length) :
    Bytes.wordAt 1 i tables = tables[i].toNat := by
  rw [Bytes.wordAt, List.drop_eq_getElem_cons hi, List.take_succ_cons, List.take_zero, Bytes.value,
    Bytes.value, Nat.mul_zero, Nat.add_zero]

/-- The header of the tables is read within bounds. -/
theorem runs_header (tables : List UInt8) :
    (∃ fault, tableHeader tables = .error fault ∧
      Runs (Reader.header tables) (.error fault) 0) ∨
    ∃ h : TableHeader, ∃ flags rows pos, 24 ≤ pos ∧ pos ≤ 2 ^ 10 ∧ 24 ≤ tables.length ∧
      tableHeader tables = .ok (h, tables.drop pos) ∧
      Runs (Reader.header tables) (.ok (flags, rows, pos)) 0 ∧
      h.wideTexts = flags.testBit 0 ∧ h.wideGuids = flags.testBit 1 ∧
      (∀ t : TableKind, rows[t.number]? = some (h.rows t)) ∧ ∀ t, h.rows t < 2 ^ 32 := by
  rw [Reader.header, tableHeader]
  by_cases hshort : tables.length < 24
  · rw [if_pos hshort, if_pos hshort]
    exact .inl ⟨_, rfl, runs_throw _⟩
  rw [if_neg hshort, if_neg hshort]
  have hflags : Runs (Reader.get tables 6) (.ok tables[6]) 0 :=
    runs_get (List.getElem?_eq_getElem (by omega))
  have hpresent : Runs (Reader.wordAt 8 8 tables) (.ok (Bytes.wordAt 8 8 tables)) 0 :=
    runs_wordAt (by omega)
  rw [wordAt_one (by omega)]
  dsimp only
  -- There are 64 numbers of rows at most, so the position stays small as well.
  have hfit : 24 + 4 * (List.range 64).length ≤ 2 ^ 40 := by decide
  obtain ⟨fault, hcounts, hruns⟩ | ⟨counts, next, hread⟩ :=
    runs_rowCounts tables (Bytes.wordAt 8 8 tables) List.nodup_range hfit
  · left
    refine ⟨fault, ?_, hflags.bind_zero (hpresent.bind_zero hruns.bind_error)⟩
    rw [hcounts]
    rfl
  · -- four more bytes may stand between the counts and the rows
    right
    have hlow := hread.le_next
    have hhigh := hread.next_le
    rw [List.length_range] at hhigh
    set skip := if tables[6].toNat.testBit 6 then 4 else 0 with hskip
    have hskipLe : skip ≤ 4 := by
      rw [hskip]
      split <;> decide
    refine ⟨⟨tables[6].toNat.testBit 0, tables[6].toNat.testBit 1, counts⟩, tables[6].toNat,
      (List.range 64).map fun t => (counts.lookup t).getD 0, next + skip, by omega, by omega,
      by omega, ?_, ?_, rfl, rfl, ?_, fun t => hread.lt t.number⟩
    · rw [hread.read, ← List.drop_drop]
      rfl
    · refine hflags.bind_zero (hpresent.bind_zero (hread.runs.bind_zero ?_))
      exact (runs_skipExtra _ (by omega)).map _
    · intro t
      have ht : t.number < 64 := by cases t <;> decide
      rw [List.getElem?_map, List.getElem?_range ht]
      rfl

/-- Type definitions are found and read within bounds. -/
theorem runs_typeDefinitions (htables : tables.length ≤ 2 ^ 32) (hheap : heap.length ≤ 2 ^ 32) :
    ∃ visited, Runs (Reader.typeDefinitions tables heap)
        (tableHeader tables >>= fun p =>
          publicTypes p.1 heap (p.1.rows .typeDef) (p.2.drop p.1.sizeBeforeTypes)) visited ∧
      8 * visited ≤ tables.length := by
  obtain ⟨fault, hheader, hruns⟩ |
    ⟨h, flags, rows, pos, hlow, hhigh, hlong, hheader, hruns, htexts, hguids, hrows, hcount⟩ :=
      runs_header tables
  · refine ⟨0, ?_, Nat.zero_le _⟩
    rw [hheader]
    exact hruns.bind_error
  · obtain ⟨hsize, hsizeLe⟩ := runs_sizeBeforeTypes hrows hcount
    obtain ⟨visited, htypes, hbound⟩ := runs_types (h := h) htables hheap (h.rows .typeDef)
      (show pos + h.sizeBeforeTypes ≤ 2 ^ 38 by omega)
    refine ⟨visited, ?_, by omega⟩
    rw [hheader]
    -- The header states widths by the bits that the reader tests itself.
    rw [← List.drop_drop] at htypes
    rw [TableHeader.textWidth, htexts, hguids] at hsize
    rw [TableHeader.textWidth, htexts] at htypes
    refine hruns.bind_zero (hsize.bind_zero ((runs_add (by omega)).bind_zero ?_))
    exact (runs_tailSize hrows).bind_zero ((runs_get (hrows .typeDef)).bind_zero htypes)

end Tables

/-! ### Roots -/

/-- The tables stream of a root, nothing if none can be found. -/
def tablesStream (root : List UInt8) : List UInt8 :=
  match streams root with
  | .error _ => []
  | .ok ss => ((stream? "#~" ss).or (stream? "#-" ss)).getD []

/-- The content of a stream is a part of the root. -/
theorem length_le_of_mem_streamsFrom {root : List UInt8} {count : Nat} {rest : List UInt8}
    {ss : List (String × List UInt8)} (h : streamsFrom root count rest = .ok ss) :
    ∀ s ∈ ss, s.2.length ≤ root.length := by
  -- along the headers; all that fails on the way leaves no streams at all
  induction count generalizing rest ss with
  | zero =>
    obtain rfl := Except.ok.inj h
    exact fun _ hs => absurd hs List.not_mem_nil
  | succ count ih =>
    rw [streamsFrom] at h
    by_cases hshort : rest.length < 8
    · rw [if_pos hshort] at h
      cases h
    · rw [if_neg hshort] at h
      dsimp only at h
      cases hname : Bytes.beforeZero? (rest.drop 8) with
      | none => rw [hname] at h; cases h
      | some name =>
        rw [hname] at h
        dsimp only at h
        cases hregion : Bytes.region? root (Bytes.wordAt 4 0 rest) (Bytes.wordAt 4 4 rest) with
        | none => rw [hregion] at h; cases h
        | some content =>
          rw [hregion] at h
          dsimp only at h
          cases hothers : streamsFrom root count (rest.drop (8 + (name.length + 4) / 4 * 4)) with
          | error fault => rw [hothers] at h; cases h
          | ok others =>
            rw [hothers] at h
            obtain rfl := Except.ok.inj h
            intro s hs
            obtain rfl | hs := List.mem_cons.mp hs
            · obtain ⟨-, rfl⟩ : _ ∧ _ = content := by
                simpa [Bytes.region?, Option.ite_none_right_eq_some] using hregion
              exact (List.length_take_le' _ _).trans (by rw [List.length_drop]; omega)
            · exact ih hothers s hs

theorem length_le_of_mem_streams {root : List UInt8} {ss : List (String × List UInt8)}
    (h : streams root = .ok ss) : ∀ s ∈ ss, s.2.length ≤ root.length := by
  rw [streams] at h
  split at h
  · cases h
  · dsimp only at h
    split at h
    · cases h
    · exact length_le_of_mem_streamsFrom h

theorem length_le_of_stream? {root : List UInt8} {ss : List (String × List UInt8)}
    (h : streams root = .ok ss) {name : String} {content : List UInt8}
    (hfound : stream? name ss = some content) : content.length ≤ root.length := by
  obtain ⟨before, after, hsplit, -⟩ := List.lookup_eq_some_iff.mp hfound
  have hmem : (name, content) ∈ ss := by
    rw [← List.mem_reverse, hsplit]
    simp
  exact length_le_of_mem_streams h _ hmem

/-- Reading a metadata root of up to 2³² bytes, no position leaves the words and no part is taken
that is not there. The outcome is that of `decodeMetadata`: types, or what is malformed. The type
definitions that are visited take up eight bytes of the tables each, whatever number of rows the
tables state. -/
theorem reader_stays_in_bounds (root : List UInt8) (hroot : root.length ≤ 2 ^ 32) :
    ∃ visited, (Reader.metadata root).outcome = .ok (decodeMetadata root, visited) ∧
      8 * visited ≤ (tablesStream root).length := by
  have hruns := runs_streams hroot
  rw [tablesStream]
  cases hstreams : streams root with
  | error fault =>
    rw [hstreams] at hruns
    refine ⟨0, Runs.outcome_eq ?_, Nat.zero_le _⟩
    rw [decodeMetadata, hstreams]
    exact hruns.bind_error
  | ok ss =>
    rw [hstreams] at hruns
    -- Without a stream of tables both sides stop here.
    cases htables : (stream? "#~" ss).or (stream? "#-" ss) with
    | none =>
      refine ⟨0, Runs.outcome_eq ?_, Nat.zero_le _⟩
      rw [decodeMetadata, hstreams]
      refine hruns.bind_zero ?_
      simp only [bind, Except.bind, htables]
      exact runs_throw _
    | some tables =>
      -- Streams are parts of the root, so the bound on its length is one on theirs.
      have htablesLength : tables.length ≤ 2 ^ 32 := by
        obtain hfound | ⟨-, hfound⟩ := Option.or_eq_some_iff.mp htables
        · exact (length_le_of_stream? hstreams hfound).trans hroot
        · exact (length_le_of_stream? hstreams hfound).trans hroot
      have hheapLength : ((stream? "#Strings" ss).getD []).length ≤ 2 ^ 32 := by
        cases hfound : stream? "#Strings" ss with
        | none => exact Nat.zero_le _
        | some heap => exact (length_le_of_stream? hstreams hfound).trans hroot
      have hdecode : decodeMetadata root = tableHeader tables >>= fun p =>
          publicTypes p.1 ((stream? "#Strings" ss).getD []) (p.1.rows .typeDef)
            (p.2.drop p.1.sizeBeforeTypes) := by
        simp only [decodeMetadata, hstreams, bind, Except.bind, htables]
      obtain ⟨visited, htypes, hbound⟩ := runs_typeDefinitions htablesLength hheapLength
      refine ⟨visited, Runs.outcome_eq ?_, by simpa only [htables, Option.getD_some] using hbound⟩
      rw [hdecode]
      refine hruns.bind_zero ?_
      simp only [htables]
      exact htypes

/-- A root whose tables state 2³² - 1 type definitions and hold the bytes of one. -/
def boastfulRoot : List UInt8 :=
  signature ++ Bytes.word 8 0x10001 ++ Bytes.word 4 0 ++ Bytes.word 2 0 ++ Bytes.word 2 1 ++
    Bytes.word 4 32 ++ Bytes.word 4 42 ++ nameBytes "#~" ++ [0, 0] ++
    Bytes.word 6 0 ++ Bytes.word 1 0 ++ Bytes.word 1 1 ++ Bytes.word 8 4 ++ Bytes.word 8 0 ++
    Bytes.word 4 0xFFFFFFFF ++ Bytes.word 4 0 ++ Bytes.word 2 0 ++ Bytes.word 2 0 ++ Bytes.word 6 0

/-- Of the type definitions that are stated, five at most are visited before the tables end. -/
theorem boastfulRoot_stays_in_bounds : boastfulRoot.length ≤ 2 ^ 32 ∧ ∃ visited,
    (Reader.metadata boastfulRoot).outcome = .ok (decodeMetadata boastfulRoot, visited) ∧
      visited ≤ 5 := by
  have hlength : boastfulRoot.length ≤ 2 ^ 32 := by decide +kernel
  have htables : (tablesStream boastfulRoot).length = 42 := by decide +kernel
  obtain ⟨visited, hread, hbound⟩ := reader_stays_in_bounds boastfulRoot hlength
  rw [htables] at hbound
  exact ⟨hlength, visited, hread, by omega⟩

end CSharpAudit.Metadata
