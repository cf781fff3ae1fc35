import CSharpAudit.Syntax.Declarations
import CSharpAudit.Syntax.Member
import CSharpAudit.Text.NormalForm

/-!
# Symbols

A symbol is a declared name. The index of a file lists its symbols in order and finds them by full
name, by simple name and by declaration. Names are compared in composed normal form, so that
spellings which look alike are alike.

The index keeps a table for each of these, so that no search through all symbols is needed. The
tables hold the places of symbols, and an index carries the proof that they are the right ones.

## Main definitions

* `SymbolKind`, `Symbol` — a declared name
* `Keyed` — values under keys
* `SymbolIndex` — the symbols of a file with their tables
* `SymbolIndex.ofSymbols` — the index to which the symbols of a list were added
* `SymbolIndex.resolveType` — the type that a written name refers to
* `Declared.symbols` — the symbols that a declaration introduces
* `symbolIndex` — the index of a file

## Main results

* `SymbolIndex.withFullName_eq`, `SymbolIndex.withName_eq`, `SymbolIndex.ofDecl?_eq` — what is
  looked up in a table is what a search through all symbols would find
-/

namespace CSharpAudit

/-! ### Symbols -/

/-- What a symbol names. A word is kept as it is, known ones have constants. -/
structure SymbolKind where
  word : String
  deriving DecidableEq, Repr, Inhabited

namespace SymbolKind

def classType : SymbolKind := ⟨"class"⟩
def structType : SymbolKind := ⟨"struct"⟩
def interfaceType : SymbolKind := ⟨"interface"⟩
def enumType : SymbolKind := ⟨"enum"⟩
def recordType : SymbolKind := ⟨"record"⟩
def delegateType : SymbolKind := ⟨"delegate"⟩
def method : SymbolKind := ⟨"method"⟩
def constructor : SymbolKind := ⟨"constructor"⟩
def property : SymbolKind := ⟨"property"⟩
def field : SymbolKind := ⟨"field"⟩
def event : SymbolKind := ⟨"event"⟩

/-- Whether symbols of a kind are types. -/
def isType (k : SymbolKind) : Bool :=
  [classType, structType, interfaceType, enumType, recordType, delegateType].contains k

end SymbolKind

/-- A declared name. -/
structure Symbol where
  /-- The place of the symbol in its index. -/
  id : Nat := 0
  name : String
  fullName : String
  kind : SymbolKind
  namespaceName : String := ""
  /-- The full name of the declaring type, empty for a type that stands alone. -/
  container : String := ""
  modifiers : Modifiers := .empty
  span : Span := Span.none
  /-- The declaration, with its address. -/
  decl : Option (Address × Node) := none
  deriving Inhabited

/-- A symbol as an index holds it, with its number and its names in normal form. -/
def Symbol.numbered (s : Symbol) (id : Nat) : Symbol :=
  { s with id, name := Text.normalize s.name, fullName := Text.normalize s.fullName }

/-- The address of the declaration of a symbol. -/
def Symbol.address? (s : Symbol) : Option Address := s.decl.map (·.1)

/-! ### Tables of places -/

/-- The places of the elements of a list that satisfy a test. -/
def placesOf {α : Type} (test : α → Bool) (l : List α) : List Nat :=
  (l.zipIdx.filter fun p => test p.1).map (·.2)

section

variable {α : Type} {test : α → Bool} {l : List α} {a : α}

theorem placesOf_concat : placesOf test (l ++ [a]) =
    placesOf test l ++ if test a then [l.length] else [] := by
  rw [placesOf, List.zipIdx_append, List.filter_append, List.map_append, ← placesOf]
  by_cases h : test a <;> simp [h]

/-- At each of the places stands an element that satisfies the test. -/
theorem map_getElem?_placesOf : (placesOf test l).map (l[·]?) = (l.filter test).map some := by
  have hat : ∀ p ∈ l.zipIdx.filter fun p => test p.1, l[p.2]? = some p.1 := by
    intro p hp
    exact List.mem_zipIdx_iff_getElem?.mp (List.mem_filter.mp hp).1
  calc (placesOf test l).map (l[·]?)
      = (l.zipIdx.filter fun p => test p.1).map fun p => some p.1 := by
        rw [placesOf, List.map_map]
        exact List.map_congr_left hat
    _ = (((l.zipIdx.map (·.1)).filter test).map some) := by
        rw [List.filter_map, List.map_map]
        rfl
    _ = (l.filter test).map some := by rw [List.zipIdx_map_fst]

end

/-- Values under keys, each key once. -/
structure Keyed (κ α : Type) where
  entries : List (κ × α) := []

namespace Keyed

variable {κ α : Type} [DecidableEq κ]

/-- The value under a key. -/
def get? (t : Keyed κ α) (key : κ) : Option α := t.entries.lookup key

/-- Puts a value under a key, in place of the one that is there. -/
def insert (t : Keyed κ α) (key : κ) (value : α) : Keyed κ α :=
  ⟨(key, value) :: t.entries.filter (·.1 != key)⟩

theorem lookup_filter_ne {es : List (κ × α)} {key k : κ} (h : k ≠ key) :
    (es.filter (·.1 != key)).lookup k = es.lookup k := by
  induction es with
  | nil => rfl
  | cons e es ih =>
    by_cases he : e.1 = key
    · -- an entry that is dropped has another key
      rw [List.filter_cons_of_neg (by simp [he]), ih, List.lookup_cons, beq_false_of_ne (he ▸ h)]
    · rw [List.filter_cons_of_pos (by simp [he]), List.lookup_cons, List.lookup_cons, ih]

theorem get?_insert (t : Keyed κ α) (key k : κ) (value : α) :
    (t.insert key value).get? k = if k = key then some value else t.get? k := by
  rw [get?, insert, List.lookup_cons]
  by_cases h : k = key
  · simp [h]
  · rw [beq_false_of_ne h, if_neg h]
    exact lookup_filter_ne h

/-- The places under a key. -/
def places (t : Keyed κ (List Nat)) (key : κ) : List Nat := (t.get? key).getD []

/-- Adds a place behind those under a key. -/
def addPlace (t : Keyed κ (List Nat)) (key : κ) (place : Nat) : Keyed κ (List Nat) :=
  t.insert key (t.places key ++ [place])

theorem places_addPlace (t : Keyed κ (List Nat)) (key k : κ) (place : Nat) :
    (t.addPlace key place).places k = t.places k ++ if key = k then [place] else [] := by
  rw [addPlace, places, get?_insert]
  by_cases h : key = k
  · simp [h]
  · rw [if_neg (Ne.symm h), if_neg h, List.append_nil, places]

end Keyed

/-! ### The index -/

/-- The symbols of a file, in the order of their declarations, with a table for each way to look for
them. -/
structure SymbolIndex where
  symbols : List Symbol := []
  /-- The places of the symbols with a full name; overloads share one. -/
  byFullName : Keyed String (List Nat) := {}
  /-- The places of the symbols with a simple name. -/
  byName : Keyed String (List Nat) := {}
  /-- The place of the symbol added last for the declaration at an address. -/
  byAddress : Keyed Address Nat := {}
  places_byFullName : ∀ name, byFullName.places name = placesOf (·.fullName == name) symbols := by
    exact fun _ => rfl
  places_byName : ∀ name, byName.places name = placesOf (·.name == name) symbols := by
    exact fun _ => rfl
  get?_byAddress : ∀ address,
      byAddress.get? address = (placesOf (·.address? == some address) symbols).getLast? := by
    exact fun _ => rfl

namespace SymbolIndex

instance : Inhabited SymbolIndex := ⟨{}⟩

/-- Adds a symbol, which gets the next number and its names in normal form. -/
def add (x : SymbolIndex) (s : Symbol) : SymbolIndex :=
  let s := s.numbered x.symbols.length
  { symbols := x.symbols ++ [s]
    byFullName := x.byFullName.addPlace s.fullName s.id
    byName := x.byName.addPlace s.name s.id
    byAddress := match s.address? with
      | some address => x.byAddress.insert address s.id
      | none => x.byAddress
    places_byFullName := fun name => by
      simp [Keyed.places_addPlace, x.places_byFullName, placesOf_concat, s, Symbol.numbered]
    places_byName := fun name => by
      simp [Keyed.places_addPlace, x.places_byName, placesOf_concat, s, Symbol.numbered]
    get?_byAddress := fun address => by
      rw [placesOf_concat]
      cases h : s.address? with
      | none => simp [x.get?_byAddress]
      | some a =>
        rw [Keyed.get?_insert, x.get?_byAddress]
        by_cases ha : a = address
        · simp [ha, s, Symbol.numbered]
        · simp [ha, Ne.symm ha] }

theorem symbols_add (x : SymbolIndex) (s : Symbol) :
    (x.add s).symbols = x.symbols ++ [s.numbered x.symbols.length] := rfl

/-- Symbols added one after the other are numbered on. -/
theorem symbols_foldl_add (ss : List Symbol) (x : SymbolIndex) : (ss.foldl add x).symbols =
    x.symbols ++ (ss.zipIdx x.symbols.length).map fun p => p.1.numbered p.2 := by
  induction ss generalizing x with
  | nil => simp
  | cons s ss ih =>
    rw [List.foldl_cons, ih, List.zipIdx_cons, List.map_cons, symbols_add]
    simp

theorem symbols_eq (ss : List Symbol) :
    (ss.foldl add {}).symbols = ss.zipIdx.map fun p => p.1.numbered p.2 :=
  symbols_foldl_add ss {}

/-- The index to which some symbols were added, one after the other. -/
def ofSymbols (ss : List Symbol) : SymbolIndex := ss.foldl add {}

/-- The symbol with a number. -/
def symbol? (x : SymbolIndex) (id : Int) : Option Symbol :=
  if id < 0 then none else x.symbols[id.toNat]?

/-- The symbols at some places. -/
def collect (x : SymbolIndex) (places : List Nat) : List Symbol := places.filterMap (x.symbols[·]?)

/-- The symbols with a full name; overloads share one. -/
def withFullName (x : SymbolIndex) (name : String) : List Symbol :=
  x.collect (x.byFullName.places (Text.normalize name))

/-- The symbols with a simple name. -/
def withName (x : SymbolIndex) (name : String) : List Symbol :=
  x.collect (x.byName.places (Text.normalize name))

/-- The symbol added last for the declaration at an address. -/
def ofDecl? (x : SymbolIndex) (address : Address) : Option Symbol :=
  (x.byAddress.get? address).bind (x.symbols[·]?)

section

variable (x : SymbolIndex)

/-- No place is lost where the symbols at the places of a test are collected. -/
theorem collect_placesOf (test : Symbol → Bool) :
    x.collect (placesOf test x.symbols) = x.symbols.filter test := by
  calc x.collect (placesOf test x.symbols)
      = ((placesOf test x.symbols).map (x.symbols[·]?)).filterMap id := by
        rw [List.filterMap_map]
        rfl
    _ = x.symbols.filter test := by
        rw [map_getElem?_placesOf, List.filterMap_map]
        exact List.filterMap_some

theorem withFullName_eq (name : String) :
    x.withFullName name = x.symbols.filter (·.fullName == Text.normalize name) := by
  rw [withFullName, x.places_byFullName, collect_placesOf]

theorem withName_eq (name : String) :
    x.withName name = x.symbols.filter (·.name == Text.normalize name) := by
  rw [withName, x.places_byName, collect_placesOf]

theorem ofDecl?_eq (address : Address) :
    x.ofDecl? address = (x.symbols.filter (·.address? == some address)).getLast? := by
  have hlast : ((placesOf (·.address? == some address) x.symbols).map (x.symbols[·]?)).getLast? =
      ((x.symbols.filter (·.address? == some address)).map some).getLast? := by
    rw [map_getElem?_placesOf]
  rw [List.getLast?_map, List.getLast?_map] at hlast
  calc x.ofDecl? address
      = ((placesOf (·.address? == some address) x.symbols).getLast?.map
          (x.symbols[·]?)).bind id := by
        rw [Option.bind_map, ofDecl?, x.get?_byAddress]
        rfl
    _ = (x.symbols.filter (·.address? == some address)).getLast? := by
        rw [hlast, Option.bind_map]
        exact Option.bind_fun_some _

end

/-- The type that a written name refers to: one with that full name, else one with the last segment
of the name as its simple name. The empty name refers to nothing. -/
def resolveType (x : SymbolIndex) (name : String) : Option Symbol :=
  if name.isEmpty then none
  else ((x.withFullName name).find? (·.kind.isType)).or
    ((x.withName (lastSegment name)).find? (·.kind.isType))

/-- The types, in the order of their declarations. -/
def types (x : SymbolIndex) : List Symbol := x.symbols.filter (·.kind.isType)

/-- The members declared directly in the type with a full name. -/
def members (x : SymbolIndex) (container : String) : List Symbol :=
  x.symbols.filter fun s => s.container == container && !s.kind.isType

end SymbolIndex

/-- The types of the referenced assemblies. -/
structure ExternalSymbols where
  /-- The full names of the types, in normal form, each once. -/
  types : List String := []
  /-- The namespaces of the types, in normal form, each once. -/
  namespaces : List String := []
  /-- The assemblies that were read. -/
  sources : List String := []
  deriving Inhabited

namespace ExternalSymbols

/-- Adds a name to others unless it is among them. -/
def join (names : List String) (name : String) : List String :=
  if names.contains name then names else names ++ [name]

/-- Adds a type and its namespace. -/
def addType (e : ExternalSymbols) (namespaceName name : String) : ExternalSymbols :=
  let e := if namespaceName.isEmpty then e
    else { e with namespaces := join e.namespaces (Text.normalize namespaceName) }
  { e with types := join e.types (Text.normalize (DeclPath.dotted namespaceName name)) }

/-- Whether a type with a full name was added. -/
def hasType (e : ExternalSymbols) (fullName : String) : Bool :=
  e.types.contains (Text.normalize fullName)

end ExternalSymbols

/-! ### The symbols of a file -/

/-- What a kind of type declaration names. -/
def TypeKind.symbolKind : TypeKind → SymbolKind
  | .classType => .classType
  | .struct | .recordStruct => .structType
  | .interface => .interfaceType
  | .enum => .enumType
  | .record => .recordType

/-- What a member declaration names, fields and delegates apart. -/
def Node.memberKind? : Node → Option SymbolKind
  | .method _ => some .method
  | .constructor _ => some .constructor
  | .property _ => some .property
  | .event _ => some .event
  | _ => none

/-- The full name of the type around the innermost type of a path. -/
def DeclPath.outerName (p : DeclPath) : String :=
  if p.types.length < 2 then "" else { p with types := p.types.dropLast : DeclPath }.typeName

namespace Declared

/-- The symbols that a declaration introduces: one for each variable of a field, one for any other
type or member, none for a namespace. -/
def symbols (d : Declared) : List Symbol :=
  let base : Symbol :=
    { name := d.node.declaredName, fullName := d.path.declName d.node, kind := default
      namespaceName := d.path.namespaceName, modifiers := d.node.modifiers
      span := d.node.nameSpan, container := d.path.typeName, decl := some (d.address, d.node) }
  match d.node with
  | .typeDecl t =>
    [{ base with
      fullName := d.path.typeName, kind := t.kind.symbolKind, container := d.path.outerName }]
  | .delegate _ =>
    [{ base with
      kind := .delegateType
      container := if d.path.types.isEmpty then "" else d.path.typeName }]
  | .field f => f.vars.map fun v =>
    { base with
      name := v.name, fullName := d.path.memberName v.name, kind := .field, span := v.nameSpan }
  | n => n.memberKind?.toList.map fun kind => { base with kind }

end Declared

/-- The symbols of a file, in source order. -/
def symbolIndex (u : CompilationUnit Node) : SymbolIndex :=
  (u.declarations.flatMap Declared.symbols).foldl SymbolIndex.add {}

end CSharpAudit
