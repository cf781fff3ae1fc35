/-!
# Declaration modifiers

A declaration carries a set of modifiers such as `public` or `static`. The set is a bit mask whose
bits follow the canonical order of the modifiers, so two sets are equal exactly when they hold the
same modifiers.

## Main definitions

* `Modifier` — one modifier
* `Modifier.all` — every modifier, in canonical order
* `Modifiers` — a set of modifiers
* `Modifiers.text` — the modifiers of a set, in canonical order, joined by blanks
-/

namespace CSharpAudit

/-- A modifier of a declaration. -/
inductive Modifier where
  | publicAccess | privateAccess | protectedAccess | internalAccess
  | staticMember | abstractMember | virtualMember | overrideMember | sealedMember
  | readonlyField | constant | async | partialDecl | externalBody | newMember | unsafeCode
  | volatileField | required | file
  deriving DecidableEq, Repr, Inhabited

namespace Modifier

/-- Every modifier, in canonical order. -/
def all : List Modifier :=
  [.publicAccess, .privateAccess, .protectedAccess, .internalAccess, .staticMember,
   .abstractMember, .virtualMember, .overrideMember, .sealedMember, .readonlyField, .constant,
   .async, .partialDecl, .externalBody, .newMember, .unsafeCode, .volatileField, .required, .file]

/-- The word that writes a modifier. -/
def word : Modifier → String
  | publicAccess => "public"
  | privateAccess => "private"
  | protectedAccess => "protected"
  | internalAccess => "internal"
  | staticMember => "static"
  | abstractMember => "abstract"
  | virtualMember => "virtual"
  | overrideMember => "override"
  | sealedMember => "sealed"
  | readonlyField => "readonly"
  | constant => "const"
  | async => "async"
  | partialDecl => "partial"
  | externalBody => "extern"
  | newMember => "new"
  | unsafeCode => "unsafe"
  | volatileField => "volatile"
  | required => "required"
  | file => "file"

/-- The position of a modifier in canonical order, which is also its bit in a set. -/
def index (m : Modifier) : Nat := all.idxOf m

/-- The modifier that a word writes. -/
def ofWord? (w : String) : Option Modifier := all.find? (·.word == w)

theorem mem_all (m : Modifier) : m ∈ all := by cases m <;> decide

end Modifier

/-- A set of modifiers, as a mask with bit `m.index` set for each member `m`. -/
structure Modifiers where
  mask : Nat
  deriving DecidableEq, Repr, Inhabited

namespace Modifiers

/-- The set without members. -/
def empty : Modifiers := ⟨0⟩

/-- The set with one member. -/
def single (m : Modifier) : Modifiers := ⟨1 <<< m.index⟩

/-- The union of two sets. -/
def union (a b : Modifiers) : Modifiers := ⟨a.mask ||| b.mask⟩

/-- Adds a modifier to a set. -/
def insert (ms : Modifiers) (m : Modifier) : Modifiers := ms.union (single m)

/-- Whether a modifier belongs to a set. -/
def has (ms : Modifiers) (m : Modifier) : Bool := ms.mask.testBit m.index

/-- Whether every one of some modifiers belongs to a set. -/
def hasAll (ms : Modifiers) (mods : List Modifier) : Bool := mods.all ms.has

/-- Whether a set holds any accessibility modifier. -/
def hasAccess (ms : Modifiers) : Bool :=
  [Modifier.publicAccess, .privateAccess, .protectedAccess, .internalAccess].any ms.has

/-- The members of a set, in canonical order. -/
def toList (ms : Modifiers) : List Modifier := Modifier.all.filter ms.has

/-- The set of the given modifiers. -/
def ofList (mods : List Modifier) : Modifiers := mods.foldl insert empty

/-- The words of the members, in canonical order, joined by blanks. -/
def text (ms : Modifiers) : String := " ".intercalate (ms.toList.map Modifier.word)

@[simp] theorem has_empty (m : Modifier) : empty.has m = false := by simp [has, empty]

theorem has_union (a b : Modifiers) (m : Modifier) :
    (a.union b).has m = (a.has m || b.has m) := by
  simp [has, union, Nat.testBit_or]

theorem has_single (m n : Modifier) : (single m).has n = decide (m = n) := by
  cases m <;> cases n <;> decide

theorem has_insert (ms : Modifiers) (m n : Modifier) :
    (ms.insert m).has n = (ms.has n || decide (m = n)) := by
  rw [insert, has_union, has_single]

theorem mem_toList {ms : Modifiers} {m : Modifier} : m ∈ ms.toList ↔ ms.has m = true := by
  simp [toList, Modifier.mem_all]

end Modifiers

end CSharpAudit
