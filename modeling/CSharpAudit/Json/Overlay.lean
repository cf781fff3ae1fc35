import CSharpAudit.Json.Basic
import CSharpAudit.Number.Basic
import CSharpAudit.Text.Case

/-!
# Laying JSON over a value

A JSON object changes the fields of a value that it names and leaves the others as they are. Names
of fields match whatever their case, unknown names are ignored, and `null` changes nothing. A value
of the wrong kind makes the whole object useless.

## Main definitions

* `Overlay` — how a JSON value changes a value
* `Overlay.fields` — from the overlays of the single fields
-/

namespace CSharpAudit

/-- How a JSON value changes a value; nothing if it is of the wrong kind. -/
abbrev Overlay (α : Type) := α → Json → Option α

namespace Overlay

variable {α β : Type}

/-- A name in the form in which names are compared. -/
def foldName (s : String) : String := s.map fun c => Text.toLower (Text.toUpper c)

/-- Changes the fields that an object names. -/
def fields (known : List (String × Overlay α)) : Overlay α
  | a, .null => some a
  | a, .object entries => entries.foldlM (fun a (name, v) =>
      match known.find? fun f => foldName f.1 == foldName name with
      | some (_, change) => change a v
      | none => some a) a
  | _, _ => none

/-- Changes a part of a value. -/
def part (get : α → β) (set : α → β → α) (change : Overlay β) : Overlay α :=
  fun a v => (change (get a) v).map (set a)

/-- The whole number that a literal writes, without fraction or exponent, if it fits into 64
bits. -/
def intOfLiteral? (literal : String) : Option Int :=
  literal.toInt?.filter fun n => minInt ≤ n && n ≤ maxInt

/-- A whole number. -/
def int : Overlay Int
  | a, .null => some a
  | _, .number literal => intOfLiteral? literal
  | _, _ => none

/-- A truth value. -/
def bool : Overlay Bool
  | a, .null => some a
  | _, .bool b => some b
  | _, _ => none

/-- A text. -/
def string : Overlay String
  | a, .null => some a
  | _, .string s => some s
  | _, _ => none

/-- A list, whose items are laid over those that were there; `zero` stands for those that were
not. -/
def list (zero : α) (item : Overlay α) : Overlay (List α)
  | _, .null => some []
  | as, .array vs => (vs.zip (as ++ List.replicate vs.length zero)).mapM fun (v, a) => item a v
  | _, _ => none

/-- A section that may be missing. -/
def optional (zero : α) (inner : Overlay α) : Overlay (Option α)
  | _, .null => some none
  | a, v => (inner (a.getD zero) v).map some

end Overlay

end CSharpAudit
