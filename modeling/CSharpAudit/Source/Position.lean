/-!
# Places in source text

A position is a line and a column, both counted from one; columns count bytes. A span is a half-open
range of byte offsets. Every token and every syntax node carries one.

## Main definitions

* `Position` — a line and a column
* `Position.after` — the position reached after reading some bytes
* `Position.ofOffset` — the position of a byte offset, the offset being clamped to the text
* `Span` — the range `[start, stop)`
* `Span.length` — the number of bytes covered, zero for an inverted range
-/

namespace CSharpAudit

/-- The byte that ends a line. -/
def newline : UInt8 := 10

/-- A place in a source text, both numbers counted from one, columns in bytes. -/
structure Position where
  line : Nat := 1
  column : Nat := 1
  deriving DecidableEq, Repr, Inhabited

namespace Position

/-- The position behind one more byte. -/
def step (p : Position) (b : UInt8) : Position :=
  if b == newline then ⟨p.line + 1, 1⟩ else ⟨p.line, p.column + 1⟩

/-- The position reached by reading some bytes from the start of a text. -/
def after (bs : List UInt8) : Position := bs.foldl step {}

/-- The position of a byte offset; an offset behind the text is that of its end. -/
def ofOffset (source : List UInt8) (offset : Nat) : Position := after (source.take offset)

end Position

/-- A half-open range `[start, stop)` of byte offsets into a source text. -/
structure Span where
  start : Nat
  stop : Nat
  deriving DecidableEq, Repr, Inhabited

namespace Span

/-- The span of a node that stands for no text, such as an omitted type argument. -/
def none : Span := ⟨0, 0⟩

/-- The number of bytes a span covers; an inverted span covers none. -/
def length (s : Span) : Nat := s.stop - s.start

/-- `s.Within t` says that the range of `s` lies inside the range of `t`. -/
def Within (s t : Span) : Prop := t.start ≤ s.start ∧ s.stop ≤ t.stop

instance (s t : Span) : Decidable (s.Within t) := inferInstanceAs (Decidable (_ ∧ _))

theorem Within.refl (s : Span) : s.Within s := ⟨Nat.le_refl _, Nat.le_refl _⟩

theorem Within.trans {s t u : Span} (h : s.Within t) (h' : t.Within u) : s.Within u :=
  ⟨Nat.le_trans h'.1 h.1, Nat.le_trans h.2 h'.2⟩

end Span

end CSharpAudit
