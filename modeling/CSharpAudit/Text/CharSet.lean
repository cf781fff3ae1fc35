/-!
# Sets of characters

A character property of the Unicode standard is a set given by ascending ranges of code points.
White space is the set that is needed everywhere: words are separated by it. A text is cut at each
place where a character stands; a text in which it does not stand is one piece.

## Main definitions

* `CharSet` — ascending, disjoint ranges of code points, both ends included
* `CharSet.contains` — membership
* `isBlank` — the property `White_Space`
* `trimBlank` — a text without white space at its ends
* `words` — the words of a text
* `cutAt` — the pieces of a text between the places of a character
-/

namespace CSharpAudit.Text

/-- A set of characters as ascending, disjoint ranges of code points, both ends included. -/
structure CharSet where
  ranges : Array (Nat × Nat)

/-- Whether a character lies in one of the ranges. -/
def CharSet.contains (s : CharSet) (c : Char) : Bool :=
  s.ranges.any fun (lo, hi) => lo ≤ c.toNat && c.toNat ≤ hi

/-! ### White space -/

/-- The characters with the property `White_Space`. -/
def blanks : CharSet where
  ranges := #[
    (0x9, 0xD), (0x20, 0x20), (0x85, 0x85), (0xA0, 0xA0), (0x1680, 0x1680), (0x2000, 0x200A),
    (0x2028, 0x2029), (0x202F, 0x202F), (0x205F, 0x205F), (0x3000, 0x3000)]

/-- Whether a character is white space. -/
def isBlank (c : Char) : Bool := blanks.contains c

/-- A text without the white space at its two ends. -/
def trimBlank (s : String) : String :=
  String.ofList (((s.toList.dropWhile isBlank).reverse.dropWhile isBlank).reverse)

/-- The words of a list of characters, which are separated by white space; `word` holds the
characters of the word being read, last first. -/
def wordsFrom (word : List Char) : List Char → List String
  | [] => if word.isEmpty then [] else [String.ofList word.reverse]
  | c :: cs =>
    if isBlank c then
      if word.isEmpty then wordsFrom [] cs else String.ofList word.reverse :: wordsFrom [] cs
    else wordsFrom (c :: word) cs

/-- The words of a text, which are separated by white space. -/
def words (s : String) : List String := wordsFrom [] s.toList

/-! ### Pieces -/

/-- The pieces of a text between the places where `mark` stands. -/
def cutAt (mark : Char) (s : String) : List String := (s.toList.splitOn mark).map String.ofList

/-- Two texts agree on either side of the last place where a character stands. -/
theorem append_cons_inj {c : Char} {a b x y : List Char} (hx : c ∉ x) (hy : c ∉ y)
    (h : a ++ c :: x = b ++ c :: y) : a = b ∧ x = y := by
  have hnone {t x y : List Char} (hx : c ∉ x) (h : c :: x = t ++ c :: y) : t = [] ∧ x = y := by
    rcases List.cons_eq_append_iff.mp h with ⟨rfl, h⟩ | ⟨t, -, rfl⟩
    · exact ⟨rfl, (List.cons.inj h).2⟩
    · exact absurd (List.mem_append_right t List.mem_cons_self) hx
  rcases List.append_eq_append_iff.mp h with ⟨t, rfl, hback⟩ | ⟨t, rfl, hback⟩
  · obtain ⟨rfl, rfl⟩ := hnone hx hback
    exact ⟨(List.append_nil a).symm, rfl⟩
  · obtain ⟨rfl, rfl⟩ := hnone hy hback
    exact ⟨List.append_nil b, rfl⟩

end CSharpAudit.Text
