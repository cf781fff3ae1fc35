import CSharpAudit.Text.Composition

/-!
# Normal form of texts

Some characters can be written in several ways, such as a letter with an accent as one character or
as two. The composed normal form is the same for all of them: every character is taken apart, marks
are put in order of their classes, and what composes is composed.

A text is normalized segment by segment. A segment is a starter with the marks behind it; what needs
no change is passed over. So that a segment fits into a buffer of fixed size, it has at most thirty
marks, and a joiner is put between the marks of a longer one.

Pairs are looked up by the lower sixteen bits of their characters.

## Main definitions

* `NormalForm.decompose` — a character taken apart
* `NormalForm.Traits` — what matters of a character
* `NormalForm.stableLength` — how much of a text needs no change
* `NormalForm.compose` — the characters of a segment, composed
* `normalize` — the composed normal form of a text
-/

namespace CSharpAudit.Text

namespace NormalForm

open CSharpAudit.Text.Composition

/-! ### Hangul syllables -/

/-- The first syllable. -/
def syllableBase : Nat := 0xAC00
/-- The first leading consonant. -/
def leadBase : Nat := 0x1100
/-- The first vowel. -/
def vowelBase : Nat := 0x1161
/-- The place before the first trailing consonant. -/
def trailBase : Nat := 0x11A7
/-- The number of leading consonants. -/
def leadCount : Nat := 19
/-- The number of vowels. -/
def vowelCount : Nat := 21
/-- The number of trailing consonants, none included. -/
def trailCount : Nat := 28

/-- Whether a number is that of a syllable. -/
def isSyllable (n : Nat) : Bool :=
  syllableBase ≤ n && n < syllableBase + leadCount * vowelCount * trailCount

/-- Whether a number is that of a syllable without a trailing consonant. -/
def isOpenSyllable (n : Nat) : Bool := isSyllable n && (n - syllableBase) % trailCount == 0

/-- Whether a number belongs to the block of the letters of syllables. -/
def isSyllableLetter (n : Nat) : Bool := n / 0x100 == 0x11

/-- Whether a character is a letter that joins a syllable before it. -/
def endsSyllable (n : Nat) : Bool :=
  (vowelBase ≤ n && n < vowelBase + vowelCount) || (trailBase ≤ n && n < trailBase + trailCount)

/-- The letters of a syllable. -/
def syllableLetters (n : Nat) : List Nat :=
  let s := n - syllableBase
  let trail := s % trailCount
  [leadBase + s / (vowelCount * trailCount), vowelBase + s / trailCount % vowelCount]
    ++ if trail == 0 then [] else [trailBase + trail]

/-- The syllable that two characters compose to. -/
def syllableOf? (a b : Nat) : Option Nat :=
  if leadBase ≤ a && a < leadBase + leadCount && vowelBase ≤ b && b < vowelBase + vowelCount then
    some (syllableBase + ((a - leadBase) * vowelCount + (b - vowelBase)) * trailCount)
  else if isOpenSyllable a && trailBase < b && b < trailBase + trailCount then
    some (a + (b - trailBase))
  else none

/-! ### Taking apart -/

/-- The character that another one is equivalent to. -/
def single? (n : Nat) : Option Nat :=
  (singles ++ longSingles).findSome? fun (first, others) =>
    if first ≤ n then others[n - first]? else none

/-- The two characters that another one is equivalent to. -/
def pair? (n : Nat) : Option (Nat × Nat) :=
  ((composedPairs.find? (·.1 == n)).or (splitPairs.find? (·.1 == n))).map (·.2)

/-- A character taken apart; what it is equivalent to is taken apart by `deeper`. -/
def takeApart (deeper : Nat → List Nat) (n : Nat) : List Nat :=
  if n < 0xC0 then [n]
  else if isSyllable n then syllableLetters n
  else match pair? n with
    | some (a, b) => deeper a ++ deeper b
    | none => match single? n with
      | some a => deeper a
      | none => [n]

/-- A character taken apart; no chain of equivalences is longer than `fuel`. -/
def decomposeWith : Nat → Nat → List Nat
  | 0, n => [n]
  | fuel + 1, n => takeApart (decomposeWith fuel) n

/-- A character taken apart. -/
def decompose (n : Nat) : List Nat := decomposeWith 8 n

/-! ### Traits of characters -/

/-- The combining class of a character. -/
def combiningClass (n : Nat) : Nat :=
  if n < 0x300 then 0
  else ((combiningClasses.find? fun (lo, hi, _) => lo ≤ n && n ≤ hi).map (·.2.2)).getD 0

/-- Whether a character may be composed with one before it. -/
def joinsBackward (n : Nat) : Bool :=
  0x300 ≤ n && (endsSyllable n || composedPairs.any (·.2.2 == n))

/-- Whether a character belongs to the segment of the one before it. -/
def isMark (n : Nat) : Bool := combiningClass n != 0 || joinsBackward n

/-- What matters of a character. -/
structure Traits where
  /-- The combining class of the first character that it is taken apart to. -/
  combining : Nat
  /-- Whether it may be composed with one before it. -/
  joins : Bool
  /-- Whether it stands in a composed text, whatever is around it. -/
  stable : Bool
  /-- The number of marks that it begins with. -/
  leading : Nat
  /-- The number of marks that it ends with. -/
  trailing : Nat

/-- The traits of a character. -/
def traits (n : Nat) : Traits :=
  if n < 0x80 then ⟨0, false, true, 0, 0⟩
  else if isSyllable n then ⟨0, false, true, 0, if isOpenSyllable n then 1 else 2⟩
  else
    let parts := decompose n
    let whole := parts == [n]
    let joins := whole && joinsBackward n
    let counts := ((markCounts.find? fun (lo, hi, _) => lo ≤ n && n ≤ hi).map (·.2.2)).getD
      ((parts.takeWhile isMark).length, (parts.reverse.takeWhile isMark).length)
    { combining := combiningClass (parts.headD n), joins
      stable := if whole then !joins else composedPairs.any (·.1 == n)
      leading := counts.1, trailing := counts.2 }

/-! ### Segments -/

/-- The greatest number of marks in a segment. -/
def maxMarks : Nat := 30

/-- The joiner between the marks of a segment that is too long. -/
def joiner : Nat := 0x34F

/-- What a character does to a segment: it begins another one, it does not fit, or it belongs to it;
then, the number of marks so far. -/
inductive Place where
  | start (marks : Nat)
  | overflow
  | inside (marks : Nat)

/-- The place of a character behind so many marks. -/
def place (marks : Nat) (t : Traits) : Place :=
  if marks + t.leading > maxMarks then .overflow
  else if t.leading == 0 then .start t.trailing
  else .inside (marks + t.leading)

/-- How many characters of a text need no change, and whether these are all. `index` is the place in
the text, `segment` that of the present segment, `last` the class of the character before, and
`marks` the number of marks so far. -/
def stableFrom (index segment last marks : Nat) : List Nat → Nat × Bool
  | [] => (index, true)
  | c :: cs =>
    if c < 0x80 then stableFrom (index + 1) index 0 0 cs
    else
      let t := traits c
      match place marks t with
      | .overflow => (segment, false)
      | .start marks =>
        if t.stable then stableFrom (index + 1) index t.combining marks cs else (index, false)
      | .inside marks =>
        if last > t.combining || !t.stable then (segment, false)
        else stableFrom (index + 1) segment t.combining marks cs

/-- How many characters of a text need no change, and whether these are all. -/
def stableLength (cs : List Nat) : Nat × Bool := stableFrom 0 0 0 0 cs

/-- A character of a segment with its combining class and whether it joins one before it. -/
structure Item where
  char : Nat
  combining : Nat
  joins : Bool

/-- Puts a character at the end of a segment, a mark before those of higher classes; the segment is
given from its end. -/
def insertItem (x : Item) : List Item → List Item
  | [] => [x]
  | y :: ys => if x.combining > 0 && y.combining > x.combining then y :: insertItem x ys
    else x :: y :: ys

/-! ### Composing -/

/-- The lower sixteen bits of a number. -/
def low16 (n : Nat) : Nat := n % 0x10000

/-- The character that two others compose to. -/
def compose? (a b : Nat) : Option Nat :=
  (composedPairs.find? fun (_, x, y) => low16 x == low16 a && low16 y == low16 b).map (·.1)

/-- A segment that is being composed: the characters before the one that others are composed with,
this one, and those behind it, the last first. -/
structure Composing where
  before : List Item
  base : Item
  behind : List Item

namespace Composing

/-- The last character. -/
def last (s : Composing) : Item := s.behind.headD s.base

/-- Composes with the last character from now on, if it is a starter. -/
def rebase (s : Composing) : Composing :=
  match s.behind with
  | x :: rest => if x.combining == 0 then ⟨rest ++ s.base :: s.before, x, []⟩ else s
  | [] => s

/-- Whether a character is kept from the base by one between them. -/
def blocks (s : Composing) (x : Item) : Bool :=
  s.last.combining != 0 && !s.behind.isEmpty && s.last.combining ≥ x.combining

def push (s : Composing) (x : Item) : Composing := { s with behind := x :: s.behind }

/-- Composes a character with the base, if that gives one. -/
def join (s : Composing) (x : Item) (composed : Option Nat) : Composing :=
  match composed with
  | some c => if s.blocks x then s.push x else { s with base := ⟨c, 0, false⟩ }
  | none => s.push x

/-- Adds characters of which one is a letter of a syllable; only syllables are composed then. -/
def addLetters (s : Composing) : List Item → Composing
  | [] => s
  | x :: xs =>
    let s := s.rebase
    (s.join x (syllableOf? s.base.char x.char)).addLetters xs

/-- Adds characters. -/
def add (s : Composing) : List Item → Composing
  | [] => s
  | x :: xs =>
    if isSyllableLetter x.char then s.addLetters (x :: xs)
    else if x.joins then
      let s := s.rebase
      (s.join x (compose? s.base.char x.char)).add xs
    else (s.push x).add xs

/-- The characters in their order. -/
def chars (s : Composing) : List Nat :=
  ((s.behind ++ s.base :: s.before).reverse).map (·.char)

end Composing

/-- The characters of a segment, composed; the segment is given from its end. -/
def compose (segment : List Item) : List Nat :=
  match segment.reverse with
  | [] => []
  | x :: xs => ((Composing.mk [] x []).add xs).chars

/-! ### Normalizing -/

/-- A segment that is being read, from its end, and the characters before it, the last first. -/
structure Segment where
  done : List Nat := []
  items : List Item := []

namespace Segment

/-- Ends a segment. -/
def flush (s : Segment) : Segment := ⟨(compose s.items).reverse ++ s.done, []⟩

/-- Adds a character that cannot be taken apart, which may begin another segment. -/
def addPart (s : Segment) (n : Nat) : Segment :=
  let t := traits n
  let s := if t.combining == 0 && !t.joins && !s.items.isEmpty then s.flush else s
  { s with items := insertItem ⟨n, t.combining, t.joins⟩ s.items }

/-- Adds a character, taken apart. -/
def add (s : Segment) (n : Nat) (t : Traits) : Segment :=
  if isSyllable n then
    { s with items := (syllableLetters n).reverse.map (⟨·, 0, false⟩) ++ s.items }
  else
    let parts := decompose n
    if parts == [n] then { s with items := insertItem ⟨n, t.combining, t.joins⟩ s.items }
    else parts.foldl addPart s

/-- Adds the joiner. -/
def addJoiner (s : Segment) : Segment := { s with items := insertItem ⟨joiner, 0, false⟩ s.items }

/-- Reads the rest of a segment, and gives the number of marks so far and what follows. -/
def read (s : Segment) (marks : Nat) : List Nat → Segment × Nat × List Nat
  | [] => (s.flush, marks, [])
  | c :: cs =>
    let t := traits c
    match place marks t with
    | .start marks => (s.flush, marks, c :: cs)
    | .overflow => (s.addJoiner.flush, 0, c :: cs)
    | .inside marks => (s.add c t).read marks cs

/-- Reads a segment. Its first character belongs to it in any case, unless it does not fit. -/
def readFirst (s : Segment) (marks : Nat) : List Nat → Segment × Nat × List Nat
  | [] => (s, marks, [])
  | c :: cs =>
    let t := traits c
    match place marks t with
    | .overflow => (s.addJoiner.flush, 0, c :: cs)
    | .start marks | .inside marks => (s.add c t).read marks cs

end Segment

/-- Normalizes characters behind others, segment by segment. A segment that does not fit is tried
again, so there are at most two steps for each character. -/
def normalizeFrom : Nat → (done : List Nat) → (marks : Nat) → List Nat → List Nat
  | 0, done, _, _ => done.reverse
  | _, done, _, [] => done.reverse
  | fuel + 1, done, marks, cs =>
    let (s, marks, rest) := Segment.readFirst { done } marks cs
    let stable := (stableLength rest).1
    normalizeFrom fuel ((rest.take stable).reverse ++ s.done) marks (rest.drop stable)

end NormalForm

open NormalForm in
/-- The composed normal form of a text. -/
def normalize (s : String) : String :=
  let cs := s.toList.map Char.toNat
  match stableLength cs with
  | (_, true) => s
  | (n, false) =>
    let done := normalizeFrom (2 * cs.length + 1) (cs.take n).reverse 0 (cs.drop n)
    String.ofList (done.map Char.ofNat)

end CSharpAudit.Text
