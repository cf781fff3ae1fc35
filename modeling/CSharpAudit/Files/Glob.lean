/-!
# Glob patterns

A pattern describes paths. A star stands for any characters but the slash, a question mark for one,
brackets for one of a class, braces for alternatives, and two stars that fill a part of the path for
any number of parts. A backslash takes the meaning from the character behind it.

A path is matched from left to right. Where it fails, the last star takes one more character, and
where it cannot, the last pair of stars one more part.

## Main definitions

* `Glob.wellFormed` — whether all brackets and braces of a pattern are closed
* `Glob.Class.find` — whether a class holds a character
* `Glob.alternatives?` — the patterns that one with braces at its head stands for
* `Glob.move` — what a pattern does at a character of the path
* `Glob.search` — the search for a match
* `Glob.describes` — whether a pattern describes a path
-/

namespace CSharpAudit.Glob

/-! ### Patterns -/

/-- Whether the rest of a pattern is well formed: inside a class it must be closed, and behind it as
many braces must be closed as have been opened. -/
def wellFormedFrom : (inClass : Bool) → (depth : Nat) → List Char → Bool
  | true, _, [] => false
  | true, _, ['\\'] => false
  | true, depth, '\\' :: _ :: rest => wellFormedFrom true depth rest
  | true, depth, ']' :: rest => wellFormedFrom false depth rest
  | true, depth, _ :: rest => wellFormedFrom true depth rest
  | false, depth, [] => depth == 0
  | false, _, ['\\'] => false
  | false, depth, '\\' :: _ :: rest => wellFormedFrom false depth rest
  | false, depth, '[' :: rest => match rest with
    | '^' :: rest | '!' :: rest => rest.head? != some ']' && wellFormedFrom true depth rest
    | rest => rest.head? != some ']' && wellFormedFrom true depth rest
  | false, depth, '{' :: rest => wellFormedFrom false (depth + 1) rest
  | false, depth, '}' :: rest => match depth with
    | 0 => false
    | depth + 1 => wellFormedFrom false depth rest
  | false, depth, _ :: rest => wellFormedFrom false depth rest

/-- Whether all brackets and braces of a pattern are closed. -/
def wellFormed (pattern : String) : Bool := wellFormedFrom false 0 pattern.toList

/-- The rest of a pattern behind the end of the class it is in. -/
def behindClass? : List Char → Option (List Char)
  | [] => none
  | '\\' :: rest => match rest with
    | [] => none
    | _ :: rest => behindClass? rest
  | ']' :: rest => some rest
  | _ :: rest => behindClass? rest

/-- What stands between braces, cut at its commas, and the rest of the pattern behind them. `depth`
counts the braces inside, `part` are the characters since the last comma, the last first. -/
def splitBraces? (depth : Nat) (part : List Char) :
    List Char → Option (List (List Char) × List Char)
  | [] => none
  | '\\' :: rest => match rest with
    | [] => none
    | c :: rest => splitBraces? depth (c :: '\\' :: part) rest
  | '{' :: rest => splitBraces? (depth + 1) ('{' :: part) rest
  | '}' :: rest => match depth with
    | 0 => some ([part.reverse], rest)
    | depth + 1 => splitBraces? depth ('}' :: part) rest
  | ',' :: rest =>
    if depth == 0 then
      (splitBraces? 0 [] rest).map fun (parts, rest) => (part.reverse :: parts, rest)
    else splitBraces? depth (',' :: part) rest
  | c :: rest => splitBraces? depth (c :: part) rest

/-- The patterns that one stands for whose head is an opening brace, without that brace. -/
def alternatives? (pattern : List Char) : Option (List (List Char)) :=
  (splitBraces? 0 [] pattern).map fun (parts, rest) => parts.map (· ++ rest)

/-! ### Classes -/

namespace Class

/-- The character at the head of a list and the rest; the end counts as an unknown character. -/
def next : List Char → Char × List Char
  | [] => ('\uFFFD', [])
  | c :: rest => (c, rest)

/-- Looks for a character in a class, and gives the rest of the pattern where the search ended.
`last` is the character before, from which a range may start. -/
def find (x : Char) : Nat → (last : Option Char) → List Char → Bool × List Char
  | fuel + 1, last, c :: rest =>
    if c == ']' then (false, c :: rest)
    else match last, c == '-' && rest.head?.any (· != ']') with
      | some low, true =>
        let (high, rest) := next (if rest.head? == some '\\' then rest.drop 1 else rest)
        if low ≤ x && x ≤ high then (true, rest) else find x fuel none rest
      | _, _ =>
        let (c, rest) := if c == '\\' then next rest else (c, rest)
        if c == x then (true, rest) else find x fuel (some c) rest
  | _, _, rest => (false, rest)

/-- What comes of a class at a character: the class may not end, it may not fit, or the pattern goes
on behind it. -/
inductive Outcome where
  | unclosed
  | unfit (pattern : List Char)
  | fits (pattern : List Char)

/-- Tries a class, whose opening bracket has been read, at a character. -/
def fit (x : Char) (pattern : List Char) : Outcome :=
  let (negated, body) := match pattern with
    | '!' :: rest | '^' :: rest => (true, rest)
    | rest => (false, rest)
  if body.head?.all (· == ']') then .unclosed
  else
    let (found, rest) := find x body.length none body
    if found == negated then if rest.isEmpty then .unclosed else .unfit rest
    else match behindClass? rest with
      | none => .unclosed
      | some rest => .fits rest

end Class

/-! ### Matching -/

/-- Where a search stands: what is left of the pattern and of the path, and where it goes on if it
fails. -/
structure Search where
  pattern : List Char
  name : List Char
  /-- Whether a part of the path begins here. -/
  atStart : Bool := true
  /-- The pattern behind the last star, and the path that is left for it. -/
  star : Option (List Char × List Char) := none
  /-- The pattern behind the last pair of stars, and the path that is left for it. -/
  deep : Option (List Char × List Char) := none

/-- The patterns that describe the empty path as they are. -/
def emptyPatterns : List String := ["", "*", "**", "/**", "**/", "/**/"]

/-- Whether a pattern describes the empty path. With `strict` set, a pattern must be well formed;
nothing comes of one that is not. -/
def describesEmpty (strict : Bool) : Nat → List Char → Option Bool
  | 0, _ => some false
  | fuel + 1, pattern =>
    if emptyPatterns.contains (String.ofList pattern) then some true
    else match pattern with
      | '{' :: rest => do
        (← alternatives? rest).foldlM (fun found p =>
          if found then some true else describesEmpty strict fuel p) false
      | pattern => if strict && !wellFormedFrom false 0 pattern then none else some false

/-- What a pattern does at a character of the path. -/
inductive Move where
  | finished
  | malformed
  /-- The character is read; behind it a part of the path may begin. -/
  | read (pattern : List Char) (atStart : Bool)
  | star (pattern : List Char)
  /-- Two stars that fill a part. -/
  | deep (pattern : List Char)
  /-- The pattern does not fit; it has been read up to here. -/
  | stuck (pattern : List Char)
  | choice (patterns : List (List Char))

/-- What a pattern does at a character, at which a part of the path may begin. -/
def move (atStart : Bool) (x : Char) : List Char → Move
  | [] => .stuck []
  | '*' :: '*' :: rest =>
    if atStart && rest.isEmpty then .finished
    else if atStart && rest.head? == some '/' then .deep (rest.drop 1)
    else .star rest
  | '*' :: rest => .star rest
  | '?' :: rest => if x == '/' then .stuck ('?' :: rest) else .read rest false
  | '[' :: rest => match Class.fit x rest with
    | .unclosed => .malformed
    | .unfit rest => .stuck rest
    | .fits rest => .read rest false
  | '{' :: rest => match alternatives? rest with
    | none => .malformed
    | some ps => .choice ps
  | ['\\'] => .malformed
  | '\\' :: c :: rest => if c == x then .read rest (c == '/') else .stuck ('\\' :: c :: rest)
  | c :: rest => if c == x then .read rest (c == '/') else .stuck (c :: rest)

namespace Search

/-- The search with another pattern in place of the rest of the old one. -/
def replaced (s : Search) (pattern : List Char) : Search :=
  let again := fun (p, n) => (p.take (p.length - s.pattern.length) ++ pattern, n)
  { s with pattern, atStart := true, star := s.star.map again, deep := s.deep.map again }

/-- The search behind a character that has been read. -/
def behindRead (s : Search) (pattern name : List Char) (atStart : Bool) : Search :=
  { s with pattern, name, atStart }

/-- The search behind a star. -/
def behindStar (s : Search) (pattern : List Char) : Search :=
  { s with pattern, atStart := false, star := some (pattern, s.name) }

/-- The search behind two stars that fill a part. -/
def behindDeep (s : Search) (pattern : List Char) : Search :=
  { s with pattern, star := none, deep := some (pattern, s.name) }

/-- The search in which the last star takes one more character. -/
def onStar? (s : Search) : Option Search :=
  match s.star with
  | some (p, x :: xs) =>
    if x == '/' then none
    else some { s with pattern := p, name := xs, atStart := false, star := some (p, xs) }
  | _ => none

/-- The search in which the last pair of stars takes one more part. -/
def onDeep? (s : Search) : Option Search :=
  match s.deep with
  | some (p, n) => match n.dropWhile (· != '/') with
    | _ :: xs => some { s with pattern := p, name := xs, atStart := true, deep := some (p, xs) }
    | [] => none
  | none => none

/-- Where a search goes on that is stuck. -/
def retreat? (s : Search) : Option Search := s.onStar?.or s.onDeep?

end Search

/-- The first search that succeeds; a malformed pattern ends all. -/
def anyFound (run : Search → Option Bool) : List Search → Option Bool
  | [] => some false
  | s :: rest => do if ← run s then some true else anyFound run rest

/-- Searches for a match. -/
def search (strict : Bool) : Nat → Search → Option Bool
  | 0, _ => some false
  | fuel + 1, s => match s.name with
    | [] => describesEmpty strict (s.pattern.length + 1) s.pattern
    | x :: xs => match move s.atStart x s.pattern with
      | .finished => some true
      | .malformed => none
      | .read p atStart => search strict fuel (s.behindRead p xs atStart)
      | .star p => search strict fuel (s.behindStar p)
      | .deep p => search strict fuel (s.behindDeep p)
      | .choice ps => anyFound (search strict fuel) (ps.map s.replaced)
      | .stuck pattern => match s.retreat? with
        | some s => search strict fuel s
        | none => if strict && !wellFormedFrom false 0 pattern then none else some false

/-- A bound of the steps of a search: it has at most so many places for either star, and between two
of their moves it goes on in the pattern or in the path; alternatives make the pattern shorter. -/
def searchBound (pattern name : Nat) : Nat :=
  Nat.pow (pattern + 1) 3 * Nat.pow (name + 1) 2 * (pattern + name + 1)

/-- Whether a pattern describes a path. With `strict` set, a pattern that is not well formed
describes nothing, as far as the search notices. -/
def describes (strict : Bool) (pattern name : String) : Bool :=
  let p := pattern.toList
  let n := name.toList
  (search strict (searchBound p.length n.length) { pattern := p, name := n }).getD false

end CSharpAudit.Glob
