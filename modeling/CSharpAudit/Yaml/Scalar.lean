import CSharpAudit.Number.Calendar

/-!
# The types of YAML texts

A plain text may stand for something else than itself: nothing, a truth value, a number or a date.

## Main definitions

* `Yaml.Scalar` — what a text stands for, and `Yaml.Scalar.tag`, the tag of its type
* `Yaml.Scalar.ofText` — what a plain text stands for
* `Yaml.Scalar.ofTagged?` — what a text with the tag of a type stands for
-/

namespace CSharpAudit.Yaml

/-- What a text stands for. -/
inductive Scalar where
  | null
  | bool (b : Bool)
  | int (n : Int)
  /-- A number with a fraction or exponent; its whole part, if it can be stored. -/
  | real (whole : Option Int)
  | timestamp
  | text
  deriving DecidableEq, Repr, Inhabited

namespace Scalar

/-- The tag of the type of a value. -/
def tag : Scalar → String
  | null => "!!null"
  | bool _ => "!!bool"
  | int _ => "!!int"
  | real _ => "!!float"
  | timestamp => "!!timestamp"
  | text => "!!str"

/-! ### Whole numbers -/

/-- The base that the first characters of a number show, and its digits. A leading zero shows the
base eight. -/
def based (cs : List Char) : Nat × List Char :=
  match cs with
  | '0' :: c :: rest =>
    if c == 'x' || c == 'X' then (16, rest)
    else if c == 'b' || c == 'B' then (2, rest)
    else if c == 'o' || c == 'O' then (8, rest)
    else (8, c :: rest)
  | _ => (10, cs)

/-- The sign of a number and what follows it. -/
def signed (cs : List Char) : Bool × List Char :=
  match cs with
  | '-' :: rest => (true, rest)
  | '+' :: rest => (false, rest)
  | _ => (false, cs)

/-- The number with a sign, if it fits into a signed word. -/
def word? (negative : Bool) (n : Nat) : Option Int :=
  if negative then if n ≤ signedEnd then some (-n) else none
  else if n < signedEnd then some n
  else none

/-- The whole number that a text without underscores writes: a sign, a base and digits. Without a
sign it may take an unsigned word. Behind the signs of the bases two and eight in lower case, a sign
may stand as well. -/
def int? (cs : List Char) : Option Int :=
  let (negative, rest) := signed cs
  let (base, ds) := based rest
  match ofDigits? base ds with
  | some n => (word? negative n).or (if rest == cs && n < unsignedEnd then some n else none)
  | none =>
    let inner (base : Nat) (cs : List Char) : Option Int :=
      let (negative, ds) := signed cs
      (ofDigits? base ds).bind (word? negative)
    match cs with
    | '0' :: 'b' :: cs => inner 2 cs
    | '0' :: 'o' :: cs => inner 8 cs
    | _ => none

/-! ### Numbers with fractions -/

/-- The digits of a decimal number and its exponent: a whole part or a fraction, or both, then an
exponent. -/
def decimal? (cs : List Char) : Option (Nat × Int) :=
  let whole := cs.takeWhile Char.isDigit
  let rest := cs.drop whole.length
  let (fraction, rest) := match rest with
    | '.' :: more =>
      let ds := more.takeWhile Char.isDigit
      (ds, more.drop ds.length)
    | _ => ([], rest)
  let number := (ofDigits? 10 (whole ++ fraction)).map fun n => (n, -(fraction.length : Int))
  match rest with
  | [] => number
  | e :: more =>
    let (negative, ds) := signed more
    if e == 'e' || e == 'E' then do
      let (n, shift) ← number
      let exponent ← ofDigits? 10 ds
      some (n, shift + if negative then -(exponent : Int) else exponent)
    else none

/-- The whole part of a number, if it fits into a signed word; one that is too low, and the power of
two just above the range, become the lowest number. -/
def wholePart (negative : Bool) : Option Nat → Option Int
  | none => if negative then some minInt else none
  | some whole =>
    if negative then some (if whole ≤ signedEnd then -whole else minInt)
    else if whole < signedEnd then some whole
    else if whole == signedEnd then some minInt
    else none

/-- The number with a fraction or exponent that a text writes, unless it is too great. -/
def real? (cs : List Char) : Option Scalar :=
  let (negative, rest) := signed cs
  (decimal? rest).bind fun (n, exponent) =>
    if isBeyondReals n exponent then none
    else some (.real (wholePart negative (wholeOfDecimal n exponent)))

/-- Whether each underscore of a text stands between digits; `before` is the character before
it. -/
def underscoresOk : (before : Option Char) → List Char → Bool
  | _, [] => true
  | before, c :: rest =>
    (c != '_' || (before.any Char.isDigit && rest.head?.any Char.isDigit))
      && underscoresOk (some c) rest

/-! ### Dates -/

/-- Whether a text is a date, alone or with a time of the day. -/
def isTimestamp (cs : List Char) : Bool :=
  match Calendar.date? true cs with
  | none => false
  | some [] => true
  | some (c :: rest) => match Calendar.time? true rest with
    | none => false
    | some rest => if c == ' ' then rest.isEmpty else (c == 'T' || c == 't') && Calendar.isZone rest

/-! ### Texts -/

/-- The words that stand for something else. -/
def ofWord? : String → Option Scalar
  | "true" | "True" | "TRUE" => some (.bool true)
  | "false" | "False" | "FALSE" => some (.bool false)
  | "" | "~" | "null" | "Null" | "NULL" => some .null
  | ".nan" | ".NaN" | ".NAN" => some (.real none)
  | ".inf" | ".Inf" | ".INF" | "+.inf" | "+.Inf" | "+.INF" => some (.real none)
  | "-.inf" | "-.Inf" | "-.INF" => some (.real (some minInt))
  | _ => none

/-- What a text stands for that begins like a number; `dates` tells whether it may be a date. -/
def numeric (dates : Bool) (cs : List Char) : Scalar :=
  let bare := cs.filter (· != '_')
  if dates && isTimestamp cs then .timestamp
  else match int? bare with
    | some n => .int n
    | none => (real? bare).getD .text

/-- What a plain text stands for; `dates` tells whether it may be a date. -/
def ofText (dates : Bool) (s : String) : Scalar :=
  match ofWord? s with
  | some v => v
  | none => match s.toList with
    | '.' :: rest =>
      if underscoresOk none rest then (real? ('.' :: rest.filter (· != '_'))).getD .text else .text
    | c :: rest =>
      if c.isDigit || c == '+' || c == '-' then numeric dates (c :: rest) else .text
    | [] => .null

/-- The tags of the types that a plain text may have. -/
def typeTags : List String :=
  ["!!str", "!!bool", "!!int", "!!float", "!!null", "!!timestamp"]

/-- A whole number as one with a fraction. -/
def ofWhole (n : Int) : Scalar :=
  .real (wholePart (n < 0) (some (nearestWhole n.natAbs 1)))

/-- What a text with the tag of a type stands for; otherwise what it stands for without the tag. -/
def ofTagged? (tag s : String) : Except Scalar Scalar :=
  match tag, ofText (tag == "!!timestamp") s with
  | "!!str", _ => .ok .text
  | "!!float", .int n => if n ≤ maxInt then .ok (ofWhole n) else .error (.int n)
  | tag, v => if v.tag == tag then .ok v else .error v

end Scalar

end CSharpAudit.Yaml
