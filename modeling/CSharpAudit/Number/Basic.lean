/-!
# Digits, words, rounding and totals

A number with a fraction is read with 53 binary digits of precision: of the two neighbours with that
many digits the nearer one is taken, and the one with an even last digit if both are as near.

## Main definitions

* `digitValue?` — the value of a digit in a base
* `ofDigits?` — the number that some digits write
* `signedEnd`, `unsignedEnd` — the first number that a word of 64 bits does not hold, with a sign or
  without
* `minInt`, `maxInt` — the ends of the signed words
* `wrap` — the signed word that a number leaves in 64 bits
* `roundDiv` — a quotient rounded to the nearest whole number
* `nearestWhole` — the whole part of a quotient that was first rounded to 53 binary digits
* `wholeOfDecimal` — the same for a decimal number
* `isBeyondReals` — whether a decimal number is greater than all numbers of that precision
* `totalOf` — what the items of a list add up to, each by its measure

## Main results

* `totalOf_append` — the totals of two lists add up
-/

namespace CSharpAudit

/-! ### Digits -/

/-- The value of a digit in a base; letters of either case stand for the digits from ten on. -/
def digitValue? (base : Nat) (c : Char) : Option Nat :=
  let n := if c.isDigit then c.toNat - 48
    else if 'a' ≤ c && c ≤ 'z' then c.toNat - 87
    else if 'A' ≤ c && c ≤ 'Z' then c.toNat - 55
    else base
  if n < base then some n else none

/-- The number that some digits write; at least one is needed. -/
def ofDigits? (base : Nat) (cs : List Char) : Option Nat :=
  if cs.isEmpty then none else cs.foldlM (fun n c => (digitValue? base c).map (base * n + ·)) 0

/-! ### Words of 64 bits -/

/-- The first number past the signed words, the 63rd power of two. -/
def signedEnd : Nat := 0x8000000000000000

/-- The first number past the unsigned words, the 64th power of two. -/
def unsignedEnd : Nat := 0x10000000000000000

/-- The least signed word. -/
def minInt : Int := -signedEnd

/-- The greatest signed word. -/
def maxInt : Int := signedEnd - 1

/-- The signed word that a number leaves in 64 bits. -/
def wrap (n : Int) : Int := Int.bmod n unsignedEnd

/-- A signed word is left as it is. -/
theorem wrap_eq_self {n : Int} (h : minInt ≤ n ∧ n ≤ maxInt) : wrap n = n := by
  simp only [wrap, Int.bmod, minInt, maxInt, signedEnd, unsignedEnd] at *
  omega

/-! ### Rounding to binary precision -/

/-- A quotient rounded to the nearest whole number, a half to the even neighbour. -/
def roundDiv (num den : Nat) : Nat :=
  let q := num / den
  let r := num % den
  if 2 * r > den || (2 * r == den && q % 2 == 1) then q + 1 else q

/-- The number of binary digits of a number that read with full precision. -/
def precision : Nat := 53

/-- The whole part of the number nearest to `num / den` that has 53 binary digits. -/
def nearestWhole (num den : Nat) : Nat :=
  if num == 0 || den == 0 then 0
  else if num ≥ den <<< precision then
    -- digits are lost before the point
    let lost := Nat.log2 (num / den) + 1 - precision
    roundDiv num (den <<< lost) <<< lost
  else
    -- so many binary digits are kept behind the point
    let kept := precision - 1 + Nat.log2 den - Nat.log2 num
    let kept := if num <<< kept < den <<< (precision - 1) then kept + 1 else kept
    let kept := if num <<< kept ≥ den <<< precision then kept - 1 else kept
    roundDiv (num <<< kept) den >>> kept

/-- The whole part of the number nearest to `digits * 10 ^ exponent` that has 53 binary digits;
nothing if it needs more than 64 binary digits. -/
def wholeOfDecimal (digits : Nat) (exponent : Int) : Option Nat :=
  let size := (toString digits).length
  if digits == 0 || (size : Int) + exponent < -20 then some 0
  else if (size : Int) + exponent > 25 then none
  else
    let whole := nearestWhole (digits * Nat.pow 10 exponent.toNat) (Nat.pow 10 (-exponent).toNat)
    if whole < unsignedEnd then some whole else none

/-- Whether `digits * 10 ^ exponent` is rounded up to the power of two at which the numbers of
double precision end. -/
def isBeyondReals (digits : Nat) (exponent : Int) : Bool :=
  let size := (toString digits).length + exponent
  if digits == 0 || size < 308 then false
  else if size > 310 then true
  else digits * Nat.pow 10 exponent.toNat
    ≥ (Nat.pow 2 1024 - Nat.pow 2 970) * Nat.pow 10 (-exponent).toNat

/-! ### Totals -/

variable {α : Type}

/-- What the items of a list add up to, each by its measure. -/
def totalOf (measure : α → Nat) (xs : List α) : Nat := xs.foldr (fun x n => measure x + n) 0

@[simp] theorem totalOf_nil (measure : α → Nat) : totalOf measure [] = 0 := rfl

@[simp] theorem totalOf_cons (measure : α → Nat) (x : α) (xs : List α) :
    totalOf measure (x :: xs) = measure x + totalOf measure xs := rfl

@[simp] theorem totalOf_append (measure : α → Nat) (xs ys : List α) :
    totalOf measure (xs ++ ys) = totalOf measure xs + totalOf measure ys := by
  induction xs with
  | nil => simp only [List.nil_append, totalOf_nil, Nat.zero_add]
  | cons x xs ih => simp only [List.cons_append, totalOf_cons, ih, Nat.add_assoc]

end CSharpAudit
