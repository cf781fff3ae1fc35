/-!
# Bytes in base 64

Each character of an alphabet of sixty-four writes six bits, so that four characters write three
bytes. The last group may write one or two bytes; then equal signs fill it up.

## Main definitions

* `Base64.decode?` — the bytes that a text writes
-/

namespace CSharpAudit.Text.Base64

/-- The six bits that a character writes. -/
def value? (c : Char) : Option Nat :=
  if 'A' ≤ c && c ≤ 'Z' then some (c.toNat - 65)
  else if 'a' ≤ c && c ≤ 'z' then some (c.toNat - 71)
  else if c.isDigit then some (c.toNat + 4)
  else if c == '+' then some 62
  else if c == '/' then some 63
  else none

/-- The bytes of a group of four characters, of which the last group may be filled up. -/
def group? (a b c d : Char) (last : Bool) : Option (List UInt8) := do
  let x := (← value? a) * 64 + (← value? b)
  if last && c == '=' && d == '=' then return [UInt8.ofNat (x / 16)]
  else
    let y := x * 64 + (← value? c)
    if last && d == '=' then return [UInt8.ofNat (y / 1024), UInt8.ofNat (y / 4 % 256)]
    else
      let z := y * 64 + (← value? d)
      return [UInt8.ofNat (z / 65536), UInt8.ofNat (z / 256 % 256), UInt8.ofNat (z % 256)]

/-- The bytes that some groups of characters write. -/
def groups? : List Char → Option (List UInt8)
  | [] => some []
  | a :: b :: c :: d :: rest => do return (← group? a b c d rest.isEmpty) ++ (← groups? rest)
  | _ => none

/-- The bytes that a text writes. Line ends in it count for nothing. -/
def decode? (s : String) : Option (List UInt8) :=
  groups? (s.toList.filter fun c => c != '\n' && c != '\r')

end CSharpAudit.Text.Base64
