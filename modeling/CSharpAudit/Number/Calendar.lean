import CSharpAudit.Number.Basic

/-!
# Dates and times

Texts that write dates and times of the day. Months, days, hours, minutes and seconds have two
digits, or one or two where that is allowed; hours may always have one.

## Main definitions

* `Calendar.date?` — what follows a date
* `Calendar.time?` — what follows a time of the day
* `Calendar.isZone` — whether a text is an offset from the standard time
-/

namespace CSharpAudit.Calendar

/-- Two digits, or one if `short` is set, and what follows them. -/
def number? (short : Bool) (cs : List Char) : Option (Nat × List Char) :=
  let ds := (cs.take 2).takeWhile Char.isDigit
  if ds.length == 2 || short then (ofDigits? 10 ds).map (·, cs.drop ds.length) else none

/-- What follows a character. -/
def behind? (c : Char) : List Char → Option (List Char)
  | d :: rest => if c == d then some rest else none
  | [] => none

/-- The number of days of a month. -/
def daysOf (year month : Nat) : Nat :=
  if month == 2 then
    if year % 4 == 0 && (year % 100 != 0 || year % 400 == 0) then 29 else 28
  else if [4, 6, 9, 11].contains month then 30
  else 31

/-- What follows a date. -/
def date? (short : Bool) (cs : List Char) : Option (List Char) := do
  let year := cs.takeWhile Char.isDigit
  if year.length != 4 then none
  else
    let (month, rest) ← number? short (← behind? '-' (cs.drop 4))
    let (day, rest) ← number? short (← behind? '-' rest)
    if 1 ≤ month && month ≤ 12 && 1 ≤ day && day ≤ daysOf ((ofDigits? 10 year).getD 0) month
    then some rest else none

/-- What follows a time of the day, with a fraction of a second if there is one. -/
def time? (short : Bool) (cs : List Char) : Option (List Char) := do
  let (hour, rest) ← number? true cs
  let (minute, rest) ← number? short (← behind? ':' rest)
  let (second, rest) ← number? short (← behind? ':' rest)
  if hour > 23 || minute > 59 || second > 59 then none
  else match rest with
    | c :: more =>
      let ds := more.takeWhile Char.isDigit
      if (c == '.' || c == ',') && !ds.isEmpty then some (more.drop ds.length) else some rest
    | [] => some []

/-- Whether a text is an offset from the standard time. -/
def isZone (cs : List Char) : Bool :=
  match cs with
  | ['Z'] => true
  | [sign, a, b, ':', c, d] =>
    (sign == '+' || sign == '-') && (ofDigits? 10 [a, b]).any (· ≤ 24)
      && (ofDigits? 10 [c, d]).any (· ≤ 60)
  | _ => false

end CSharpAudit.Calendar
