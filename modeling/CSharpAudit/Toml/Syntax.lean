import CSharpAudit.Number.Calendar
import CSharpAudit.Text.Utf8

/-!
# Reading TOML

A text is a list of statements: entries, which give keys values, and headings of tables. What the
statements mean together is a matter of its own; here only their form counts.

## Main definitions

* `Toml.Term` — a value as it is written
* `Toml.Statement` — an entry or a heading
* `Toml.parse?` — the statements of a text
-/

namespace CSharpAudit.Toml

/-- A value as it is written. -/
inductive Term where
  | string (s : String)
  | int (n : Int)
  | float
  | bool (b : Bool)
  | date
  | array (items : List Term)
  | inline (entries : List (List String × Term))
  deriving Inhabited

/-- A line of a text, or several. -/
inductive Statement where
  | entry (key : List String) (value : Term)
  | table (path : List String)
  /-- The next of several tables that share a path. -/
  | tableItem (path : List String)
  deriving Inhabited

/-- Whether a character is a blank inside a line. -/
def isBlank (c : Char) : Bool := c == ' ' || c == '\t'

/-- Whether a character is part of a line end. -/
def isNewline (c : Char) : Bool := c == '\n' || c == '\r'

def skipBlanks (cs : List Char) : List Char := cs.dropWhile isBlank

/-- What follows the blanks, comments and line ends at the head of a text. -/
def skipLines : Nat → List Char → List Char
  | 0, cs => cs
  | fuel + 1, cs =>
    match cs.dropWhile fun c => isBlank c || isNewline c with
    | '#' :: rest => skipLines fuel (rest.dropWhile (!isNewline ·))
    | rest => rest

/-- What follows the blanks and the comment at the end of a line; nothing else may stand there. -/
def lineEnd? (cs : List Char) : Option (List Char) :=
  let rest := match skipBlanks cs with
    | '#' :: more => more.dropWhile (!isNewline ·)
    | rest => rest
  if rest.head?.all isNewline then some rest else none

/-! ### Texts -/

/-- The character that a letter behind a backslash stands for. -/
def escape? : Char → Option Char
  | 'b' => some '\x08'
  | 't' => some '\t'
  | 'n' => some '\n'
  | 'f' => some '\x0c'
  | 'r' => some '\r'
  | '"' => some '"'
  | '\\' => some '\\'
  | _ => none

/-- The character that the text behind a backslash stands for. -/
def escapeSequence? : List Char → Option (Char × List Char)
  | 'u' :: rest => byNumber 4 rest
  | 'U' :: rest => byNumber 8 rest
  | c :: rest => (escape? c).map (·, rest)
  | [] => none
where
  /-- The character with the number that so many hexadecimal digits write. -/
  byNumber (count : Nat) (rest : List Char) : Option (Char × List Char) := do
    let ds := rest.take count
    let n ← ofDigits? 16 ds
    if ds.length == count && (n < 0xD800 || (0xDFFF < n && n < 0x110000)) then
      some (Char.ofNat n, rest.drop count)
    else none

/-- A text on one line, up to its closing mark; escapes count only if `escapes` is set. -/
def lineText (mark : Char) (escapes : Bool) : Nat → List Char → Option (List Char × List Char)
  | 0, _ => none
  | _, [] => none
  | fuel + 1, c :: rest =>
    if c == mark then some ([], rest)
    else if isNewline c then none
    else do
      let (c, rest) ← if escapes && c == '\\' then escapeSequence? rest else some (c, rest)
      let (cs, rest) ← lineText mark escapes fuel rest
      return (c :: cs, rest)

/-- A text of several lines, up to three closing marks. One or two more marks before them belong to
the text, three if a backslash stands before them all. `before` are the marks read right before this
place, and the backslash before them. A backslash at the end of a line drops all blanks and line
ends that follow. -/
def linesText (mark : Char) (escapes : Bool) : Nat → (before : Nat × Bool) → List Char →
    Option (List Char × List Char)
  | 0, _, _ => none
  | _, _, [] => none
  | fuel + 1, before, c :: rest =>
    let more (c : Char) (before : Nat × Bool) (rest : List Char) :
        Option (List Char × List Char) := do
      let (cs, rest) ← linesText mark escapes fuel before rest
      return (c :: cs, rest)
    if c == mark then
      let marks := 1 + (rest.takeWhile (· == mark)).length
      if marks == 3 then some ([], rest.drop 2)
      else if marks > 3 && before.1 ≥ 2 && !(before == (2, true)) then none
      else more c (before.1 + 1, before.2) rest
    else if escapes && c == '\\' then
      if (skipBlanks rest).head?.any isNewline then
        linesText mark escapes fuel (0, false) (rest.dropWhile fun c => isBlank c || isNewline c)
      else do
        let before := match rest with
          | '"' :: _ => (1, true)
          | '\\' :: _ => (0, true)
          | _ => (0, false)
        let (c, rest) ← escapeSequence? rest
        more c before rest
    else more c (0, false) rest

/-- A text whose opening mark has been read. A line end right behind three opening marks is
dropped. -/
def text (mark : Char) (cs : List Char) : Option (String × List Char) :=
  let escapes := mark == '"'
  let found := match cs with
    | a :: b :: rest =>
      if a == mark && b == mark then
        let rest := match rest with
          | '\r' :: '\n' :: more => more
          | '\n' :: more => more
          | rest => rest
        linesText mark escapes (rest.length + 1) (0, false) rest
      else lineText mark escapes (cs.length + 1) cs
    | _ => lineText mark escapes (cs.length + 1) cs
  found.map fun (cs, rest) => (String.ofList cs, rest)

/-! ### Keys -/

/-- Whether a character may stand in a key without quotation marks. -/
def isKeyChar (c : Char) : Bool := c.isAlphanum || c == '_' || c == '-'

/-- A part of a key. -/
def keyPart (cs : List Char) : Option (String × List Char) :=
  match skipBlanks cs with
  | c :: rest =>
    if c == '"' || c == '\'' then
      (lineText c (c == '"') (rest.length + 1) rest).map fun (cs, rest) => (String.ofList cs, rest)
    else
      let bare := (c :: rest).takeWhile isKeyChar
      if bare.isEmpty then none else some (String.ofList bare, (c :: rest).drop bare.length)
  | [] => none

/-- A key of one part or several with points between them. -/
def key : Nat → List Char → Option (List String × List Char)
  | 0, _ => none
  | fuel + 1, cs => do
    let (part, rest) ← keyPart cs
    match skipBlanks rest with
    | '.' :: more => do
      let (parts, rest) ← key fuel more
      return (part :: parts, rest)
    | rest => return ([part], rest)

/-! ### Numbers and dates -/

/-- Whether every underscore stands between digits. -/
def underscoresOk (cs : List Char) : Bool :=
  let (ok, after) := cs.foldl (fun (ok, after) c =>
    (ok && (c != '_' || after), (digitValue? 16 c).isSome)) (true, false)
  ok && after

/-- The digits of a number without the sign and the underscores. -/
def bareDigits (cs : List Char) : List Char :=
  (if cs.head? == some '-' || cs.head? == some '+' then cs.drop 1 else cs).filter (· != '_')

/-- Whether a decimal number begins with a needless zero. -/
def hasLeadingZero (cs : List Char) : Bool :=
  let ds := bareDigits cs
  ds.length > 1 && ds.head? == some '0'

/-- A whole number that fits into 64 bits. -/
def wholeNumber? (base : Nat) (cs : List Char) : Option Term := do
  let n ← ofDigits? base (bareDigits cs)
  let n : Int := if cs.head? == some '-' then -n else n
  if underscoresOk cs && minInt ≤ n && n ≤ maxInt then some (.int n) else none

/-- Whether a text is a number with a fraction or an exponent, or both, that is not too great. -/
def isFloat (cs : List Char) : Bool :=
  let ds := bareDigits cs
  let whole := ds.takeWhile Char.isDigit
  let rest := ds.drop whole.length
  let (fraction, fractionOk, rest) := match rest with
    | '.' :: more =>
      let fraction := more.takeWhile Char.isDigit
      (fraction, !fraction.isEmpty, more.drop fraction.length)
    | rest => ([], true, rest)
  let (exponent, exponentOk) := match rest with
    | [] => ((0 : Int), true)
    | e :: more =>
      let ds := if more.head? == some '-' || more.head? == some '+' then more.drop 1 else more
      let n : Int := (ofDigits? 10 ds).getD 0
      (if more.head? == some '-' then -n else n,
        (e == 'e' || e == 'E') && !ds.isEmpty && ds.all Char.isDigit)
  let number := (ofDigits? 10 (whole ++ fraction)).getD 0
  let parts := (String.ofList (cs.map fun c => if c == 'e' || c == 'E' then '.' else c)).splitOn "."
  !whole.isEmpty && (whole.length == 1 || whole.head? != some '0') && fractionOk && exponentOk
    && parts.all (fun p => underscoresOk p.toList)
    && !isBeyondReals number (exponent - fraction.length)

/-- Whether a text is a date, a time of the day or both; with both, an offset may follow. -/
def isDate (cs : List Char) : Bool :=
  let cs := cs.map fun c => if c == 't' || c == ' ' then 'T' else if c == 'z' then 'Z' else c
  match Calendar.date? false cs with
  | some [] => true
  | some ('T' :: rest) => (Calendar.time? false rest).any fun r => r.isEmpty || Calendar.isZone r
  | some _ => false
  | none => (Calendar.time? false cs).any List.isEmpty

/-- Whether a character may stand in a date. -/
def isDateChar (c : Char) : Bool := c.isDigit || "-:Tt .Zz+".toList.contains c

/-- A number that begins with a sign or digit but is no date. -/
def decimalNumber (cs : List Char) : Option (Term × List Char) := do
  let signed := cs.head? == some '-' || cs.head? == some '+'
  let head := (if signed then cs.drop 1 else cs).takeWhile fun c => c.isDigit || c == '_'
  let length := head.length + if signed then 1 else 0
  let more := cs.drop length
  if !head.head?.any Char.isDigit then none
  else if more.head?.any fun c => c == '.' || c == 'e' || c == 'E' then
    let tail := more.takeWhile fun c => c.isDigit || "_.-+eE".toList.contains c
    if isFloat (cs.take length ++ tail) then some (.float, more.drop tail.length) else none
  else if hasLeadingZero (cs.take length) then none
  else some (← wholeNumber? 10 (cs.take length), more)

/-- A number or date that begins with a digit. -/
def numberOrDate (cs : List Char) : Option (Term × List Char) :=
  let based (base : Nat) (rest : List Char) : Option (Term × List Char) := do
    let ds := rest.takeWhile fun c => (digitValue? base c).isSome || c == '_'
    if ds.head? == some '_' then none
    else some (← wholeNumber? base ds, rest.drop ds.length)
  match cs with
  | '0' :: 'x' :: rest => based 16 rest
  | '0' :: 'o' :: rest => based 8 rest
  | '0' :: 'b' :: rest => based 2 rest
  | _ =>
    let ds := cs.takeWhile Char.isDigit
    let dated := (cs.drop ds.length).head?.any fun c => c == '-' || c == ':'
    if dated && ds != ['0'] then
      let all := cs.takeWhile isDateChar
      if isDate (all.reverse.dropWhile (· == ' ')).reverse then some (.date, cs.drop all.length)
      else none
    else decimalNumber cs

/-! ### Values -/

/-- What follows a word at the head of a text. -/
def behindWord? (w : String) (cs : List Char) : Option (List Char) :=
  if w.toList.isPrefixOf cs then some (cs.drop w.length) else none

mutual

/-- A value. -/
def term : Nat → List Char → Option (Term × List Char)
  | 0, _ => none
  | fuel + 1, cs =>
    match skipBlanks cs with
    | '[' :: rest => do
      let (items, rest) ← items fuel rest
      return (.array items, rest)
    | '\x7b' :: rest => do
      let (entries, rest) ← inlineEntries fuel true rest
      return (.inline entries, rest)
    | '"' :: rest => (text '"' rest).map fun (s, rest) => (.string s, rest)
    | '\'' :: rest => (text '\'' rest).map fun (s, rest) => (.string s, rest)
    | cs =>
      if cs.head?.any Char.isDigit then numberOrDate cs
      else if cs.head?.any fun c => c == '-' || c == '+' then
        match behindWord? "inf" (cs.drop 1) with
        | some rest => some (.float, rest)
        | none => match behindWord? "nan" (cs.drop 1) with
          | some rest => some (.float, rest)
          | none => decimalNumber cs
      else
        let word := String.ofList (cs.takeWhile Char.isAlpha)
        let rest := cs.drop word.length
        match word with
        | "true" => some (.bool true, rest)
        | "false" => some (.bool false, rest)
        | "inf" | "nan" => some (.float, rest)
        | _ => none

/-- The items of an array, up to its closing bracket; the last may be followed by a comma. -/
def items : Nat → List Char → Option (List Term × List Char)
  | 0, _ => none
  | fuel + 1, cs =>
    match skipLines (cs.length + 1) cs with
    | ']' :: rest => some ([], rest)
    | cs => do
      let (v, rest) ← term fuel cs
      match skipLines (rest.length + 1) rest with
      | ',' :: rest => do
        let (vs, rest) ← items fuel rest
        return (v :: vs, rest)
      | ']' :: rest => return ([v], rest)
      | _ => none

/-- The entries of a table on a line, up to its closing brace; no comma follows the last. -/
def inlineEntries :
    Nat → (first : Bool) → List Char → Option (List (List String × Term) × List Char)
  | 0, _, _ => none
  | fuel + 1, first, cs =>
    match skipBlanks cs with
    | '\x7d' :: rest => if first then some ([], rest) else none
    | cs => do
      let (k, rest) ← key (cs.length + 1) cs
      match rest with
      | '=' :: rest => do
        let (v, rest) ← term fuel rest
        match skipBlanks rest with
        | ',' :: rest => do
          let (es, rest) ← inlineEntries fuel false rest
          return ((k, v) :: es, rest)
        | '\x7d' :: rest => return ([(k, v)], rest)
        | _ => none
      | _ => none

end

/-! ### Statements -/

/-- A heading or an entry. -/
def statement (cs : List Char) : Option (Statement × List Char) :=
  match cs with
  | '[' :: '[' :: rest => do
    let (path, rest) ← key (rest.length + 1) rest
    match rest with
    | ']' :: ']' :: rest => some (.tableItem path, rest)
    | _ => none
  | '[' :: rest => do
    let (path, rest) ← key (rest.length + 1) rest
    match rest with
    | ']' :: rest => some (.table path, rest)
    | _ => none
  | cs => do
    let (k, rest) ← key (cs.length + 1) cs
    match rest with
    | '=' :: rest => do
      let (v, rest) ← term (rest.length + 1) rest
      some (.entry k v, rest)
    | _ => none

/-- The statements of a text, each with a line of its own. -/
def statements : Nat → List Char → Option (List Statement)
  | 0, _ => none
  | fuel + 1, cs =>
    match skipLines (cs.length + 1) cs with
    | [] => some []
    | cs => do
      let (s, rest) ← statement cs
      return s :: (← statements fuel (← lineEnd? rest))

/-- Whether a text holds no control characters but tabs and whole line ends, and no character that
stands for a malformed one. -/
def charsOk : List Char → Bool
  | [] => true
  | '\r' :: '\n' :: rest => charsOk rest
  | c :: rest =>
    (c == '\t' || c == '\n' || (c.toNat ≥ 0x20 && c.toNat != 0x7F && c != Text.Utf8.replacement))
      && charsOk rest

/-- The bytes behind a mark of the byte order. -/
def skipByteOrderMark : List UInt8 → List UInt8
  | 0xFF :: 0xFE :: rest | 0xFE :: 0xFF :: rest | 0xEF :: 0xBB :: 0xBF :: rest => rest
  | bytes => bytes

/-- The statements of a text. -/
def parse? (bytes : List UInt8) : Option (List Statement) :=
  let cs := (Text.Utf8.text (skipByteOrderMark bytes)).toList
  if charsOk cs then statements (cs.length + 1) cs else none

end CSharpAudit.Toml
