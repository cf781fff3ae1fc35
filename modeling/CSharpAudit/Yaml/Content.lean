import CSharpAudit.Yaml.Reader

/-!
# The texts of YAML

A text is written plainly, between quotation marks or as a block of lines. Within plain and quoted
texts, lines are folded: a single line break is read as a blank.

## Main definitions

* `Yaml.Gap` — blanks and line breaks between two words, and how they are read
* `Yaml.Read.plain`, `Yaml.Read.quoted`, `Yaml.Read.block` — the texts of the three styles
-/

namespace CSharpAudit.Yaml

/-! ### Folding -/

/-- What stands between two words: blanks on the same line, or line breaks. -/
structure Gap where
  blanks : String := ""
  /-- The break of the first line that ends. -/
  first : String := ""
  /-- The breaks of further lines. -/
  more : String := ""
  /-- Whether a line ends. -/
  folded : Bool := false

/-- What a gap is read as: a single line break is a blank, of several the first is dropped. -/
def Gap.text (g : Gap) : String :=
  if !g.folded then g.blanks
  else if g.first == "\n" then if g.more.isEmpty then " " else g.more
  else g.first ++ g.more

namespace Read

/-- The gap at a place. With `least` given, a tab left of that column is refused on a new line, in a
text that began on the line `start`. -/
def gapFrom (start : Nat) (least : Option Nat) : Nat → Gap → Read Gap
  | 0, g => return g
  | fuel + 1, g => do
    need 1
    match ← peek 0 with
    | none => return g
    | some c =>
      if isBlank c then
        let column := (← get).column
        check start (!(g.folded && c == '\t' && least.any (column < ·))) .tabInPlain
        skip
        gapFrom start least fuel (if g.folded then g else { g with blanks := g.blanks.push c })
      else if isBreak c then
        need 2
        let taken ← newline
        gapFrom start least fuel <|
          if g.folded then { g with more := g.more ++ taken }
          else { g with first := taken, folded := true }
      else return g

/-- The gap at a place. -/
def gap (start : Nat) (least : Option Nat) (g : Gap) : Read Gap := do
  gapFrom start least ((← get).rest.length + 1) g

/-! ### Plain texts -/

/-- Whether a plain text ends at a character that is followed by the given one: a colon ends it
before a blank; inside brackets, so do the characters that separate and enclose. -/
def endsPlain (flow : Bool) (c : Char) (next : Option Char) : Bool :=
  isSpace c || (c == ':' && endsWord next)
    || (flow && (c == ',' || c == '?' || c == '[' || c == ']' || c == '\x7b' || c == '\x7d'))

/-- The characters of a plain text up to the next blank or to its end. -/
def plainRun (flow : Bool) : Nat → String → Read String
  | 0, run => return run
  | fuel + 1, run => do
    match ← peek 0 with
    | none => return run
    | some c =>
      if endsPlain flow c (← peek 1) then return run
      else
        skip
        need 2
        plainRun flow fuel (run.push c)

/-- A plain text from the given beginning and gap on. The last component tells whether a line ended
behind the text. -/
def plainFrom (start : Nat) (flow : Bool) (least : Nat) : Nat → String → Gap → Read (String × Bool)
  | 0, text, g => return (text, g.folded)
  | fuel + 1, text, g => do
    need 4
    if (← get).atDocumentMark || (← sees '#') then return (text, g.folded)
    else
      let run ← plainRun flow ((← get).rest.length + 1) ""
      let (text, g) := if run.isEmpty then (text, g) else (text ++ g.text ++ run, {})
      if (← peek 0).all (!isSpace ·) then return (text, g.folded)
      else
        let g ← gap start (some least) g
        if !flow && (← get).column < least then return (text, g.folded)
        else plainFrom start flow least fuel text g

/-- A plain text that must stand right of a column from its second line on, and whether a line ended
behind it. -/
def plain (flow : Bool) (least : Nat) : Read (String × Bool) := do
  let r ← get
  plainFrom r.line flow least (r.rest.length + 1) "" {}

/-! ### Quoted texts -/

/-- The character that a letter behind a backslash stands for. -/
def escape? : Char → Option Char
  | '0' => some (Char.ofNat 0)
  | 'a' => some '\x07'
  | 'b' => some '\x08'
  | 't' | '\t' => some '\t'
  | 'n' => some '\n'
  | 'v' => some '\x0b'
  | 'f' => some '\x0c'
  | 'r' => some '\r'
  | 'e' => some '\x1b'
  | ' ' => some ' '
  | '"' => some '"'
  | '\'' => some '\''
  | '\\' => some '\\'
  | 'N' => some '\u0085'
  | '_' => some '\u00A0'
  | 'L' => some '\u2028'
  | 'P' => some '\u2029'
  | _ => none

/-- How many hexadecimal digits follow a letter behind a backslash. -/
def escapeDigits? : Char → Option Nat
  | 'x' => some 2
  | 'u' => some 4
  | 'U' => some 8
  | _ => none

/-- The value of a hexadecimal digit. -/
def hexValue? (c : Char) : Option Nat :=
  if c.isDigit then some (c.toNat - 48)
  else if 'a' ≤ c && c ≤ 'f' then some (c.toNat - 87)
  else if 'A' ≤ c && c ≤ 'F' then some (c.toNat - 55)
  else none

/-- The number that some hexadecimal digits write. -/
def hexNumber? (digits : List Char) : Option Nat :=
  digits.foldlM (fun n c => (hexValue? c).map (16 * n + ·)) 0

/-- The character that a backslash and what follows it stand for; the reader stands at the
backslash. -/
def escape (start : Nat) : Read Char := do
  let letter := (← peek 1).getD (Char.ofNat 0)
  match escapeDigits? letter, escape? letter with
  | some count, _ =>
    skipMany 2
    need count
    let digits := (← get).rest.take count
    match hexNumber? digits with
    | some n =>
      check start (digits.length == count) .noHexDigits
      check start (n < 0xD800 || (0xDFFF < n && n ≤ 0x10FFFF)) .escapedCharacter
      skipMany count
      return Char.ofNat n
    | none => fail start .noHexDigits
  | none, some c => do skipMany 2; return c
  | none, none => fail start .unknownEscape

/-- A quoted text without blanks, up to a blank, the closing mark or an escaped line break; the last
component tells of the latter. -/
def quotedRun (start : Nat) (single : Bool) : Nat → String → Read (String × Bool)
  | 0, run => return (run, false)
  | fuel + 1, run => do
    match ← peek 0 with
    | none => return (run, false)
    | some c =>
      let next ← peek 1
      if isSpace c then return (run, false)
      else if single && c == '\'' then
        if next == some '\'' then
          skipMany 2
          need 2
          quotedRun start single fuel (run.push '\'')
        else return (run, false)
      else if !single && c == '"' then return (run, false)
      else if !single && c == '\\' then
        if next.any isBreak then
          need 3
          skip
          let _ ← newline
          return (run, true)
        else
          let c ← escape start
          need 2
          quotedRun start single fuel (run.push c)
      else
        skip
        need 2
        quotedRun start single fuel (run.push c)

/-- A quoted text up to the closing mark, from the given beginning on. -/
def quotedFrom (start : Nat) (single : Bool) : Nat → String → Read String
  | 0, text => return text
  | fuel + 1, text => do
    need 4
    check start (!(← get).atDocumentMark) .markInQuoted
    check start (← peek 0).isSome .endInQuoted
    let (run, escaped) ← quotedRun start single ((← get).rest.length + 1) ""
    need 1
    if ← sees (if single then '\'' else '"') then
      skip
      return text ++ run
    else
      let g ← gap start none { folded := escaped }
      quotedFrom start single fuel (text ++ run ++ g.text)

/-- A quoted text; the reader stands at the opening mark. -/
def quoted (single : Bool) : Read String := do
  let r ← get
  skip
  quotedFrom r.line single (r.rest.length + 1) ""

/-! ### Block texts -/

/-- What is done with the line breaks at the end of a block text. -/
inductive Chomping where
  | strip | clip | keep
  deriving DecidableEq, Inhabited

/-- What is to be done at the end of a block text, if a mark tells. -/
def chomping? : Read (Option Chomping) := do
  need 1
  match ← peek 0 with
  | some '+' => skip; return some .keep
  | some '-' => skip; return some .strip
  | _ => return none

/-- The indentation of a block text, if a digit tells. -/
def indentation? (start : Nat) : Read (Option Nat) := do
  need 1
  match ← peek 0 with
  | some c =>
    if c.isDigit then
      check start (c != '0') .zeroIndentation
      skip
      return some (c.toNat - 48)
    else return none
  | none => return none

/-- The header of a block text: what is done at its end, and its indentation, if given. -/
def blockHeader (start : Nat) : Read (Chomping × Option Nat) := do
  let before ← chomping?
  let indent ← indentation? start
  let behind ← if before.isNone && indent.isSome then chomping? else pure none
  skipWhile isBlank
  if ← sees '#' then skipWhile (!isBreak ·)
  check start (endsLine (← peek 0)) .noCommentOrBreak
  if (← peek 0).isSome then
    need 2
    let _ ← newline
  return ((before.or behind).getD .clip, indent)

/-- Goes over the blanks of an indentation, up to a column if it is known. -/
def skipIndentation (indent : Option Nat) : Nat → Read Unit
  | 0 => pure ()
  | fuel + 1 => do
    need 1
    let column := (← get).column
    if indent.all (column < ·) && (← sees ' ') then
      skip
      skipIndentation indent fuel

/-- Empty lines and the indentation of the next line. `indent` is the indentation if it is known;
the greatest column reached is found out otherwise. -/
def blockBreaks (start : Nat) (indent : Option Nat) : Nat → (greatest : Nat) → String →
    Read (String × Nat)
  | 0, greatest, breaks => return (breaks, greatest)
  | fuel + 1, greatest, breaks => do
    skipIndentation indent ((← get).rest.length + 1)
    let column := (← get).column
    let greatest := max greatest column
    check start (!(indent.all (column < ·) && (← sees '\t'))) .tabInIndentation
    if (← peek 0).any isBreak then
      need 2
      let more ← newline
      blockBreaks start indent fuel greatest (breaks ++ more)
    else return (breaks, greatest)

/-- The lines of a block text. `lead` is the break of the line before, `breaks` are the empty lines
behind it, and `led` tells whether that line began with a blank. The last components are the breaks
at the end. -/
def blockLines (start : Nat) (literal : Bool) (indent : Nat) : Nat → (text lead breaks : String) →
    (led : Bool) → Read (String × String × String)
  | 0, text, lead, breaks, _ => return (text, lead, breaks)
  | fuel + 1, text, lead, breaks, led => do
    match ← peek 0 with
    | none => return (text, lead, breaks)
    | some c =>
      if (← get).column != indent then return (text, lead, breaks)
      else
        let blank := isBlank c
        let joint := if !literal && !led && !blank && lead == "\n" then
            (if breaks.isEmpty then " " else "") else lead
        let line ← takeWhile (!isBreak ·)
        need 2
        let lead ← newline
        let (next, _) ← blockBreaks start (some indent) ((← get).rest.length + 1) 0 ""
        blockLines start literal indent fuel (text ++ joint ++ breaks ++ String.ofList line) lead
          next blank

/-- A block text; the reader stands at its first mark, and `parent` is the indentation around it. -/
def block (literal : Bool) (parent : Int) : Read String := do
  let start := (← get).line
  skip
  let (chomping, increment) ← blockHeader start
  let known := increment.map fun n => (max parent 0).toNat + n
  let (breaks, greatest) ← blockBreaks start known ((← get).rest.length + 1) 0 ""
  let indent := known.getD (max greatest (max (parent + 1).toNat 1))
  need 1
  let (text, lead, breaks) ← blockLines start literal indent ((← get).rest.length + 1) "" "" breaks
    false
  return text ++ match chomping with
    | .strip => ""
    | .clip => lead
    | .keep => lead ++ breaks

end Read

end CSharpAudit.Yaml
