import CSharpAudit.Flow.Measure
import CSharpAudit.Metrics.Basic
import CSharpAudit.Text.CharSet
import CSharpAudit.Text.Utf8

/-!
# The metrics of a file

A line counts as code when it holds something besides white space and comments. Lines are looked at
one by one; whether a block comment is open is all that one line tells the next. A quote in front of
a comment opener ends the look at a line, since the opener may belong to a string.

Declarations are counted outside local functions, which belong to their member; statements are
counted everywhere.

## Main definitions

* `CodeLines.scanLine` — whether a line holds code, and whether it leaves a comment open
* `codeLines` — the number of lines of code of a source text
* `Counter.ofDeclaration` — what a declaration adds to a counter
* `Counter.ofStatement` — what a statement adds to a counter
* `Metrics.ofUnit` — the metrics of a file
-/

namespace CSharpAudit

/-! ### Lines of code -/

namespace CodeLines

/-- The text before and behind the first occurrence of two adjacent characters. -/
def cut (a b : Char) : List Char → Option (List Char × List Char)
  | c :: d :: cs =>
    if c == a && d == b then some ([], cs)
    else (cut a b (d :: cs)).map fun (before, rest) => (c :: before, rest)
  | _ => none

theorem length_lt_of_cut {a b : Char} {cs before rest : List Char}
    (h : cut a b cs = some (before, rest)) : rest.length < cs.length := by
  fun_induction cut a b cs generalizing before rest with
  | case1 c d cs hcd =>
    obtain ⟨-, rfl⟩ : [] = before ∧ cs = rest := by simpa using h
    simp only [List.length_cons]
    omega
  | case2 c d cs hcd ih =>
    obtain ⟨⟨before', rest'⟩, hcut, heq⟩ := Option.map_eq_some_iff.mp h
    have := ih hcut
    simp at heq
    obtain ⟨-, rfl⟩ := heq
    simpa using Nat.lt_succ_of_lt this
  | case3 => simp at h

/-- A line without the white space at its two ends. -/
def trim (cs : List Char) : List Char :=
  ((cs.dropWhile Text.isBlank).reverse.dropWhile Text.isBlank).reverse

theorem length_trim_le (cs : List Char) : (trim cs).length ≤ cs.length := by
  have h (p : Char → Bool) (l : List Char) : (l.dropWhile p).length ≤ l.length :=
    (List.dropWhile_sublist p).length_le
  simpa [trim] using Nat.le_trans (h _ _) (by simpa using h Text.isBlank cs)

/-- Looks at the rest of a line, `code` being whether code has been seen on it. The answer tells
whether the line leaves a block comment open, and whether it holds code. -/
def scanLine (inBlock code : Bool) (line : List Char) : Bool × Bool :=
  if line.isEmpty then (inBlock, code)
  else if inBlock then
    match _h : cut '*' '/' line with
    | none => (true, code)
    | some (_, rest) => scanLine false code (trim rest)
  else if "//".toList.isPrefixOf line then (false, code)
  else
    match _h : cut '/' '*' line with
    | none => (false, true)
    | some (before, rest) =>
      if before.contains '"' then (false, true)
      else scanLine true (code || !before.isEmpty) rest
termination_by line.length
decreasing_by
  · exact Nat.lt_of_le_of_lt (length_trim_le rest) (length_lt_of_cut _h)
  · exact length_lt_of_cut _h

/-- The lines of a text. -/
def lines (cs : List Char) : List (List Char) := cs.splitOn '\n'

/-- Looks at a line behind others: whether a block comment is open, and the count so far. -/
def step (state : Bool × Nat) (line : List Char) : Bool × Nat :=
  let (inBlock, code) := scanLine state.1 false (trim line)
  (inBlock, if code then state.2 + 1 else state.2)

end CodeLines

/-- The number of lines that hold something besides white space and comments. -/
def codeLines (source : List UInt8) : Nat :=
  ((CodeLines.lines (Text.Utf8.text source).toList).foldl CodeLines.step (false, 0)).2

/-! ### Counters -/

namespace Counter

/-- What a declaration adds to a counter of declarations. -/
def ofDeclaration : Counter → Node → Nat
  | classes, .typeDecl d => if d.kind == .classType then 1 else 0
  | interfaces, .typeDecl d => if d.kind == .interface then 1 else 0
  | structs, .typeDecl d => if d.kind == .struct then 1 else 0
  | enums, .typeDecl d => if d.kind == .enum then 1 else 0
  | records, .typeDecl d => if d.kind == .record || d.kind == .recordStruct then 1 else 0
  | documentedTypes, .typeDecl d => if d.doc.isEmpty then 0 else 1
  | delegates, .delegate _ => 1
  | methods, .method _ => 1
  | documentedMethods, .method d => if d.doc.isEmpty then 0 else 1
  | constructors, .constructor _ => 1
  | properties, .property _ => 1
  | fields, .field d => d.vars.length
  | events, .event _ => 1
  | _, _ => 0

/-- What a statement adds to a counter of statements. -/
def ofStatement : Counter → Node → Nat
  | ifStatements, .ifStmt .. => 1
  | forLoops, .forStmt .. | forLoops, .foreachStmt .. => 1
  | whileLoops, .whileStmt .. | whileLoops, .doStmt .. => 1
  | switchStatements, .switchStmt .. => 1
  | tryStatements, .tryStmt .. => 1
  | usingStatements, .usingStmt .. => 1
  | _, _ => 0

/-- What a node of the walk adds to a counter; a local function adds its statements. -/
def ofNode (c : Counter) : Node → Nat
  | .localFunc _ f => totalOf c.ofStatement (Node.method f).nodes
  | n => c.ofDeclaration n + c.ofStatement n

end Counter

/-- Whether a node is a local function. -/
def Node.isLocalFunc : Node → Bool
  | .localFunc .. => true
  | _ => false

/-- The nodes of a file outside local functions, and the local functions themselves. -/
def CompilationUnit.nodesOutsideLocals (u : CompilationUnit Node) : List Node :=
  ((Node.unit u).visits (fun v => if v.node.isLocalFunc then none else some ()) ()).map (·.node)

/-- The metrics of a file, given its source text. -/
def Metrics.ofUnit (u : CompilationUnit Node) (source : List UInt8) : Metrics :=
  let nodes := u.nodesOutsideLocals
  let bodies := nodes.flatMap Node.bodies
  { value
      | .complexity => totalOf Node.complexity bodies
      | .nestingDepth => ((bodies.map Node.nesting).foldl max 0 : Nat)
      | .linesOfCode => codeLines source
      | c => totalOf c.ofNode nodes }

end CSharpAudit
