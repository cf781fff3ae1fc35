import CSharpAudit.Yaml.Scanner

/-!
# Nodes of YAML

The first document of a text is a tree of nodes. What follows it counts for nothing, as far as it
can be scanned. A node may have an anchor, and an alias elsewhere may stand for it, even inside the
node itself; so nodes with anchors are kept beside the tree.

## Main definitions

* `Yaml.Node` — a text, a sequence, a mapping or an alias
* `Yaml.Document` — the root of a document, and the nodes that aliases stand for
* `Yaml.Document.parse` — the first document of a text, if there is one
-/

namespace CSharpAudit.Yaml

/-- A node of a document. The line on which it begins is counted from one. A tag is in its short
form. -/
inductive Node where
  /-- A text, and whether it is neither quoted nor a block. -/
  | scalar (line : Nat) (tag : Option String) (plain : Bool) (text : String)
  | sequence (line : Nat) (tag : Option String) (items : List Node)
  | mapping (line : Nat) (tag : Option String) (entries : List (Node × Node))
  /-- An alias, by the name of an anchor, with a number of its own and the number of the node that
  it stands for. -/
  | alias (line : Nat) (name : String) (number target : Nat)
  deriving Inhabited

/-- The first document of a text. -/
structure Document where
  root : Node
  /-- The nodes with anchors, by their numbers. -/
  anchored : List (Nat × Node) := []
  deriving Inhabited

/-- Why the first document of a text cannot be had. -/
inductive DocumentError where
  | fault (f : Fault)
  | unknownAnchor (name : String)
  deriving DecidableEq, Repr, Inhabited

/-- The wording of an error. -/
def DocumentError.text : DocumentError → String
  | fault f => f.text
  | unknownAnchor name => "unknown anchor '" ++ name ++ "' referenced"

/-- The state of a parse. -/
structure Parser where
  scanner : Scanner
  /-- What the handles of tags stand for. -/
  handles : List (String × String) := []
  /-- The numbers of the nodes that anchors name, the latest first. -/
  anchors : List (String × Nat) := []
  anchored : List (Nat × Node) := []

/-- A step of a parse. -/
abbrev Parse := StateT Parser (Except DocumentError)

namespace Parse

/-- A step of a scan as a step of a parse. -/
def scanning {α : Type} (step : Scan α) : Parse α := fun p =>
  match step p.scanner with
  | .ok (a, scanner) => .ok (a, { p with scanner })
  | .error f => .error (.fault f)

/-- The next token and its line. -/
def head : Parse Lexeme := scanning Scan.head

/-- The next token. -/
def peek : Parse Token := do return (← head).token

/-- Goes over a token. -/
def drop : Parse Unit := scanning Scan.drop

/-- A problem at a line, in something that began on the line `start`. -/
def fail {α : Type} (start line : Nat) (p : Problem) : Parse α :=
  throw (.fault (.ofTokens start line p))

/-- The node that stands for one that is left out; the line is counted from zero. -/
def absent (line : Nat) : Node := .scalar (line + 1) none true ""

/-! ### Directives and tags -/

/-- What begins the tags of the format itself. -/
def commonStem : String := "tag:yaml.org,2002:"

/-- The handles that every document has. -/
def commonHandles : List (String × String) := [("!", "!"), ("!!", commonStem)]

/-- A tag in its short form; nothing if it is that of a node without one. -/
def shortTag? (tag : String) : Option String :=
  if tag.isEmpty || tag == "!" then none
  else if tag.startsWith commonStem then some ("!!" ++ (tag.drop commonStem.length).toString)
  else some tag

/-- Reads the directives before a document; `versioned` tells whether a version was among them. -/
def directives : Nat → (versioned : Bool) → Parse Unit
  | 0, _ => pure ()
  | fuel + 1, versioned => do
    let ⟨t, line⟩ ← head
    match t with
    | .version major minor =>
      if versioned then fail 0 line .secondVersion
      if major != 1 || minor != 1 then fail 0 line .otherVersion
      drop
      directives fuel true
    | .handle name stem =>
      if ((← get).handles.lookup name).isSome then fail 0 line .secondHandle
      modify fun p => { p with handles := p.handles ++ [(name, stem)] }
      drop
      directives fuel versioned
    | _ => modify fun p => { p with handles := p.handles ++ commonHandles }

/-- An anchor before a node: its name. -/
def anchor? : Parse (Option String) := do
  match ← peek with
  | .anchor name => drop; return some name
  | _ => return none

/-- A tag before a node: its handle, its word and its line. -/
def tag? : Parse (Option (String × String × Nat)) := do
  let ⟨t, line⟩ ← head
  match t with
  | .tag handle suffix => drop; return some (handle, suffix, line)
  | _ => return none

/-- The anchor and the tag before a node, in either order. -/
def properties : Parse (Option String × Option (String × String × Nat)) := do
  match ← anchor? with
  | some name => return (some name, ← tag?)
  | none => match ← tag? with
    | some tag => return (← anchor?, some tag)
    | none => return (none, none)

/-- The tag that a handle and a word stand for, before a node that begins on the line `start`. -/
def wholeTag (start : Nat) : Option (String × String × Nat) → Parse String
  | none => return ""
  | some (handle, suffix, line) =>
    if handle.isEmpty then return suffix
    else do
      let tag := ((← get).handles.lookup handle).elim "" (· ++ suffix)
      if tag.isEmpty then fail start line .unknownHandle
      return tag

/-! ### Nodes -/

/-- Whether a token ends an entry of a block mapping. -/
def endsEntry (t : Token) : Bool := t == .key || t == .value || t == .blockEnd

/-- An alias, with its name. -/
def aliasNode (line : Nat) (name : String) : Parse Node := do
  let p ← get
  match p.anchors.lookup name with
  | none => throw (.unknownAnchor name)
  | some target => do
    drop
    return .alias (line + 1) name p.scanner.taken target

/-- Keeps the node that an anchor names, if there is one. The anchor counts from the beginning of
the node on. -/
def anchoring (anchor : Option String) (read : Parse Node) : Parse Node := do
  match anchor with
  | none => read
  | some name =>
    let number := (← get).scanner.taken
    modify fun p => { p with anchors := (name, number) :: p.anchors }
    let n ← read
    modify fun p => { p with anchored := (number, n) :: p.anchored }
    return n

/-- A node of which there is nothing but its anchor and its tag is an empty text; one of them is
needed. -/
def lone (start line : Nat) (anchor : Option String) (tag : String) : Parse Node :=
  if anchor.isSome || !tag.isEmpty then return .scalar (start + 1) (shortTag? tag) true ""
  else fail start line .noContent

mutual

/-- A node. Block collections are allowed if `block` is set, a sequence without indentation of its
own if `indentless` is set. -/
def node : Nat → (block indentless : Bool) → Parse Node
  | 0, _, _ => fail 0 0 .noContent
  | fuel + 1, block, indentless => do
    let ⟨t, start⟩ ← head
    if let .alias name := t then aliasNode start name
    else
      let (anchor, tag) ← properties
      let tag ← wholeTag start tag
      let short := shortTag? tag
      let ⟨t, line⟩ ← head
      anchoring anchor do
        match t with
        | .scalar text plain =>
          drop
          return .scalar (start + 1) short plain text
        | .flowSequenceStart =>
          drop
          return .sequence (start + 1) short (← flowItems line fuel true)
        | .flowMappingStart =>
          drop
          return .mapping (start + 1) short (← flowEntries line fuel true)
        | .blockEntry =>
          if indentless then return .sequence (start + 1) short (← indentlessItems fuel)
          else lone start line anchor tag
        | .blockSequenceStart =>
          if block then
            drop
            return .sequence (start + 1) short (← blockItems line fuel)
          else lone start line anchor tag
        | .blockMappingStart =>
          if block then
            drop
            return .mapping (start + 1) short (← blockEntries line fuel)
          else lone start line anchor tag
        | _ => lone start line anchor tag
termination_by structural fuel => fuel

/-- The items of a block sequence that began on the line `start`. -/
def blockItems (start : Nat) : Nat → Parse (List Node)
  | 0 => fail 0 0 .noDash
  | fuel + 1 => do
    let ⟨t, line⟩ ← head
    match t with
    | .blockEntry =>
      drop
      let t ← peek
      let item ← if t == .blockEntry || t == .blockEnd then pure (absent line)
        else node fuel true false
      return item :: (← blockItems start fuel)
    | .blockEnd => drop; return []
    | _ => fail start line .noDash
termination_by structural fuel => fuel

/-- The items of a sequence without indentation of its own. -/
def indentlessItems : Nat → Parse (List Node)
  | 0 => fail 0 0 .noDash
  | fuel + 1 => do
    let ⟨t, line⟩ ← head
    match t with
    | .blockEntry =>
      drop
      let t ← peek
      let item ← if t == .blockEntry || endsEntry t then pure (absent line)
        else node fuel true false
      return item :: (← indentlessItems fuel)
    | _ => return []
termination_by structural fuel => fuel

/-- The entries of a block mapping that began on the line `start`. -/
def blockEntries (start : Nat) : Nat → Parse (List (Node × Node))
  | 0 => fail 0 0 .noKey
  | fuel + 1 => do
    let ⟨t, line⟩ ← head
    match t with
    | .key =>
      drop
      let key ← if endsEntry (← peek) then pure (absent line) else node fuel true true
      let value ← blockValue fuel
      return (key, value) :: (← blockEntries start fuel)
    | .blockEnd => drop; return []
    | _ => fail start line .noKey
termination_by structural fuel => fuel

/-- The value of an entry of a block mapping. -/
def blockValue : Nat → Parse Node
  | 0 => fail 0 0 .noKey
  | fuel + 1 => do
    let ⟨t, line⟩ ← head
    if t == .value then
      drop
      if endsEntry (← peek) then return absent line else node fuel true true
    else return absent line
termination_by structural fuel => fuel

/-- The value of an entry of a flow collection that the given token ends. -/
def flowValue (stop : Token) : Nat → Parse Node
  | 0 => fail 0 0 .noContent
  | fuel + 1 => do
    let ⟨t, line⟩ ← head
    if t == .value then
      drop
      let ⟨t, next⟩ ← head
      if t == .flowEntry || t == stop then return absent next else node fuel false false
    else return absent line
termination_by structural fuel => fuel

/-- The items of a sequence in brackets that began on the line `start`. A key makes an item a
mapping with one entry. -/
def flowItems (start : Nat) : Nat → (first : Bool) → Parse (List Node)
  | 0, _ => fail 0 0 .noCommaOrBracket
  | fuel + 1, first => do
    let ⟨t, line⟩ ← head
    if t != .flowSequenceEnd && !first then
      if t == .flowEntry then drop else fail start line .noCommaOrBracket
    let ⟨t, line⟩ ← head
    if t == .flowSequenceEnd then
      drop
      return []
    else
      let item ← if t == .key then do
          drop
          let ⟨t, next⟩ ← head
          let key ← if t == .value || t == .flowEntry || t == .flowSequenceEnd then do
              drop
              pure (absent next)
            else node fuel false false
          let value ← flowValue .flowSequenceEnd fuel
          let _ ← head
          pure (.mapping (line + 1) none [(key, value)])
        else node fuel false false
      return item :: (← flowItems start fuel false)
termination_by structural fuel => fuel

/-- The entries of a mapping in braces that began on the line `start`. -/
def flowEntries (start : Nat) : Nat → (first : Bool) → Parse (List (Node × Node))
  | 0, _ => fail 0 0 .noCommaOrBrace
  | fuel + 1, first => do
    let ⟨t, line⟩ ← head
    if t != .flowMappingEnd && !first then
      if t == .flowEntry then drop else fail start line .noCommaOrBrace
    let t ← peek
    if t == .flowMappingEnd then
      drop
      return []
    else
      let entry ← if t == .key then do
          drop
          let ⟨t, next⟩ ← head
          let key ← if t == .value || t == .flowEntry || t == .flowMappingEnd then
              pure (absent next)
            else node fuel false false
          pure (key, ← flowValue .flowMappingEnd fuel)
        else do
          let key ← node fuel false false
          pure (key, absent (← head).line)
      return entry :: (← flowEntries start fuel false)
termination_by structural fuel => fuel

end

/-- The root of the first document, and the token behind it. -/
def root (fuel : Nat) : Parse (Option Node) := do
  let _ ← head
  drop
  match ← peek with
  | .streamEnd => return none
  | .version .. | .handle .. | .documentStart =>
    directives fuel false
    let ⟨t, line⟩ ← head
    if t != .documentStart then fail 0 line .noDocumentStart
    drop
    let ⟨t, line⟩ ← head
    let n ← match t with
      | .version .. | .handle .. | .documentStart | .documentEnd | .streamEnd =>
        pure (absent line)
      | _ => node fuel true false
    let _ ← head
    return some n
  | _ =>
    directives fuel false
    let n ← node fuel true false
    let _ ← head
    return some n

end Parse

/-- The first document of a text, if it has one. -/
def Document.parse (bytes : List UInt8) : Except DocumentError (Option Document) := do
  let reader := Reader.ofSource (.ofBytes bytes)
  -- a node takes at most two steps for each of its tokens, and there are at most four tokens for a
  -- character
  let (root, p) ← (Parse.root (8 * reader.rest.length + 16)).run { scanner := { reader } }
  return root.map (⟨·, p.anchored⟩)

end CSharpAudit.Yaml
