import CSharpAudit.Config.Mismatch
import CSharpAudit.Diagnostic.Code
import CSharpAudit.Text.Base64
import CSharpAudit.Yaml.Node
import CSharpAudit.Yaml.Scalar

/-!
# Reading documents from YAML

A text may be written plainly or in quotation marks; a number may have a fraction, which is cut off;
a truth value may be one of the words of older versions of the format. What is empty or `null` says
nothing: it changes no field, and is no item of a list.

Values of a wrong type are noted and the reading goes on, so that all of them are reported; other
errors end it.

## Main definitions

* `Yaml.Meaning` — what the text of a node means
* `Yaml.TypeError`, `Yaml.ReadError` — what can be wrong with a document
* `Yaml.read` — a document of a shape, read from a text
-/

namespace CSharpAudit.Yaml

/-! ### Errors -/

/-- A value that is not of the expected type, or one that is given twice. -/
inductive TypeError where
  /-- The text is shown unless the value is a collection. -/
  | mismatch (line : Nat) (tag : String) (shown : Option String) (type : String)
  | duplicateKey (line : Nat) (key : String) (first : Nat)
  | duplicateField (line : Nat) (name type : String)
  deriving DecidableEq, Repr, Inhabited

/-- The text that is shown of a value: its first seven bytes if it has more than ten. -/
def shownText (s : String) : String :=
  let bytes := Text.Utf8.bytes s
  if bytes.length > 10 then " `" ++ Text.Utf8.text (bytes.take 7) ++ "...`" else " `" ++ s ++ "`"

/-- The wording of an error. -/
def TypeError.text : TypeError → String
  | mismatch line tag shown type =>
    "line " ++ toString line ++ ": cannot unmarshal " ++ tag ++ shown.elim "" shownText ++ " into "
      ++ type
  | duplicateKey line key first =>
    "line " ++ toString line ++ ": mapping key " ++ Text.Quoted.text key
      ++ " already defined at line " ++ toString first
  | duplicateField line name type =>
    "line " ++ toString line ++ ": field " ++ name ++ " already set in type " ++ type

/-- Why a document cannot be read. -/
inductive ReadError where
  | document (e : DocumentError)
  | otherType (found text expected : String)
  | noBase64
  | selfContained (anchor : String)
  | tooManyAliases
  | noMapping
  | collectionKey (type : String)
  | unknownSeverity (word : String)
  | types (errors : List TypeError)
  deriving Repr, Inhabited

/-- The wording of an error. -/
def ReadError.text : ReadError → String
  | document e => "yaml: " ++ e.text
  | otherType found text expected =>
    "yaml: cannot decode " ++ found ++ " `" ++ text ++ "` as a " ++ expected
  | noBase64 => "yaml: !!binary value contains invalid base64 data"
  | selfContained anchor => "yaml: anchor '" ++ anchor ++ "' value contains itself"
  | tooManyAliases => "yaml: document contains excessive aliasing"
  | noMapping => "yaml: map merge requires map or sequence of maps as the value"
  | collectionKey type => "yaml: runtime error: hash of unhashable type " ++ type
  | unknownSeverity word => Severity.unknownText word
  | types errors => "yaml: unmarshal errors:\n  " ++ "\n  ".intercalate (errors.map (·.text))

/-! ### Texts -/

/-- What the text of a node means. -/
structure Meaning where
  tag : String
  value : Scalar
  text : String

/-- What the text of a node means. Texts with tags of their own are just texts. -/
def meaning (tag : Option String) (plain : Bool) (text : String) : Except ReadError Meaning :=
  match tag with
  | none =>
    if !plain then .ok ⟨"!!str", .text, text⟩
    else if text == "<<" then .ok ⟨"!!merge", .text, text⟩
    else
      let v := Scalar.ofText true text
      .ok ⟨v.tag, v, text⟩
  | some "!!binary" => match Text.Base64.decode? text with
    | some bytes => .ok ⟨"!!binary", .text, Text.Utf8.text bytes⟩
    | none => .error .noBase64
  | some tag =>
    if Scalar.typeTags.contains tag then match Scalar.ofTagged? tag text with
      | .ok v => .ok ⟨tag, v, text⟩
      | .error v => .error (.otherType v.tag text tag)
    else .ok ⟨tag, .text, text⟩

namespace Node

/-- The line of a node. -/
def line : Node → Nat
  | .scalar line .. | .sequence line .. | .mapping line .. | .alias line .. => line

/-- Whether two keys count as the same before they are read. -/
def sameKey : Node → Node → Bool
  | .scalar _ _ _ s, .scalar _ _ _ t => s == t
  | .sequence .., .sequence .. => true
  | .mapping .., .mapping .. => true
  | .alias _ s _ _, .alias _ t _ _ => s == t
  | _, _ => false

/-- The text of a key as messages show it. -/
def keyText : Node → String
  | .scalar _ _ _ text => text
  | .alias _ name _ _ => name
  | _ => ""

/-- Whether a key merges another mapping into its own. -/
def isMerge : Node → Bool
  | .scalar _ none true "<<" | .scalar _ (some "!!merge") _ "<<" => true
  | _ => false

/-- The node that an alias stands for, or the node itself. -/
def target (anchored : List (Nat × Node)) : Node → Node
  | .alias line name number target =>
    (anchored.lookup target).getD (.alias line name number target)
  | n => n

/-- Whether a node is a mapping. -/
def isMapping : Node → Bool
  | .mapping .. => true
  | _ => false

/-- Whether a text stands for nothing. -/
def isNull : Node → Bool
  | .scalar _ none plain text => plain && Scalar.ofText true text == .null
  | .scalar _ (some tag) _ _ => tag == "!!null"
  | _ => false

/-- Whether a key is meant as a text. -/
def isTextKey : Node → Bool
  | .scalar _ none plain text => !plain || Scalar.ofText true text == .text
  | .scalar _ (some tag) _ _ => tag == "!!str" || tag == "!!merge"
  | _ => false

end Node

/-- The keys of a mapping that are there before, each with its line. -/
def duplicateKeys : List (Node × Node) → List TypeError
  | [] => []
  | (k, _) :: rest =>
    ((rest.filter fun (other, _) => k.sameKey other).map fun (other, _) =>
      .duplicateKey other.line other.keyText k.line) ++ duplicateKeys rest

/-! ### Decoding -/

/-- The state of a decoding. -/
structure Decoder where
  /-- How many nodes have been read. -/
  count : Nat := 0
  /-- How many of them by aliases. -/
  aliased : Nat := 0
  /-- The aliases that are being read. -/
  active : List Nat := []
  /-- The errors so far, the last first. -/
  errors : List TypeError := []

/-- A step of a decoding. -/
abbrev Decode := StateT Decoder (Except ReadError)

namespace Decode

/-- Whether too many of the nodes that have been read came from aliases: more than 99 of a hundred
in small documents, and fewer in documents of more than 400000 nodes. -/
def excessive (aliased count : Nat) : Bool :=
  let allowed := -- in parts of 360000000
    if count ≤ 400000 then 356400000
    else if count ≥ 4000000 then 36000000
    else 356400000 - 89 * (count - 400000)
  aliased > 100 && count > 1000 && aliased * 360000000 > allowed * count

/-- Counts a node. -/
def visit : Decode Unit := do
  let d ← get
  let count := d.count + 1
  let aliased := if d.active.isEmpty then d.aliased else d.aliased + 1
  if excessive aliased count then throw .tooManyAliases
  set { d with count, aliased }

/-- Notes an error. -/
def note (e : TypeError) : Decode Unit := modify fun d => { d with errors := e :: d.errors }

/-- Reads what an alias stands for. -/
def following {α : Type} (name : String) (number : Nat) (read : Decode α) : Decode α := do
  if (← get).active.contains number then throw (.selfContained name)
  modify fun d => { d with active := number :: d.active }
  let a ← read
  modify fun d => { d with active := d.active.drop 1 }
  return a

/-- The truth value that a word of older versions of the format stands for. -/
def boolWord? : String → Option Bool
  | "y" | "Y" | "yes" | "Yes" | "YES" | "on" | "On" | "ON" => some true
  | "n" | "N" | "no" | "No" | "NO" | "off" | "Off" | "OFF" => some false
  | _ => none

/-- The value of a text that means something, where a value without parts is expected. -/
def leaf? (kind : Leaf) (m : Meaning) : Except ReadError (Option Json) :=
  match kind, m.value with
  | .text, _ => .ok (some (.string m.text))
  | .severity, _ =>
    if (Severity.ofText? m.text).isSome then .ok (some (.string m.text))
    else .error (.unknownSeverity m.text)
  | .int, .int n => .ok (if n ≤ maxInt then some (.int n) else none)
  | .int, .real whole => .ok (whole.map .int)
  | .bool, .bool b => .ok (some (.bool b))
  | .bool, .text => .ok ((boolWord? m.text).map .bool)
  | _, _ => .ok none

/-- The value of a text. -/
def scalar (shape : Shape) (line : Nat) (tag : Option String) (plain : Bool) (text : String) :
    Decode (Option Json) := do
  let m ← meaning tag plain text
  match m.value, shape with
  | .null, .list _ | .null, .table _ => return some .null
  | .null, _ => return none
  | _, _ =>
    let v ← match shape with
      | .leaf kind => leaf? kind m
      | _ => pure none
    if v.isNone then note (.mismatch line m.tag (some text) shape.typeName)
    return v

/-- Whether no two keys of a mapping count as the same; otherwise this is noted. -/
def distinct (es : List (Node × Node)) : Decode Bool := do
  let errors := duplicateKeys es
  errors.forM note
  return errors.isEmpty

/-- Notes that a collection is not of the expected type. -/
def wrongCollection (shape : Shape) (line : Nat) (tag : Option String) (usual : String) :
    Decode (Option Json) := do
  let tag := tag.getD usual
  let shown := if tag == "!!seq" || tag == "!!map" then none else some ""
  note (.mismatch line tag shown shape.typeName)
  return none

/-- The text of a key, read without regard to what is expected, if it is a text. -/
def freeKey? (anchored : List (Nat × Node)) : Nat → Node → Decode (Option String)
  | 0, _ => throw .tooManyAliases
  | fuel + 1, n => do
    visit
    match n with
    | .alias _ name number _ =>
      following name number (freeKey? anchored fuel (n.target anchored))
    | .scalar _ tag plain text =>
      let m ← meaning tag plain text
      return if m.value == .text then some m.text else none
    | .sequence .. => throw (.collectionKey "[]interface \x7b\x7d")
    | .mapping _ _ es =>
      let keys := if es.all (·.1.isTextKey) then "string" else "interface \x7b\x7d"
      throw (.collectionKey ("map[" ++ keys ++ "]interface \x7b\x7d"))

/-- The fields of a record or a table that have been read. -/
abbrev Fields := List (String × Json)

/-- Gives a field a value. -/
def put (fs : Fields) (name : String) (v : Json) : Fields :=
  if fs.any (·.1 == name) then fs.map fun f => if f.1 == name then (name, v) else f
  else fs ++ [(name, v)]

mutual

/-- The value of a node; nothing if it says nothing or is of a wrong type. -/
def value (anchored : List (Nat × Node)) : Nat → Shape → Node → Decode (Option Json)
  | 0, _, _ => throw .tooManyAliases
  | fuel + 1, shape, n => do
    visit
    match n with
    | .alias _ name number _ =>
      following name number (value anchored fuel shape (n.target anchored))
    | .scalar line tag plain text => scalar shape line tag plain text
    | .sequence line tag items => match shape with
      | .list item => return some (.array (← items.filterMapM (value anchored fuel item)))
      | _ => wrongCollection shape line tag "!!seq"
    | .mapping line tag es =>
      if !(← distinct es) then return none
      else match shape with
        | .record .. | .table _ =>
          return some (.object (← entries anchored fuel shape [] none es).1)
        | _ => wrongCollection shape line tag "!!map"
termination_by structural fuel => fuel

/-- Adds the entries of a mapping to the fields that have been read. In a mapping that is merged
into another, `merged` are the keys that do not count any more, because they were given before. -/
def entries (anchored : List (Nat × Node)) : Nat → Shape → Fields → Option (List String) →
    List (Node × Node) → Decode (Fields × Option (List String))
  | 0, _, _, _, _ => throw .tooManyAliases
  | fuel + 1, shape, fs, merged, es => do
    let own := es.filter (!·.1.isMerge)
    let (fs, merged, _) ← own.foldlM (fun (fs, merged, done) (k, v) => do
        let some (.string name) ← value anchored fuel (.leaf .text) k | return (fs, merged, done)
        if merged.any (·.contains name) then return (fs, merged, done)
        let merged := merged.map (name :: ·)
        match shape with
        | .table item =>
          match ← value anchored fuel item v with
          | some json => return (put fs name json, merged, done)
          | none =>
            if (v.target anchored).isNull && !fs.any (·.1 == name) then
              return (put fs name item.zero, merged, done)
            else return (fs, merged, done)
        | .record type known =>
          match known.lookup name with
          | none => return (fs, merged, done)
          | some field =>
            if done.contains name then
              note (.duplicateField k.line name type)
              return (fs, merged, done)
            else
              let fs := (← value anchored fuel field v).elim fs (put fs name)
              return (fs, merged, name :: done)
        | _ => return (fs, merged, done)) (fs, merged, ([] : List String))
    match (es.filter (·.1.isMerge)).getLast? with
    | none => return (fs, merged)
    | some (_, source) =>
      let taken ← match merged with
        | some names => pure names
        | none => es.filterMapM fun (k, _) => freeKey? anchored fuel k
      let sources := match source with
        | .sequence _ _ items => items
        | n => [n]
      let (fs, taken) ← sources.foldlM (fun (fs, taken) n => do
        if (n.target anchored).isMapping then merge anchored fuel shape fs taken n
        else throw .noMapping) (fs, taken)
      return (fs, merged.map fun _ => taken)
termination_by structural fuel => fuel

/-- Adds the entries of a mapping, or of one that an alias stands for, to the fields of another. -/
def merge (anchored : List (Nat × Node)) : Nat → Shape → Fields → List String → Node →
    Decode (Fields × List String)
  | 0, _, _, _, _ => throw .tooManyAliases
  | fuel + 1, shape, fs, taken, n => do
    visit
    match n with
    | .alias _ name number _ =>
      following name number (merge anchored fuel shape fs taken (n.target anchored))
    | .mapping _ _ es =>
      if !(← distinct es) then return (fs, taken)
      else
        let (fs, merged) ← entries anchored fuel shape fs (some taken) es
        return (fs, merged.getD taken)
    | _ => throw .noMapping
termination_by structural fuel => fuel

end

end Decode

/-- A document of a shape, read from a text. An empty text says nothing. -/
def read (shape : Shape) (bytes : List UInt8) : Except ReadError Json := do
  match Document.parse bytes with
  | .error e => throw (.document e)
  | .ok none => return .null
  | .ok (some doc) =>
    let size := bytes.length + 4
    -- no alias is read inside itself, so each is read once on the way to a node
    let (v, d) ← (do Decode.visit; Decode.value doc.anchored (size * size) shape doc.root).run {}
    if d.errors.isEmpty then return v.getD .null else throw (.types d.errors.reverse)

end CSharpAudit.Yaml
