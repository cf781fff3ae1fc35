import CSharpAudit.Xml.Reader

/-!
# Elements of XML

A document holds one element, which may hold texts and further elements. Names count without their
prefixes. What stands behind the element is not looked at.

## Main definitions

* `Xml.Element` — an element or a text
* `Xml.parse?` — the element of a document
* `Xml.Element.value`, `Xml.Element.children`, `Xml.Element.childText` — what an element holds
-/

namespace CSharpAudit.Xml

/-- An element or a text. -/
inductive Element where
  | text (s : String)
  | node (name : String) (attributes : List (String × String)) (content : List Element)
  deriving Inhabited

namespace Element

/-- The name of an element; a text has none. -/
def name : Element → String
  | text _ => ""
  | node name _ _ => name

/-- What stands inside an element. -/
def content : Element → List Element
  | text _ => []
  | node _ _ content => content

/-- The value of an attribute; of several with one name the last counts, and a missing one is
empty. -/
def value (name : String) : Element → String
  | text _ => ""
  | node _ attributes _ => (attributes.reverse.lookup name).getD ""

/-- The elements of a name that stand directly inside an element. -/
def children (name : String) (e : Element) : List Element :=
  e.content.filter fun
    | text _ => false
    | node n _ _ => n == name

/-- The texts that stand directly inside an element. -/
def ownText (e : Element) : String :=
  String.join (e.content.map fun
    | text s => s
    | node .. => "")

/-- The text of the last element of a name that stands directly inside an element. -/
def childText (name : String) (e : Element) : String :=
  ((e.children name).getLast?.map ownText).getD ""

end Element

/-- An element whose end has not been read. -/
structure Open where
  /-- The name with its prefix. -/
  tag : String
  attributes : List (String × String)
  /-- What has been read of its content, the last first. -/
  content : List Element := []

/-- The element with all that has been read. -/
def Open.close (o : Open) : Element := .node (localName o.tag) o.attributes o.content.reverse

/-- The elements around a place, with one more piece of content inside the innermost. -/
def Open.add (e : Element) : List Open → List Open
  | [] => []
  | o :: rest => { o with content := e :: o.content } :: rest

/-- Reads pieces until the outermost element ends. -/
def elementFrom? : Nat → List Open → List Char → Option Element
  | 0, _, _ => none
  | fuel + 1, around, cs => do
    let (piece, cs) ← nextPiece? cs
    let ended (e : Element) (around : List Open) : Option Element :=
      if around.isEmpty then some e else elementFrom? fuel (Open.add e around) cs
    match piece with
    | .aside => elementFrom? fuel around cs
    | .text s => elementFrom? fuel (Open.add (.text s) around) cs
    | .opening tag attributes closed =>
      let o : Open := { tag, attributes }
      if closed then ended o.close around else elementFrom? fuel (o :: around) cs
    | .closing tag => match around with
      | [] => none
      | o :: rest => if o.tag == tag then ended o.close rest else none

/-- The element of a document. -/
def parse? (bytes : List UInt8) : Option Element :=
  let cs := characters bytes
  elementFrom? (cs.length + 1) [] cs

end CSharpAudit.Xml
