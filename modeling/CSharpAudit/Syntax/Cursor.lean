import CSharpAudit.Syntax.Construct
import CSharpAudit.Syntax.Declarations

/-!
# Cursors

A rule looks at one node at a time together with its surroundings: the nodes above it, the namespace
and types around it, the member it belongs to and the number of loops around it. A cursor holds
these, and the cursors of a file are listed in the order of a walk.

## Main definitions

* `Cursor` — a node with its surroundings
* `Surroundings.push` — the surroundings of a node from those of its parent
* `CompilationUnit.cursors` — the cursors of all nodes of a file
-/

namespace CSharpAudit

/-- The surroundings of a node, the node itself included. -/
structure Surroundings where
  /-- The node and the nodes above it, innermost first. -/
  chain : List Node := []
  path : DeclPath := {}
  /-- The full name of the member the node belongs to, empty outside members. -/
  member : String := ""
  /-- The declaration of that member, with its address. -/
  memberNode : Option (Address × Node) := none
  /-- The number of loops among the node and the nodes above it. -/
  loops : Nat := 0
  deriving Inhabited

namespace Surroundings

/-- The surroundings of a node, from those of its parent. A type begins outside all members; a
member inside a member, such as a local function, belongs to the outer one. -/
def push (s : Surroundings) (address : Address) (n : Node) : Surroundings :=
  let s := { s with
    chain := n :: s.chain
    path := s.path.enter n
    loops := if n.isLoop then s.loops + 1 else s.loops }
  match n with
  | .typeDecl _ => { s with member := "", memberNode := none }
  | _ =>
    if n.isMember && s.memberNode.isNone then
      { s with member := s.path.declName n, memberNode := some (address, n) }
    else s

end Surroundings

/-- A node of a file with its surroundings. -/
structure Cursor extends Surroundings where
  address : Address
  node : Node

namespace Cursor

/-- The nodes above, innermost first. -/
def ancestors (c : Cursor) : List Node := c.chain.tail

/-- The node directly above. -/
def parent (c : Cursor) : Option Node := c.ancestors.head?

/-- The nearest node above that satisfies a test. -/
def enclosing (c : Cursor) (test : Node → Bool) : Option Node := c.ancestors.find? test

/-- The innermost type around. -/
def owner (c : Cursor) : Option (TypeDecl Node) := c.path.owner

/-- Whether the node stands inside a loop; a loop does not stand inside itself. -/
def inLoop (c : Cursor) : Bool := if c.node.isLoop then c.loops > 1 else c.loops > 0

end Cursor

/-- The surroundings that a node hands down. -/
def Visit.surroundings (v : Visit Surroundings) : Surroundings := v.inherited.push v.address v.node

/-- The cursors of all nodes of a file, each before those of the nodes below it. -/
def CompilationUnit.cursors (u : CompilationUnit Node) : List Cursor :=
  ((Node.unit u).visits (fun v => some v.surroundings) {}).map fun v =>
    ⟨v.surroundings, v.address, v.node⟩

end CSharpAudit
