import CSharpAudit.Syntax.Children

/-!
# Walks over a syntax tree

A walk lists the nodes of a tree, each before the nodes below it. Values are handed down on the way:
the nodes below a node get what `enter` makes of the node and of the value handed to it, and a node
for which `enter` gives nothing is listed without the nodes below it.

## Main definitions

* `Address` — the place of a node in a tree
* `Visit` — a listed node with its address and the value handed down to it
* `Node.visits` — a walk that hands values down
* `Node.nodes` — all nodes of a tree
-/

namespace CSharpAudit

/-- The place of a node in a tree: its index among the children of its parent, in front of the
address of the parent. The root has the empty address. -/
abbrev Address := List Nat

/-- A node met on a walk. -/
structure Visit (σ : Type) where
  address : Address
  /-- What the nodes above hand down. -/
  inherited : σ
  node : Node

namespace Node

/-- The nodes of a tree, each before those below it, with the values handed down. -/
def visits {σ : Type} (enter : Visit σ → Option σ) (n : Node) (s : σ) (address : Address := []) :
    List (Visit σ) :=
  let here : Visit σ := ⟨address, s, n⟩
  here :: match enter here with
    | none => []
    | some below => n.children.attach.zipIdx.flatMap fun (⟨c, _⟩, i) =>
        c.visits enter below (i :: address)
termination_by sizeOf n
decreasing_by exact sizeOf_lt_of_mem_children ‹_›

/-- All nodes of a tree, each before those below it. -/
def nodes (n : Node) : List Node := n.fold fun n below => n :: below.flatten

theorem nodes_eq (n : Node) : n.nodes = n :: n.children.flatMap nodes := by
  rw [nodes, fold_eq, List.flatMap]
  rfl

end Node

end CSharpAudit
