import CSharpAudit.Proofs.Nesting
import CSharpAudit.Proofs.Walk

/-!
# What a walk leaves out

A walk that hands something down at every node lists each node it reaches once, and each node before
those below it. It does not depend on what is handed down which nodes these are: they are the
children, the children of the children, and so on.

Not all parts of a node are children. The type arguments of a member access and the type parameters
of a delegate are parts that no walk reaches, though those of other constructs are reached; and
where a constructor begins with the call of another one, the arguments of that call are reached and
the call is not. A walk covers a whole tree if none of the nodes that it lists has such a part.

## Main definitions

* `Part` — what a node consists of: nodes, and the call with which a constructor begins
* `Node.unvisited` — the parts of a node that are no children
* `Node.partAt?` — the part at an address, those that are no children included

## Main results

* `Node.pairwise_visits` — no node is listed behind or twice among those below it
* `Node.map_node_visits` — a walk lists the nodes of a tree, whatever it hands down
* `walk_covers_parts_iff` — a walk covers the parts of a tree unless it lists a node with a part
  that is no child
-/

namespace CSharpAudit

namespace Node

variable {σ : Type} {down : Visit σ → σ} {n m : Node} {s : σ} {address : Address}

/-! ### Order -/

variable (down) in
/-- A walk lists a node before those below it, and lists none again. -/
theorem pairwise_visits (n : Node) (s : σ) (address : Address) :
    (n.visits (fun v => some (down v)) s address).Pairwise
      fun v w => ¬ w.address <:+ v.address := by
  induction n using induction_on_children generalizing s address with
  | step n ih =>
    have hsuffix {c : Node} {below : σ} {i : Nat} {v : Visit σ}
        (hv : v ∈ c.visits (fun v => some (down v)) below (i :: address)) :
        i :: address <:+ v.address := (visited_of_mem_visits hv).suffix
    rw [visits_eq, Option.elim_some, List.pairwise_cons]
    constructor
    · -- all that is below has a longer address
      intro v hv hshort
      obtain ⟨c, -, hv⟩ := List.mem_flatMap.mp hv
      have hlong := (hsuffix hv).length_le
      have hle := hshort.length_le
      simp only [List.length_cons] at hlong hle
      omega
    · rw [List.pairwise_flatMap]
      constructor
      · intro c hc
        exact ih c.1 (List.fst_mem_of_mem_zipIdx hc) _ _
      · have hne : n.children.zipIdx.Pairwise fun c d => c.2 ≠ d.2 := by
          rw [← List.pairwise_map (R := (· ≠ ·)), List.zipIdx_map_snd]
          exact List.nodup_range'
        refine hne.imp fun {c d} hcd => ?_
        intro v hv w hw hwv
        -- both addresses would end in those of two different children
        have hd : d.2 :: address <:+ v.address := (hsuffix hw).trans hwv
        have hwithin := List.suffix_of_suffix_length_le (hsuffix hv) hd (Nat.le_refl _)
        exact hcd (List.cons.inj (hwithin.eq_of_length rfl)).1

/-- A walk that goes on everywhere lists all nodes of a tree. -/
theorem map_node_visits (n : Node) (s : σ) (address : Address) :
    (n.visits (fun v => some (down v)) s address).map (·.node) = n.nodes :=
  map_node_visits_eq_reached (fun _ => true) (fun _ => rfl) n s address

/-- A walk that goes on everywhere reaches every address. -/
theorem exists_mem_visits_iff :
    (∃ v ∈ n.visits (fun v => some (down v)) s, v.address = address ∧ v.node = m) ↔
      n.at? address = some m := by
  constructor
  · rintro ⟨v, hv, rfl, rfl⟩
    exact (visited_of_mem_visits hv).at?_eq
  · intro hat
    induction address generalizing m with
    | nil =>
      obtain rfl := Option.some.inj hat
      exact ⟨_, mem_visits_self n s [], rfl, rfl⟩
    | cons i address ih =>
      obtain ⟨p, hp, hm⟩ := Option.bind_eq_some_iff.mp hat
      obtain ⟨v, hv, rfl, rfl⟩ := ih hp
      exact ⟨_, mem_visits_iff.mpr (.child (visited_of_mem_visits hv) rfl hm), rfl, rfl⟩

/-! ### Parts -/

end Node

/-- A part of a syntax tree: a node, or the call of another constructor that a constructor begins
with. -/
inductive Part where
  | node (n : Node)
  | chainedCall (call : ChainedCall)

namespace Node

/-- The call that a constructor begins with. -/
def chainedCalls : Node → List ChainedCall
  | constructor d => d.chained.toList
  | _ => []

/-- The parts right below a node that are no children in a walk. -/
def unvisited (n : Node) : List Part :=
  n.unvisitedNodes.map .node ++ n.chainedCalls.map .chainedCall

end Node

/-- The parts right below a part, children first. The arguments of a chained call are children of
the constructor. -/
def Part.below : Part → List Part
  | node n => n.children.map .node ++ n.unvisited
  | chainedCall _ => []

namespace Node

variable {n m : Node} {address : Address} {part : Part}

/-- The part at an address, where the parts of a node that are no children are numbered behind the
children. -/
def partAt? (root : Node) : Address → Option Part
  | [] => some (.node root)
  | i :: address => (root.partAt? address).bind fun p => p.below[i]?

/-- What stands at an address stands there among the parts. -/
theorem partAt?_eq_of_at? (h : n.at? address = some m) : n.partAt? address = some (.node m) := by
  induction address generalizing m with
  | nil =>
    obtain rfl := Option.some.inj h
    rfl
  | cons i address ih =>
    obtain ⟨p, hp, hm⟩ := Option.bind_eq_some_iff.mp h
    have hi : i < (p.children.map Part.node).length := by
      rw [List.length_map]
      exact (List.getElem?_eq_some_iff.mp hm).1
    rw [partAt?, ih hp, Option.bind_some, Part.below, List.getElem?_append_left hi,
      List.getElem?_map, hm, Option.map_some]

/-- Behind the children of a node stands the first part that is no child. -/
theorem exists_part_of_unvisited (hat : n.at? address = some m) (hm : m.unvisited ≠ []) :
    (∃ part, n.partAt? (m.children.length :: address) = some part) ∧
      n.at? (m.children.length :: address) = none := by
  constructor
  · obtain ⟨part, parts, hparts⟩ := List.exists_cons_of_ne_nil hm
    have hlength : (m.children.map Part.node).length = m.children.length := List.length_map _
    refine ⟨part, ?_⟩
    rw [partAt?, partAt?_eq_of_at? hat, Option.bind_some, Part.below, hparts,
      List.getElem?_append_right (Nat.le_of_eq hlength), hlength, Nat.sub_self]
    rfl
  · rw [at?, hat, Option.bind_some]
    exact List.getElem?_eq_none (Nat.le_refl _)

/-- Where no node that is reached has parts that are no children, every part is reached. -/
theorem exists_at?_of_partAt? (hall : ∀ a p, n.at? a = some p → p.unvisited = [])
    (h : n.partAt? address = some part) : ∃ m, n.at? address = some m ∧ part = .node m := by
  induction address generalizing part with
  | nil => exact ⟨n, rfl, (Option.some.inj h).symm⟩
  | cons i address ih =>
    obtain ⟨above, habove, hpart⟩ := Option.bind_eq_some_iff.mp h
    obtain ⟨p, hat, rfl⟩ := ih habove
    rw [Part.below, hall _ _ hat, List.append_nil, List.getElem?_map] at hpart
    obtain ⟨m, hm, rfl⟩ := Option.map_eq_some_iff.mp hpart
    exact ⟨m, by rw [at?, hat, Option.bind_some, hm], rfl⟩

end Node

/-- A walk that hands something down at every node lists the nodes of a tree, each at its address,
each once, and each before those below it. It lists every part of the tree unless it lists a node
with a part that is no child: a member access with type arguments, a delegate with type parameters,
or a constructor that begins with the call of another one. -/
theorem walk_covers_parts_iff {σ : Type} (down : Visit σ → σ) (n : Node) (s : σ) :
    let visits := n.visits (fun v => some (down v)) s
    visits.map (·.node) = n.nodes ∧
    (visits.Pairwise fun v w => ¬ w.address <:+ v.address) ∧
    (∀ address m, (∃ v ∈ visits, v.address = address ∧ v.node = m) ↔ n.at? address = some m) ∧
    ((∀ address part, n.partAt? address = some part →
        ∃ v ∈ visits, v.address = address ∧ Part.node v.node = part) ↔
      ∀ v ∈ visits, v.node.unvisited = []) := by
  refine ⟨Node.map_node_visits n s [], Node.pairwise_visits down n s [],
    fun _ _ => Node.exists_mem_visits_iff, ?_⟩
  constructor
  · intro hcover v hv
    -- A part that is not visited has an address at which no child stands.
    by_contra hm
    have hat : n.at? v.address = some v.node := (Node.visited_of_mem_visits hv).at?_eq
    obtain ⟨⟨part, hpart⟩, hnone⟩ := Node.exists_part_of_unvisited hat hm
    obtain ⟨w, hw, haddress, -⟩ := hcover _ _ hpart
    rw [← haddress, (Node.visited_of_mem_visits hw).at?_eq] at hnone
    cases hnone
  · intro hall address part hpart
    -- Where nothing is left out, all parts are children.
    have hnone (a : Address) (p : Node) (hp : n.at? a = some p) : p.unvisited = [] := by
      obtain ⟨v, hv, -, rfl⟩ : ∃ v ∈ n.visits (fun v => some (down v)) s,
          v.address = a ∧ v.node = p := Node.exists_mem_visits_iff.mpr hp
      exact hall v hv
    obtain ⟨m, hat, rfl⟩ := Node.exists_at?_of_partAt? hnone hpart
    obtain ⟨v, hv, haddress, rfl⟩ := (@Node.exists_mem_visits_iff _ down ..).mpr hat
    exact ⟨v, hv, haddress, rfl⟩

/-- A call of a member with a type argument. -/
def genericCallText : List UInt8 := "class C { int M() => a.B<int>(); }".toList.map Lexer.ascii

/-- The place of the type argument of the call: it stands behind the only child of the member access
that is called in the body of the method. -/
def typeArgumentPlace : Address := [1, 0, 1, 0, 0]

/-- The type that a part writes. -/
def Part.typeRef? : Part → Option TypeRef
  | node (.type t) => some t
  | _ => none

theorem Part.eq_of_typeRef? {part : Part} {t : TypeRef} (h : part.typeRef? = some t) :
    part = .node (.type t) := by
  unfold Part.typeRef? at h
  split at h
  · obtain rfl := Option.some.inj h
    rfl
  · cases h

/-- The type argument of the call is a part of the tree that no walk lists. -/
theorem generic_call_not_covered : ∃ u t, parse genericCallText = .ok u ∧
    (Node.unit u).partAt? typeArgumentPlace = some (.node (.type t)) ∧ t.name = "int" ∧
      ∀ v ∈ (Node.unit u).visits (fun _ => some ()) (), v.address ≠ typeArgumentPlace := by
  have hread : (parse genericCallText).toOption.any (fun u =>
      ((Node.unit u).at? typeArgumentPlace).isNone &&
        (((Node.unit u).partAt? typeArgumentPlace).bind Part.typeRef?).any (·.name == "int")) =
      true := by
    rw [show genericCallText = _ from Lexer.ascii_ofList _]
    decide +kernel
  obtain ⟨u, hparse, hfacts⟩ := exists_parse_of_any hread
  obtain ⟨hnone, hpart⟩ := Bool.and_eq_true_iff.mp hfacts
  obtain ⟨t, ht, hname⟩ := (Option.any_eq_true _ _).mp hpart
  obtain ⟨p, hp, hpt⟩ := Option.bind_eq_some_iff.mp ht
  obtain rfl := Part.eq_of_typeRef? hpt
  refine ⟨u, t, hparse, hp, eq_of_beq hname, ?_⟩
  intro v hv hplace
  have hat := (Node.visited_of_mem_visits hv).at?_eq
  rw [hplace] at hat
  rw [hat] at hnone
  cases hnone

end CSharpAudit
