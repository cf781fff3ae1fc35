import CSharpAudit.Syntax.Cursor
import CSharpAudit.Proofs.Walk

/-!
# Cursors and declarations

Two walks give a name to the same places. The declarations of a file are listed by a walk that
looks below namespaces and types only and hands a path down; the rules see every node with the
surroundings that are pushed on the way to it. A cursor tells the place of its node: what it says
about the nodes above, about loops, namespaces, types and members can be read off the nodes between
the root and the node, and at a declaration it agrees with the list of declarations.

Surroundings handed down are values, so nothing has to be taken back when a node is left. A visitor
that is told of each node when it is entered and when it is left keeps a stack of frames instead;
the frame on top then says the same, and the stack is empty again at the end.

## Main definitions

* `Cursor.Describes` — a cursor is right about the place of its node
* `Framing.Stacked` — a visitor with a frame for each node it is inside of
* `Framing.Walker` — the visitor that shows cursors

## Main results

* `Surroundings.Tracks.push` — surroundings stay right about the nodes between root and node
* `Framing.Stacked.walk_events` — a visitor with frames does what a walk that hands values down does
* `Framing.walk_events` — a visitor takes back all that it pushes for a tree
* `cursors_track_declarations` — cursors describe the places of their nodes and of declarations
-/

namespace CSharpAudit

namespace Node

/-- The name of a namespace declaration. -/
def namespaceName? : Node → Option String
  | namespaceDecl d => some d.name
  | _ => none

/-- The declaration of a type. -/
def typeDecl? : Node → Option (TypeDecl Node)
  | typeDecl d => some d
  | _ => none

theorem typeDecl?_eq_none_of_isMember {n : Node} (h : n.isMember = true) : n.typeDecl? = none := by
  cases n <;> first | rfl | exact absurd h Bool.false_ne_true

theorem isMember_of_holdsDeclarations {n : Node} (h : n.holdsDeclarations = true) :
    n.isMember = false := by
  cases n <;> first | rfl | exact absurd h Bool.false_ne_true

end Node

namespace DeclPath

variable (p : DeclPath) (n : Node)

theorem namespaceName_enter : (p.enter n).namespaceName =
    n.namespaceName?.elim p.namespaceName (dotted p.namespaceName) := by
  cases n <;> rfl

theorem types_enter : (p.enter n).types =
    if n.namespaceName?.isSome then [] else p.types ++ n.typeDecl?.toList := by
  cases n <;> simp [enter, withNamespace, withType, Node.namespaceName?, Node.typeDecl?]

end DeclPath

namespace Surroundings

variable {s : Surroundings} {address : Address} {n : Node} {as : List Address}

/-- All that a node does to the surroundings handed to it. -/
theorem push_eq : s.push address n = {
    chain := n :: s.chain
    path := s.path.enter n
    member := if n.typeDecl?.isSome then "" else
      if n.isMember && s.memberNode.isNone then (s.path.enter n).declName n else s.member
    memberNode := if n.typeDecl?.isSome then none else
      s.memberNode.or (if n.isMember then some (address, n) else none)
    loops := if n.isLoop then s.loops + 1 else s.loops } := by
  have hmatch (inType outside : Surroundings) :
      (match n with | .typeDecl _ => inType | _ => outside) =
        if n.typeDecl?.isSome then inType else outside := by
    cases n <;> rfl
  refine (hmatch _ _).trans ?_
  cases n.typeDecl?.isSome <;> cases n.isMember <;> cases s.memberNode <;> simp

/-- Surroundings are right about the nodes between the root and a node. These stand at the given
addresses. -/
structure Tracks (s : Surroundings) (as : List Address) : Prop where
  length_eq : s.chain.length = as.length
  /-- All loops count. -/
  loops_eq : s.loops = s.chain.countP Node.isLoop
  /-- All namespaces make up the name of the namespace, the outermost in front. -/
  namespaceName_eq : s.path.namespaceName =
    (s.chain.reverse.filterMap Node.namespaceName?).foldl DeclPath.dotted ""
  /-- The types are those below the innermost namespace, the outermost in front. -/
  types_eq : s.path.types =
    (s.chain.takeWhile fun n => n.namespaceName?.isNone).reverse.filterMap Node.typeDecl?
  /-- The member is the outermost one below the innermost type, with its address. -/
  memberNode_eq : s.memberNode =
    ((as.zip s.chain).takeWhile fun place => place.2.typeDecl?.isNone).reverse.find?
      fun place => place.2.isMember

theorem Tracks.empty : Tracks {} [] where
  length_eq := rfl
  loops_eq := rfl
  namespaceName_eq := rfl
  types_eq := rfl
  memberNode_eq := rfl

/-- Surroundings stay right when a further node is pushed. -/
theorem Tracks.push (h : s.Tracks as) : (s.push address n).Tracks (address :: as) where
  length_eq := by simp [push_eq, h.length_eq]
  loops_eq := by
    simp only [push_eq, List.countP_cons, h.loops_eq]
    split <;> rfl
  namespaceName_eq := by
    simp only [push_eq, List.reverse_cons, List.filterMap_append, List.foldl_append,
      DeclPath.namespaceName_enter, h.namespaceName_eq]
    cases hname : n.namespaceName? <;> simp [hname]
  types_eq := by
    simp only [push_eq, DeclPath.types_enter, h.types_eq, List.takeWhile_cons]
    cases n.namespaceName? with
    | some _ => rfl
    | none =>
      simp only [Option.isSome_none, Option.isNone_none, if_true, List.reverse_cons,
        List.filterMap_append]
      cases htype : n.typeDecl? <;> simp [htype]
  memberNode_eq := by
    simp only [push_eq, List.zip_cons_cons, List.takeWhile_cons, h.memberNode_eq]
    cases n.typeDecl? with
    | some d => rfl
    | none => simp [List.find?_append]

end Surroundings

namespace Cursor

/-- A cursor is right about the place of its node in a tree. -/
structure Describes (root : Node) (c : Cursor) : Prop where
  node_eq : root.at? c.address = some c.node
  /-- The chain leads from the node to the root. -/
  chain_eq : c.chain.map some = c.address.tails.map root.at?
  /-- The parent is the node one of whose children is the node. -/
  parent_eq : ∀ i address, c.address = i :: address →
    ∃ p, c.parent = some p ∧ root.at? address = some p ∧ p.children[i]? = some c.node
  parent_root : c.address = [] → c.parent = none
  /-- The path is built from the namespaces and types of the chain, and the loops and the member
  are those of the chain. -/
  tracks : c.Tracks c.address.tails

end Cursor

/-- The surroundings of a visited node, as a cursor. -/
def Visit.cursor (v : Visit Surroundings) : Cursor := ⟨v.surroundings, v.address, v.node⟩

namespace Node

variable {root : Node} {v : Visit Surroundings}

/-- Every cursor of a walk is right about the place of its node. -/
theorem Visited.describes (h : Visited (fun v => some v.surroundings) ⟨[], {}, root⟩ v) :
    v.cursor.Describes root := by
  -- along the way down from the root
  induction h with
  | root =>
    exact {
      node_eq := rfl
      chain_eq := by simp [Visit.cursor, Visit.surroundings, Surroundings.push_eq, at?]
      parent_eq := fun _ _ h => absurd h.symm (List.cons_ne_nil _ _)
      parent_root := fun _ => by
        simp [Cursor.parent, Cursor.ancestors, Visit.cursor, Visit.surroundings,
          Surroundings.push_eq]
      tracks := Surroundings.Tracks.empty.push }
  | @child v below i c hv henter hc ih =>
    obtain rfl := Option.some.inj henter
    have hat : root.at? (i :: v.address) = some c := by
      rw [at?, show root.at? v.address = some v.node from ih.node_eq, Option.bind_some, hc]
    refine {
      node_eq := hat
      chain_eq := ?_
      parent_eq := fun j address h => ?_
      parent_root := fun h => absurd h (List.cons_ne_nil _ _)
      tracks := ih.tracks.push }
    · rw [Visit.cursor, Visit.surroundings, Surroundings.push_eq, List.map_cons, List.tails,
        List.map_cons, hat]
      exact congrArg _ ih.chain_eq
    · obtain ⟨rfl, rfl⟩ := List.cons.inj h
      refine ⟨v.node, ?_, ih.node_eq, hc⟩
      simp [Cursor.parent, Cursor.ancestors, Visit.cursor, Visit.surroundings,
        Surroundings.push_eq]

variable (root) in
/-- The name of a member is the one its declaration has where it stands. -/
structure Named (s : Surroundings) : Prop where
  outside : s.memberNode = none → s.member = ""
  inside : ∀ address n, s.memberNode = some (address, n) →
    ∃ o, Visited (fun v => some v.surroundings) ⟨[], {}, root⟩ o ∧ o.address = address ∧
      o.node = n ∧ s.member = o.cursor.path.declName n

theorem Named.push (hv : Visited (fun v => some v.surroundings) ⟨[], {}, root⟩ v)
    (h : Named root v.inherited) : Named root v.surroundings := by
  have hpath : v.cursor.path = v.inherited.path.enter v.node := by
    rw [Visit.cursor, Visit.surroundings, Surroundings.push_eq]
  rw [Visit.surroundings, Surroundings.push_eq]
  cases htype : v.node.typeDecl? with
  | some d => exact ⟨fun _ => rfl, fun _ _ hsome => by simp at hsome⟩
  | none =>
    cases hnode : v.inherited.memberNode with
    | some place =>
      refine ⟨by simp, fun address n hsome => ?_⟩
      have hsome : v.inherited.memberNode = some (address, n) := by simpa [hnode] using hsome
      simpa using h.inside address n hsome
    | none =>
      cases hmember : v.node.isMember with
      | false => exact ⟨fun _ => by simpa using h.outside hnode, fun _ _ hsome => by simp at hsome⟩
      | true =>
        refine ⟨by simp, fun address n hsome => ⟨v, hv, ?_⟩⟩
        simp at hsome
        simp [hsome, hpath]

theorem Visited.named (h : Visited (fun v => some v.surroundings) ⟨[], {}, root⟩ v) :
    Named root v.inherited := by
  induction h with
  | root => exact ⟨fun _ => rfl, fun _ _ h => by simp at h⟩
  | child hv henter _ ih =>
    obtain rfl := Option.some.inj henter
    exact ih.push hv

/-- The walk over the declarations and the walk of the cursors meet at each node of the former,
outside all members and with the same path. -/
theorem Visited.exists_of_declarations {enter : Visit DeclPath → Option DeclPath} {w : Visit DeclPath}
    (henter : ∀ w below, enter w = some below →
      w.node.holdsDeclarations = true ∧ below = w.inherited.enter w.node)
    (h : Visited enter ⟨[], {}, root⟩ w) :
    ∃ v, Visited (fun v => some v.surroundings) ⟨[], {}, root⟩ v ∧ v.address = w.address ∧
      v.node = w.node ∧ v.inherited.path = w.inherited ∧ v.inherited.memberNode = none := by
  induction h with
  | root => exact ⟨_, .root, rfl, rfl, rfl, rfl⟩
  | @child w below i c hw hbelow hc ih =>
    obtain ⟨v, hv, haddress, hnode, hpath, hmember⟩ := ih
    -- declarations are looked for below nodes that hold some, and none of these is a member
    obtain ⟨hholds, rfl⟩ := henter _ _ hbelow
    rw [← hnode] at hc hholds
    refine ⟨_, .child hv rfl hc, ?_, rfl, ?_, ?_⟩
    · exact congrArg _ haddress
    · simp only [Visit.surroundings, Surroundings.push_eq, hpath, hnode]
    · simp [Visit.surroundings, Surroundings.push_eq, hmember,
        isMember_of_holdsDeclarations hholds]

end Node

/-! ### A visitor with a stack -/

namespace Framing

/-- What a visitor is told of. -/
inductive Event where
  | enter (address : Address) (node : Node)
  | leave

/-- The events of a tree: a node is entered, the nodes below it follow, and it is left. -/
def events (n : Node) : Address → List Event :=
  n.fold fun n below address =>
    Event.enter address n :: below.zipIdx.flatMap (fun c => c.1 (c.2 :: address)) ++
      [Event.leave]

theorem events_eq (n : Node) (address : Address) : events n address =
    Event.enter address n :: n.children.zipIdx.flatMap (fun c => events c.1 (c.2 :: address)) ++
      [Event.leave] := by
  rw [events, Node.fold_eq, List.zipIdx_map, List.flatMap_map]
  rfl

/-- A visitor that keeps a frame for each node it is inside of. -/
structure Stacked (φ α : Type) where
  stack : List φ := []
  /-- What the visitor has made of the nodes entered so far. -/
  out : α

namespace Stacked

variable {φ α σ : Type} {frame : List φ → Address → Node → φ} {look : List φ → α → Address → Node → α}

variable (frame look) in
/-- A visitor looks at a node it enters and pushes a frame for it, and pops the frame when it leaves
the node. There must be one to pop. -/
def step (w : Stacked φ α) : Event → Option (Stacked φ α)
  | .enter address n => some ⟨frame w.stack address n :: w.stack, look w.stack w.out address n⟩
  | .leave =>
    match w.stack with
    | [] => none
    | _ :: stack => some ⟨stack, w.out⟩

/-- A visitor whose frames stand for what a walk hands down does what is done on the walk, and takes
back all frames that it pushes. -/
theorem walk_events (view : List φ → σ) (down : Visit σ → σ) (take : α → Visit σ → α)
    (hframe : ∀ stack address n,
      view (frame stack address n :: stack) = down ⟨address, view stack, n⟩)
    (hlook : ∀ stack out address n, look stack out address n = take out ⟨address, view stack, n⟩)
    (n : Node) (address : Address) (w : Stacked φ α) :
    (events n address).foldlM (step frame look) w = some ⟨w.stack,
      (n.visits (fun v => some (down v)) (view w.stack) address).foldl take w.out⟩ := by
  induction n using Node.induction_on_children generalizing address w with
  | step n ih =>
    -- the children leave the stack to each other as they found it
    have hchildren : ∀ (cs : List (Node × Nat)), (∀ c ∈ cs, c.1 ∈ n.children) →
        ∀ w : Stacked φ α,
          (cs.flatMap fun c => events c.1 (c.2 :: address)).foldlM (step frame look) w =
            some ⟨w.stack, (cs.flatMap fun c => c.1.visits (fun v => some (down v)) (view w.stack)
              (c.2 :: address)).foldl take w.out⟩ := by
      intro cs hcs
      induction cs with
      | nil => exact fun w => rfl
      | cons c cs ihcs =>
        intro w
        rw [List.flatMap_cons, List.foldlM_append, ih c.1 (hcs c List.mem_cons_self),
          List.flatMap_cons, List.foldl_append]
        exact ihcs (fun d hd => hcs d (List.mem_cons_of_mem c hd)) _
    have hmem : ∀ c ∈ n.children.zipIdx, c.1 ∈ n.children := fun c hc =>
      List.fst_mem_of_mem_zipIdx hc
    rw [events_eq, Node.visits_eq]
    simp only [List.cons_append, List.foldlM_cons, List.foldlM_append, List.foldlM_nil, step,
      Option.bind_eq_bind, Option.bind_some, hchildren _ hmem, hframe, hlook, Option.elim_some,
      List.foldl_cons]
    rfl

end Stacked

/-- What a visitor keeps for a node it is inside of. -/
structure Frame where
  node : Option Node := none
  path : DeclPath := {}
  member : String := ""
  memberNode : Option (Address × Node) := none
  loops : Nat := 0

/-- The frame on top of a stack. -/
def top : List Frame → Frame
  | [] => {}
  | f :: _ => f

/-- The frame of a node, made from a copy of the one on top. -/
def Frame.enter (f : Frame) (address : Address) (n : Node) : Frame :=
  let f := { f with node := some n }
  match n with
  | .namespaceDecl d => { f with path := f.path.withNamespace d.name }
  | .typeDecl d => { f with path := f.path.withType d, member := "", memberNode := none }
  | .method _ | .constructor _ | .property _ | .event _ | .field _ | .delegate _ =>
    if f.memberNode.isNone then
      { f with member := f.path.declName n, memberNode := some (address, n) }
    else f
  | .forStmt .. | .foreachStmt .. | .whileStmt .. | .doStmt .. => { f with loops := f.loops + 1 }
  | _ => f

/-- The surroundings that a stack of frames stands for. -/
def surroundings (stack : List Frame) : Surroundings where
  chain := stack.filterMap (·.node)
  path := (top stack).path
  member := (top stack).member
  memberNode := (top stack).memberNode
  loops := (top stack).loops

/-- A visitor with its stack and with the cursors it has shown so far. -/
structure Walker where
  stack : List Frame := []
  shown : List Cursor := []

/-- A visitor pushes a frame for a node it enters, shows the node, and pops the frame when it leaves
the node. There must be one to pop. -/
def Walker.step (w : Walker) : Event → Option Walker
  | .enter address n =>
    let stack := (top w.stack).enter address n :: w.stack
    some ⟨stack, w.shown ++ [⟨surroundings stack, address, n⟩]⟩
  | .leave =>
    match w.stack with
    | [] => none
    | _ :: stack => some { w with stack }

/-- Pushing a frame is what surroundings do. -/
theorem surroundings_enter (stack : List Frame) (address : Address) (n : Node) :
    surroundings ((top stack).enter address n :: stack) = (surroundings stack).push address n := by
  unfold surroundings
  generalize top stack = f
  obtain ⟨node, path, member, memberNode, loops⟩ := f
  rw [Surroundings.push_eq]
  cases n with
  | method d | constructor d | property d | event d | field d | delegate d =>
    cases memberNode <;>
      simp [Frame.enter, top, DeclPath.enter, Node.isMember, Node.typeDecl?, Node.isLoop]
  | _ => cases memberNode <;> rfl

/-- A visitor shows the nodes of a tree with the surroundings that a walk hands down to them, and
takes back all frames that it pushes. -/
theorem walk_events (n : Node) (address : Address) (w : Walker) :
    (events n address).foldlM Walker.step w = some ⟨w.stack, w.shown ++
      (n.visits (fun v => some v.surroundings) (surroundings w.stack) address).map
        Visit.cursor⟩ := by
  -- A walker is a stacked run whose results are cursors.
  have hstacked (es : List Event) (w : Walker) : es.foldlM Walker.step w =
      (es.foldlM (Stacked.step (fun stack => (top stack).enter) fun stack shown address n =>
          shown ++ [⟨surroundings ((top stack).enter address n :: stack), address, n⟩])
        ⟨w.stack, w.shown⟩).map fun s => ⟨s.stack, s.out⟩ := by
    induction es generalizing w with
    | nil => rfl
    | cons e es ih =>
      obtain ⟨stack, shown⟩ := w
      cases e with
      | enter address n => exact ih _
      | leave =>
        cases stack with
        | nil => rfl
        | cons f stack => exact ih _
  rw [hstacked, Stacked.walk_events surroundings Visit.surroundings
    (fun shown v => shown ++ [v.cursor]) surroundings_enter fun _ _ _ _ => by
      rw [surroundings_enter]
      rfl]
  rw [Option.map_some, List.foldl_append_eq_append, ← List.flatMap_def, ← List.map_eq_flatMap]

end Framing

/-! ### The cursors of a file -/

namespace CompilationUnit

variable {u : CompilationUnit Node}

theorem mem_cursors_iff {c : Cursor} : c ∈ u.cursors ↔
    ∃ v, Node.Visited (fun v => some v.surroundings) ⟨[], {}, .unit u⟩ v ∧ v.cursor = c := by
  simp only [← Node.mem_visits_iff]
  exact List.mem_map

theorem nodup_cursors : (u.cursors.map (·.address)).Nodup := by
  rw [cursors, List.map_map]
  exact Node.nodup_addresses (.unit u) ({} : Surroundings) []

theorem exists_cursor_of_at? : ∀ {address : Address} {n : Node},
    (Node.unit u).at? address = some n → ∃ c ∈ u.cursors, c.address = address ∧ c.node = n := by
  intro address
  induction address with
  | nil =>
    intro n hn
    obtain rfl := Option.some.inj hn
    exact ⟨_, mem_cursors_iff.mpr ⟨_, .root, rfl⟩, rfl, rfl⟩
  | cons i address ih =>
    intro n hn
    obtain ⟨p, hp, hn⟩ := Option.bind_eq_some_iff.mp hn
    obtain ⟨c, hc, rfl, rfl⟩ := ih hp
    obtain ⟨v, hv, rfl⟩ := mem_cursors_iff.mp hc
    exact ⟨_, mem_cursors_iff.mpr ⟨_, .child hv rfl hn, rfl⟩, rfl, rfl⟩

/-- At a declaration, the cursor has its path and, if it is a member, names it. -/
theorem exists_cursor_of_declared {d : Declared} (hd : d ∈ u.declarations) :
    ∃ c ∈ u.cursors, c.address = d.address ∧ c.node = d.node ∧ c.path = d.path ∧
      (d.node.isMember = true →
        c.memberNode = some (d.address, d.node) ∧ c.member = d.path.declName d.node) := by
  obtain ⟨w, hw, hsome⟩ := List.mem_filterMap.mp hd
  rw [Option.ite_none_right_eq_some] at hsome
  obtain rfl := Option.some.inj hsome.2
  obtain ⟨v, hv, haddress, hnode, hpath, houtside⟩ :=
    (Node.mem_visits_iff.mp hw).exists_of_declarations fun w below h => by simp_all
  have hcursor : v.cursor.path = w.inherited.enter w.node := by
    simp only [Visit.cursor, Visit.surroundings, Surroundings.push_eq, hpath, hnode]
  refine ⟨v.cursor, mem_cursors_iff.mpr ⟨v, hv, rfl⟩, haddress, hnode, hcursor, fun hmember => ?_⟩
  have htype := Node.typeDecl?_eq_none_of_isMember hmember
  simp only [Visit.cursor, Visit.surroundings, Surroundings.push_eq, hnode, haddress, hpath,
    houtside, hmember, htype]
  exact ⟨rfl, rfl⟩

/-- A cursor is right about its place and about the name of its member. -/
theorem describes_of_mem {c : Cursor} (hc : c ∈ u.cursors) :
    c.Describes (.unit u) ∧ (c.memberNode = none → c.member = "") ∧
      ∀ address n, c.memberNode = some (address, n) → ∃ o ∈ u.cursors, o.address = address ∧
        o.node = n ∧ c.member = o.path.declName n := by
  obtain ⟨v, hv, rfl⟩ := mem_cursors_iff.mp hc
  have hnamed := hv.named.push hv
  refine ⟨hv.describes, hnamed.outside, fun address n hsome => ?_⟩
  obtain ⟨o, ho, haddress, hnode, hname⟩ := hnamed.inside address n hsome
  exact ⟨o.cursor, mem_cursors_iff.mpr ⟨o, ho, rfl⟩, haddress, hnode, hname⟩

end CompilationUnit

/-- Each node of a file has one cursor. It tells the place of the node: the node whose child it is,
the loops, namespaces and types among the node and those above it, and the outermost member below
the innermost type, with the name this has where it is declared. At each declaration of the file the
cursor has the path of the declaration, and at a member it names that member itself. A visitor that
pushes and pops frames shows the same cursors and ends with an empty stack. -/
theorem cursors_track_declarations (u : CompilationUnit Node) :
    (u.cursors.map (·.address)).Nodup ∧
    (∀ address n, (Node.unit u).at? address = some n →
      ∃ c ∈ u.cursors, c.address = address ∧ c.node = n) ∧
    (∀ d ∈ u.declarations, ∃ c ∈ u.cursors, c.address = d.address ∧ c.node = d.node ∧
      c.path = d.path ∧ (d.node.isMember = true →
        c.memberNode = some (d.address, d.node) ∧ c.member = d.path.declName d.node)) ∧
    (∀ c ∈ u.cursors, c.Describes (.unit u) ∧ (c.memberNode = none → c.member = "") ∧
      ∀ address n, c.memberNode = some (address, n) → ∃ o ∈ u.cursors, o.address = address ∧
        o.node = n ∧ c.member = o.path.declName n) ∧
    (Framing.events (.unit u) []).foldlM Framing.Walker.step {} = some ⟨[], u.cursors⟩ :=
  ⟨CompilationUnit.nodup_cursors, fun _ _ => CompilationUnit.exists_cursor_of_at?,
    fun _ => CompilationUnit.exists_cursor_of_declared, fun _ => CompilationUnit.describes_of_mem,
    Framing.walk_events (.unit u) [] {}⟩

end CSharpAudit
