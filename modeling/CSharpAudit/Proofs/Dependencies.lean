import CSharpAudit.Dependency.Graph
import CSharpAudit.Proofs.Inheritance
import CSharpAudit.Proofs.Spelling

/-!
# The dependencies of a file

The nodes of a dependency graph are the type symbols of the file, and an edge leads from the symbol
of a type or delegate to another type symbol that a name resolves to. So both ends of an edge are
nodes. Conversely no reference is lost: what a type declaration writes in its base list, as the type
of a member or in the signature of a member becomes an edge, type arguments included, unless the
name refers to nothing in the file or to the declaring type itself.

## Main definitions

* `TypeDecl.Writes` — the references that a type declaration writes, with the kind of dependency
* `DependencyGraph.WellFormed` — a graph between the types of an index

## Main results

* `mem_edges_dependencyGraph` — the edges are the contributions of the declarations, loops apart
* `wellFormed_dependencyGraph` — the graph of a file is well formed
* `mem_edges_of_writes` — a reference to another type of the file gives an edge
* `dependencyGraph_links_declarations` — both together
-/

namespace CSharpAudit

/-! ### Graphs -/

namespace DependencyGraph

variable {g : DependencyGraph} {e : Dependency} {es : List Dependency}

theorem nodes_foldl_addEdge (es : List Dependency) (g : DependencyGraph) :
    (es.foldl addEdge g).nodes = g.nodes := by
  induction es generalizing g with
  | nil => rfl
  | cons e es ih =>
    rw [List.foldl_cons, ih, addEdge]
    split <;> rfl

/-- An edge is added unless it is there or leads back to its source. -/
theorem mem_edges_addEdge {f : Dependency} :
    f ∈ (g.addEdge e).edges ↔ f ∈ g.edges ∨ f = e ∧ e.source ≠ e.target := by
  unfold addEdge
  split
  · next h =>
    -- what is left out is a loop or there already
    rw [Bool.or_eq_true, beq_iff_eq, List.contains_iff_mem] at h
    refine ⟨.inl, ?_⟩
    rintro (hf | ⟨rfl, hne⟩)
    · exact hf
    · exact h.resolve_left hne
  · next h =>
    have hne : e.source ≠ e.target := fun heq => h (by simp [heq])
    simp [hne]

/-- All dependencies are added, loops apart. -/
theorem mem_edges_foldl_addEdge : e ∈ (es.foldl addEdge g).edges ↔
    e ∈ g.edges ∨ e ∈ es ∧ e.source ≠ e.target := by
  induction es generalizing g with
  | nil => simp
  | cons f es ih =>
    rw [List.foldl_cons, ih, mem_edges_addEdge, List.mem_cons]
    constructor
    · rintro ((hg | ⟨rfl, hne⟩) | ⟨hes, hne⟩)
      · exact .inl hg
      · exact .inr ⟨.inl rfl, hne⟩
      · exact .inr ⟨.inr hes, hne⟩
    · rintro (hg | ⟨rfl | hes, hne⟩)
      · exact .inl (.inl hg)
      · exact .inl (.inr ⟨rfl, hne⟩)
      · exact .inr ⟨hes, hne⟩

/-- No edge is added twice. -/
theorem nodup_edges_foldl_addEdge (h : g.edges.Nodup) : (es.foldl addEdge g).edges.Nodup := by
  induction es generalizing g with
  | nil => exact h
  | cons e es ih =>
    refine ih ?_
    unfold addEdge
    split
    · exact h
    · next hnew =>
      have hmem : e ∉ g.edges := fun hmem => hnew (by simp [hmem])
      exact List.nodup_append.mpr ⟨h, List.nodup_singleton _, fun a ha b hb heq =>
        hmem (List.mem_singleton.mp hb ▸ heq ▸ ha)⟩

/-- Nodes with different numbers are all added. -/
theorem foldl_addNode {ns : List DependencyNode} (h : ((g.nodes ++ ns).map (·.id)).Nodup) :
    ns.foldl addNode g = { g with nodes := g.nodes ++ ns } := by
  induction ns generalizing g with
  | nil => simp
  | cons n ns ih =>
    have hnew : g.nodes.any (·.id == n.id) = false := by
      rw [List.map_append, List.nodup_append] at h
      refine List.any_eq_false.mpr fun m hm heq => ?_
      exact h.2.2 m.id (List.mem_map_of_mem hm) n.id (by simp) (eq_of_beq heq)
    have hstep : g.addNode n = { g with nodes := g.nodes ++ [n] } := by rw [addNode, hnew]; rfl
    rw [List.foldl_cons, hstep, ih (by simpa using h)]
    simp

end DependencyGraph

/-! ### The symbols of declarations -/

/-- Whether a node declares a type or a delegate. -/
def Node.declaresType : Node → Bool
  | .typeDecl _ | .delegate _ => true
  | _ => false

namespace Declared

variable {d : Declared} {s : Symbol}

theorem decl_of_mem_symbols (h : s ∈ d.symbols) : s.decl = some (d.address, d.node) := by
  unfold symbols at h
  split at h
  · rw [List.mem_singleton.mp h]
  · rw [List.mem_singleton.mp h]
  · obtain ⟨v, -, rfl⟩ := List.mem_map.mp h
    rfl
  · obtain ⟨k, -, rfl⟩ := List.mem_map.mp h
    rfl

/-- A declaration of a type makes the symbol of a type. -/
theorem isType_eq_of_mem_symbols (h : s ∈ d.symbols) : s.kind.isType = d.node.declaresType := by
  unfold symbols at h
  split at h
  · next t ht =>
    rw [List.mem_singleton.mp h, ht]
    cases t.kind <;> rfl
  · next g hg =>
    rw [List.mem_singleton.mp h, hg]
    rfl
  · next f hf =>
    obtain ⟨v, -, rfl⟩ := List.mem_map.mp h
    rw [hf]
    rfl
  · obtain ⟨k, hk, rfl⟩ := List.mem_map.mp h
    have hkind : d.node.memberKind? = some k := Option.mem_toList.mp hk
    generalize d.node = n at hkind
    cases n <;> cases hkind <;> rfl

/-- A type or delegate has a symbol. -/
theorem exists_mem_symbols (h : d.node.declaresType = true) : ∃ s, s ∈ d.symbols := by
  obtain ⟨path, address, n⟩ := d
  cases n <;> first | exact ⟨_, List.mem_singleton.mpr rfl⟩ | cases h

/-- Of the declarations that others stand in, types alone have symbols. -/
theorem declaresType_of_holdsDeclarations (h : s ∈ d.symbols)
    (hholds : d.node.holdsDeclarations = true) : d.node.declaresType = true := by
  obtain ⟨path, address, n⟩ := d
  cases n with
  | typeDecl t => rfl
  | unit | namespaceDecl => cases h
  | _ => cases hholds

end Declared

namespace CompilationUnit

variable {u : CompilationUnit Node} {d : Declared} {s : Symbol} {a : Address}

/-- The path below a node that holds declarations. -/
def declPath? (v : Visit DeclPath) : Option DeclPath :=
  if v.node.holdsDeclarations then some (v.inherited.enter v.node) else none

/-- The declarations of a file are those that the walk meets. -/
theorem mem_declarations_iff : d ∈ u.declarations ↔ ∃ v : Visit DeclPath,
    Node.Visited declPath? ⟨[], {}, .unit u⟩ v ∧ v.node.isDeclaration = true ∧
      d = ⟨v.inherited.enter v.node, v.address, v.node⟩ := by
  have henter : (fun v : Visit DeclPath => if v.node.holdsDeclarations &&
      !(v.node.isDeclaration && false) then some (v.inherited.enter v.node) else none) =
        declPath? := by
    funext v
    rw [Bool.and_false, Bool.not_false, Bool.and_true]
    rfl
  rw [declarations, declarationsExcept, henter, List.mem_filterMap]
  refine exists_congr fun v => and_congr Node.mem_visits_iff ?_
  rw [Option.ite_none_right_eq_some, Option.some.injEq, eq_comm (a := d)]

/-- A declaration stands in a node below which declarations are looked for. -/
theorem exists_parent_of_mem_declarations (hd : d ∈ u.declarations) : ∃ i a p,
    d.address = i :: a ∧ (Node.unit u).at? a = some p ∧ p.holdsDeclarations = true := by
  obtain ⟨v, hv, hdecl, rfl⟩ := mem_declarations_iff.mp hd
  cases hv with
  | root => cases hdecl
  | child hparent henter _ =>
    exact ⟨_, _, _, rfl, hparent.at?_eq, (Option.ite_none_right_eq_some.mp henter).1⟩

/-- The members of a type are declarations, with the path of the type. -/
theorem member_mem_declarations {t : TypeDecl Node} {m : Node} (hd : d ∈ u.declarations)
    (ht : d.node = .typeDecl t) (hm : m ∈ t.members) (hdecl : m.isDeclaration = true) :
    ∃ i, ⟨d.path.enter m, i :: d.address, m⟩ ∈ u.declarations := by
  obtain ⟨v, hv, -, rfl⟩ := mem_declarations_iff.mp hd
  dsimp only at ht
  have hchild : m ∈ v.node.children := by simp [ht, Node.children, hm]
  obtain ⟨i, hi⟩ := List.mem_iff_getElem?.mp hchild
  have hholds : declPath? v = some (v.inherited.enter v.node) := if_pos (by rw [ht]; rfl)
  exact ⟨i, mem_declarations_iff.mpr ⟨_, .child hv hholds hi, hdecl, rfl⟩⟩

/-- The symbols of a file are those of its declarations, with numbers. -/
theorem exists_declared_of_mem_symbols (h : s ∈ (symbolIndex u).symbols) :
    ∃ d ∈ u.declarations, ∃ r ∈ d.symbols, ∃ i, s = r.numbered i := by
  rw [symbolIndex, SymbolIndex.symbols_eq] at h
  obtain ⟨⟨r, i⟩, hr, rfl⟩ := List.mem_map.mp h
  obtain ⟨d, hd, hr⟩ := List.mem_flatMap.mp (List.fst_mem_of_mem_zipIdx hr)
  exact ⟨d, hd, r, hr, i, rfl⟩

/-- The symbol that is found for a place is one of the declaration there. -/
theorem exists_declared_of_ofDecl? (h : (symbolIndex u).ofDecl? a = some s) :
    ∃ d ∈ u.declarations, d.address = a ∧ ∃ r ∈ d.symbols, ∃ i, s = r.numbered i := by
  obtain ⟨d, hd, r, hr, i, rfl⟩ := exists_declared_of_mem_symbols (Rules.mem_of_ofDecl? h)
  rw [SymbolIndex.ofDecl?_eq] at h
  have hplace := (List.mem_filter.mp (List.mem_of_getLast? h)).2
  rw [Symbol.address?, Symbol.numbered, Declared.decl_of_mem_symbols hr, Option.map_some,
    beq_iff_eq, Option.some.injEq] at hplace
  exact ⟨d, hd, hplace, r, hr, i, rfl⟩

/-- A symbol is found for the place of a type or delegate. -/
theorem exists_ofDecl? (hd : d ∈ u.declarations) (h : d.node.declaresType = true) :
    ∃ s, (symbolIndex u).ofDecl? d.address = some s := by
  obtain ⟨r, hr⟩ := Declared.exists_mem_symbols h
  obtain ⟨i, hi⟩ := List.mem_iff_getElem?.mp (List.mem_flatMap.mpr ⟨d, hd, hr⟩)
  rw [← Option.isSome_iff_exists, SymbolIndex.ofDecl?_eq, List.getLast?_isSome]
  apply List.ne_nil_of_mem (a := r.numbered i)
  refine List.mem_filter.mpr ⟨?_, ?_⟩
  · rw [symbolIndex, SymbolIndex.symbols_eq]
    exact List.mem_map.mpr ⟨(r, i), List.mem_zipIdx_iff_getElem?.mpr hi, rfl⟩
  · rw [Symbol.address?, Symbol.numbered, Declared.decl_of_mem_symbols hr]
    exact beq_self_eq_true _

/-- An address leads to one declaration. -/
theorem node_eq_of_address_eq {d' : Declared} (hd : d ∈ u.declarations) (hd' : d' ∈ u.declarations)
    (h : d.address = d'.address) : d.node = d'.node := by
  have hat := Rules.at?_of_mem_declarations hd
  rw [h, Rules.at?_of_mem_declarations hd'] at hat
  exact (Option.some.inj hat).symm

/-- The symbol that is found for the place of a type or delegate is one of a type. -/
theorem isType_of_ofDecl? (hd : d ∈ u.declarations) (h : d.node.declaresType = true)
    (hs : (symbolIndex u).ofDecl? d.address = some s) : s.kind.isType = true := by
  obtain ⟨o, ho, haddress, r, hr, i, rfl⟩ := exists_declared_of_ofDecl? hs
  rw [show (r.numbered i).kind = r.kind from rfl, Declared.isType_eq_of_mem_symbols hr,
    node_eq_of_address_eq ho hd haddress, h]

/-- The symbol that is found for the place around a declaration is one of a type. -/
theorem isType_of_ofDecl?_tail (hd : d ∈ u.declarations)
    (hs : (symbolIndex u).ofDecl? d.address.tail = some s) : s.kind.isType = true := by
  obtain ⟨i, a, p, haddress, hat, hholds⟩ := exists_parent_of_mem_declarations hd
  rw [haddress, List.tail_cons] at hs
  obtain ⟨o, ho, rfl, r, hr, j, rfl⟩ := exists_declared_of_ofDecl? hs
  obtain rfl : o.node = p := by
    rw [Rules.at?_of_mem_declarations ho] at hat
    exact Option.some.inj hat
  rw [show (r.numbered j).kind = r.kind from rfl, Declared.isType_eq_of_mem_symbols hr]
  exact Declared.declaresType_of_holdsDeclarations hr hholds

end CompilationUnit

/-! ### Edges between types -/

namespace SymbolIndex

variable {x : SymbolIndex} {source : Nat} {kind : String}

theorem Numbered.map_id (h : x.Numbered) : x.symbols.map (·.id) = List.range x.symbols.length := by
  refine List.ext_getElem? fun i => ?_
  rw [List.getElem?_map]
  cases hi : x.symbols[i]? with
  | none =>
    rw [List.getElem?_eq_none (by simpa using hi)]
    rfl
  | some s =>
    rw [Option.map_some, h i s hi, List.getElem?_range (List.getElem?_eq_some_iff.mp hi).1]

/-- What is found for a name is a type. -/
theorem mem_types_of_resolveType {name : String} {s : Symbol} (h : x.resolveType name = some s) :
    s ∈ x.types :=
  List.mem_filter.mpr ⟨(names_of_resolveType h).mem, (names_of_resolveType h).isType⟩

variable (x source) in
/-- All of some dependencies start at a symbol and lead to types. -/
def Links (es : List Dependency) : Prop :=
  ∀ e ∈ es, e.source = source ∧ ∃ t ∈ x.types, e.target = t.id

/-- Edges of two lists lead between types if those of both do. -/
theorem links_append {es fs : List Dependency} :
    x.Links source (es ++ fs) ↔ x.Links source es ∧ x.Links source fs :=
  List.forall_mem_append

theorem links_flatMap {α : Type} {l : List α} {f : α → List Dependency} :
    x.Links source (l.flatMap f) ↔ ∀ a ∈ l, x.Links source (f a) := by
  simp only [Links, List.mem_flatMap, forall_exists_index, and_imp]
  exact ⟨fun h a ha e he => h e a ha he, fun h e a ha he => h a ha e he⟩

/-- Every type that a reference mentions is linked by an edge to a type. -/
theorem links_typeDependencies (t : TypeRef) :
    x.Links source (typeDependencies x source kind t) := by
  intro e he
  obtain ⟨name, -, hname⟩ := List.mem_filterMap.mp he
  obtain ⟨s, hs, rfl⟩ := Option.map_eq_some_iff.mp hname
  exact ⟨rfl, s, mem_types_of_resolveType hs, rfl⟩

theorem links_paramDependencies (ps : List (Param Node)) :
    x.Links source (paramDependencies x source kind ps) :=
  links_flatMap.mpr fun _ _ => links_flatMap.mpr fun t _ => links_typeDependencies t

theorem links_staticDependency (receiver : Node) :
    x.Links source (staticDependency x source receiver) := by
  unfold staticDependency
  dsimp only
  split
  · next s hs =>
    split
    · rintro e he
      rw [List.mem_singleton.mp he]
      exact ⟨rfl, s, mem_types_of_resolveType hs, rfl⟩
    · exact List.forall_mem_nil _
  · exact List.forall_mem_nil _

/-- What a body refers to is linked to types. -/
theorem links_nodeDependencies (n : Node) : x.Links source (nodeDependencies x source n) := by
  unfold nodeDependencies
  split
  · exact links_flatMap.mpr fun t _ => links_typeDependencies t
  · exact links_staticDependency _
  · exact links_flatMap.mpr fun t _ => links_typeDependencies t
  · exact links_typeDependencies _
  · exact links_typeDependencies _
  · exact List.forall_mem_nil _

/-- What a member refers to is linked to types. -/
theorem links_memberDependencies (n : Node) : x.Links source (memberDependencies x source n) := by
  unfold memberDependencies
  refine links_append.mpr ⟨links_append.mpr ⟨?_, links_paramDependencies _⟩,
    links_flatMap.mpr fun m _ => links_nodeDependencies m⟩
  split
  · exact links_typeDependencies _
  · exact links_typeDependencies _
  · exact links_typeDependencies _
  · exact links_typeDependencies _
  · exact List.forall_mem_nil _

end SymbolIndex

section

variable {u : CompilationUnit Node} {d : Declared} {e : Dependency}

/-- What a declaration contributes leads from a type of the file to a type of the file. -/
theorem exists_types_of_mem_dependencies (hd : d ∈ u.declarations)
    (he : e ∈ d.dependencies (symbolIndex u)) :
    (∃ s ∈ (symbolIndex u).types, e.source = s.id) ∧
      ∃ t ∈ (symbolIndex u).types, e.target = t.id := by
  -- What starts at a declaration's own symbol starts at a type, if that symbol is one.
  have hlinks {s : Symbol} {a : Address} {es : List Dependency}
      (hs : s ∈ ((symbolIndex u).ofDecl? a).toList)
      (htype : (symbolIndex u).ofDecl? a = some s → s.kind.isType = true) (he : e ∈ es)
      (hes : (symbolIndex u).Links s.id es) : (∃ s ∈ (symbolIndex u).types, e.source = s.id) ∧
        ∃ t ∈ (symbolIndex u).types, e.target = t.id := by
    have hs := Option.mem_toList.mp hs
    exact ⟨⟨s, List.mem_filter.mpr ⟨Rules.mem_of_ofDecl? hs, htype hs⟩, (hes e he).1⟩, (hes e he).2⟩
  unfold Declared.dependencies at he
  split at he
  · next t ht =>
    obtain ⟨s, hs, he⟩ := List.mem_flatMap.mp he
    refine hlinks hs (CompilationUnit.isType_of_ofDecl? hd (by rw [ht]; rfl)) he ?_
    exact SymbolIndex.links_append.mpr ⟨SymbolIndex.links_flatMap.mpr fun b _ =>
      SymbolIndex.links_typeDependencies b, SymbolIndex.links_paramDependencies _⟩
  · next g hg =>
    obtain ⟨s, hs, he⟩ := List.mem_flatMap.mp he
    refine hlinks hs (CompilationUnit.isType_of_ofDecl? hd (by rw [hg]; rfl)) he ?_
    exact SymbolIndex.links_append.mpr ⟨SymbolIndex.links_typeDependencies _,
      SymbolIndex.links_paramDependencies _⟩
  · split at he
    · cases he
    · obtain ⟨s, hs, he⟩ := List.mem_flatMap.mp he
      exact hlinks hs (CompilationUnit.isType_of_ofDecl?_tail hd) he
        (SymbolIndex.links_memberDependencies _)

variable (u)

/-- Types have different numbers. -/
theorem nodup_id_types : ((symbolIndex u).types.map (·.id)).Nodup := by
  refine List.Nodup.sublist (List.Sublist.map _ List.filter_sublist) ?_
  rw [(SymbolIndex.numbered_symbolIndex u).map_id]
  exact List.nodup_range

/-- A graph between the types of an index: each type is a node once, and each edge leads from a node
to another one and is there once. -/
structure DependencyGraph.WellFormed (g : DependencyGraph) (x : SymbolIndex) : Prop where
  nodes_eq : g.nodes = x.types.map fun s => ⟨s.id, s.fullName, s.kind⟩
  nodup_nodes : (g.nodes.map (·.id)).Nodup
  source_mem : ∀ e ∈ g.edges, ∃ n ∈ g.nodes, n.id = e.source
  target_mem : ∀ e ∈ g.edges, ∃ n ∈ g.nodes, n.id = e.target
  source_ne_target : ∀ e ∈ g.edges, e.source ≠ e.target
  nodup_edges : g.edges.Nodup

/-- So do the nodes of the graph. -/
theorem nodup_id_nodes : (((symbolIndex u).types.map fun s : Symbol =>
    (⟨s.id, s.fullName, s.kind⟩ : DependencyNode)).map (·.id)).Nodup := by
  have hids := List.Nodup.map Int.ofNat_injective (nodup_id_types u)
  rw [List.map_map] at hids ⊢
  exact hids

/-- The types of the file are added first, and then what the declarations contribute. -/
theorem dependencyGraph_eq : dependencyGraph u (symbolIndex u) =
    (u.declarations.flatMap (Declared.dependencies (symbolIndex u))).foldl DependencyGraph.addEdge
      { nodes := (symbolIndex u).types.map fun s => ⟨s.id, s.fullName, s.kind⟩ } := by
  have hnodes := DependencyGraph.foldl_addNode (g := {}) (nodup_id_nodes u)
  rw [List.foldl_map] at hnodes
  rw [dependencyGraph, hnodes]
  rfl

variable {u}

/-- The edges are what the declarations contribute, loops apart. -/
theorem mem_edges_dependencyGraph : e ∈ (dependencyGraph u (symbolIndex u)).edges ↔
    (∃ d ∈ u.declarations, e ∈ d.dependencies (symbolIndex u)) ∧ e.source ≠ e.target := by
  rw [dependencyGraph_eq, DependencyGraph.mem_edges_foldl_addEdge, List.mem_flatMap]
  exact or_iff_right List.not_mem_nil

variable (u) in
/-- The graph of a file is well formed. -/
theorem wellFormed_dependencyGraph :
    (dependencyGraph u (symbolIndex u)).WellFormed (symbolIndex u) := by
  -- Edges add no nodes, so the nodes are the types in the order of the index.
  have hnodes : (dependencyGraph u (symbolIndex u)).nodes =
      (symbolIndex u).types.map fun s => ⟨s.id, s.fullName, s.kind⟩ := by
    rw [dependencyGraph_eq, DependencyGraph.nodes_foldl_addEdge]
  have hnode {s : Symbol} (hs : s ∈ (symbolIndex u).types) :
      ∃ n ∈ (dependencyGraph u (symbolIndex u)).nodes, n.id = s.id :=
    ⟨_, hnodes ▸ List.mem_map_of_mem hs, rfl⟩
  refine {
    nodes_eq := hnodes
    nodup_nodes := hnodes ▸ nodup_id_nodes u
    source_mem := fun e he => ?_
    target_mem := fun e he => ?_
    source_ne_target := fun e he => (mem_edges_dependencyGraph.mp he).2
    nodup_edges := ?_ }
  · obtain ⟨⟨d, hd, he⟩, -⟩ := mem_edges_dependencyGraph.mp he
    obtain ⟨⟨s, hs, hsource⟩, -⟩ := exists_types_of_mem_dependencies hd he
    exact hsource ▸ hnode hs
  · obtain ⟨⟨d, hd, he⟩, -⟩ := mem_edges_dependencyGraph.mp he
    obtain ⟨-, t, ht, htarget⟩ := exists_types_of_mem_dependencies hd he
    exact htarget ▸ hnode ht
  · rw [dependencyGraph_eq]
    exact DependencyGraph.nodup_edges_foldl_addEdge List.nodup_nil

end

/-! ### What a type declaration writes -/

namespace TypeRef

/-- A type mentions its own name and what its arguments mention. -/
theorem mentioned_eq (t : TypeRef) : t.mentioned = t.name :: t.args.flatMap mentioned := by
  have hlist (ts : List TypeRef) : listMentioned ts = ts.flatMap mentioned := by
    induction ts with
    | nil => rw [listMentioned, List.flatMap_nil]
    | cons t ts ih => rw [listMentioned, ih, List.flatMap_cons]
  obtain ⟨span, name, args, _⟩ := t
  rw [mentioned, hlist]

/-- Types inside of a type are mentioned by it. -/
theorem Within.name_mem_mentioned {r t : TypeRef} (h : r.Within t) : r.name ∈ t.mentioned := by
  induction h with
  | self =>
    rw [mentioned_eq]
    exact List.mem_cons_self
  | arg ha _ ih =>
    rw [mentioned_eq]
    exact List.mem_cons_of_mem _ (List.mem_flatMap.mpr ⟨_, ha, ih⟩)

end TypeRef

/-- A type declaration writes a reference: in its base list, as the type of a field, property or
event, or as the type of a result or of a parameter. The word names the kind of dependency. -/
inductive TypeDecl.Writes (t : TypeDecl Node) : String → TypeRef → Prop
  | base {r : TypeRef} (h : r ∈ t.baseTypes) : t.Writes Dependency.inheritance r
  | field {f : Field Node} (h : .field f ∈ t.members) : t.Writes Dependency.field f.type
  | property {p : Property Node} (h : .property p ∈ t.members) : t.Writes Dependency.field p.type
  | event {e : Event Node} (h : .event e ∈ t.members) : t.Writes Dependency.field e.type
  | result {m : Method Node} (h : .method m ∈ t.members) : t.Writes Dependency.usage m.returnType
  | param {n : Node} {p : Param Node} {r : TypeRef} (h : n ∈ t.members)
    (hkind : n.memberKind?.isSome = true) (hp : p ∈ n.params) (hr : p.type = some r) :
    t.Writes Dependency.usage r

section

variable {u : CompilationUnit Node} {d : Declared} {t : TypeDecl Node} {s : Symbol} {e : Dependency}

theorem isMember_of_memberKind? {n : Node} (h : n.memberKind?.isSome = true) :
    n.isMember = true ∧ n.declaresType = false := by
  cases n <;> first | exact ⟨rfl, rfl⟩ | cases h

theorem enter_eq_of_isMember {p : DeclPath} {n : Node} (h : n.isMember = true) : p.enter n = p := by
  cases n <;> first | rfl | cases h

/-- A member contributes to the type that it stands in. -/
theorem exists_dependencies_eq_of_member {n : Node} (hd : d ∈ u.declarations)
    (ht : d.node = .typeDecl t) (hs : (symbolIndex u).ofDecl? d.address = some s)
    (hn : n ∈ t.members) (hmember : n.isMember = true) (htype : n.declaresType = false) :
    ∃ d' ∈ u.declarations, d'.dependencies (symbolIndex u) =
      memberDependencies (symbolIndex u) s.id n := by
  have hdecl : n.isDeclaration = true := by
    unfold Node.isDeclaration
    split <;> first | rfl | exact hmember
  obtain ⟨i, hi⟩ := CompilationUnit.member_mem_declarations hd ht hn hdecl
  have hpath : (d.path.enter n).types.isEmpty = false := by
    obtain ⟨v, -, -, rfl⟩ := CompilationUnit.mem_declarations_iff.mp hd
    rw [enter_eq_of_isMember hmember, show v.node = .typeDecl t from ht]
    simp [DeclPath.enter, DeclPath.withType]
  refine ⟨_, hi, ?_⟩
  unfold Declared.dependencies
  dsimp only
  split
  · cases htype
  · cases htype
  · rw [hpath, List.tail_cons, hs]
    exact List.append_nil _

/-- What a type declaration writes is among the contributions of the declarations. -/
theorem exists_mem_dependencies_of_writes {kind : String} {r : TypeRef} (hd : d ∈ u.declarations)
    (ht : d.node = .typeDecl t) (hs : (symbolIndex u).ofDecl? d.address = some s)
    (hr : t.Writes kind r) (he : e ∈ typeDependencies (symbolIndex u) s.id kind r) :
    ∃ d' ∈ u.declarations, e ∈ d'.dependencies (symbolIndex u) := by
  -- All but base types come from members, which contribute through declarations of their own.
  have hmember {n : Node} (hn : n ∈ t.members) (hmember : n.isMember = true)
      (htype : n.declaresType = false) (he : e ∈ memberDependencies (symbolIndex u) s.id n) :
      ∃ d' ∈ u.declarations, e ∈ d'.dependencies (symbolIndex u) := by
    obtain ⟨d', hd', heq⟩ := exists_dependencies_eq_of_member hd ht hs hn hmember htype
    exact ⟨d', hd', heq ▸ he⟩
  cases hr with
  | base h =>
    refine ⟨d, hd, ?_⟩
    unfold Declared.dependencies
    rw [ht]
    exact List.mem_flatMap.mpr ⟨s, Option.mem_toList.mpr hs,
      List.mem_append_left _ (List.mem_flatMap.mpr ⟨r, h, he⟩)⟩
  | field h | property h | event h | result h =>
    exact hmember h rfl rfl (List.mem_append_left _ (List.mem_append_left _ he))
  | param h hkind hp hr =>
    obtain ⟨hn, htype⟩ := isMember_of_memberKind? hkind
    refine hmember h hn htype (List.mem_append_left _ (List.mem_append_right _ ?_))
    exact List.mem_flatMap.mpr ⟨_, hp, List.mem_flatMap.mpr ⟨r, Option.mem_toList.mpr hr, he⟩⟩

/-- A reference to another type of the file gives an edge. -/
theorem mem_edges_of_writes {kind : String} {r written : TypeRef} {target : Symbol}
    (hd : d ∈ u.declarations) (ht : d.node = .typeDecl t)
    (hs : (symbolIndex u).ofDecl? d.address = some s) (hwritten : t.Writes kind written)
    (hr : r.Within written) (htarget : (symbolIndex u).resolveType r.name = some target)
    (hne : target.id ≠ s.id) :
    ⟨s.id, target.id, kind⟩ ∈ (dependencyGraph u (symbolIndex u)).edges := by
  have he : ⟨s.id, target.id, kind⟩ ∈ typeDependencies (symbolIndex u) s.id kind written :=
    List.mem_filterMap.mpr ⟨r.name, hr.name_mem_mentioned, by rw [htarget]; rfl⟩
  refine mem_edges_dependencyGraph.mpr
    ⟨exists_mem_dependencies_of_writes hd ht hs hwritten he, fun heq => hne ?_⟩
  exact (Int.ofNat.inj heq).symm

/-- The dependency graph of a file is well formed, and its nodes are the symbols of the type and
delegate declarations. Each type declaration has a node, from which an edge of the right kind leads
to each other type that the base list, the type of a field, property or event, or the signature of a
member refers to, at any depth of type arguments. -/
theorem dependencyGraph_links_declarations (u : CompilationUnit Node) :
    (dependencyGraph u (symbolIndex u)).WellFormed (symbolIndex u) ∧
    (∀ s, s ∈ (symbolIndex u).types ↔ s ∈ (symbolIndex u).symbols ∧
      ∃ d ∈ u.declarations, d.node.declaresType = true ∧ s.decl = some (d.address, d.node)) ∧
    ∀ d ∈ u.declarations, ∀ t, d.node = .typeDecl t → ∃ s ∈ (symbolIndex u).types,
      (symbolIndex u).ofDecl? d.address = some s ∧
        ∀ kind written (r : TypeRef) target, t.Writes kind written → r.Within written →
          (symbolIndex u).resolveType r.name = some target → target.id ≠ s.id →
            ⟨s.id, target.id, kind⟩ ∈ (dependencyGraph u (symbolIndex u)).edges := by
  refine ⟨wellFormed_dependencyGraph u, fun s => ?_, fun d hd t ht => ?_⟩
  · refine List.mem_filter.trans (and_congr_right fun hs => ?_)
    obtain ⟨d, hd, r, hr, i, rfl⟩ := CompilationUnit.exists_declared_of_mem_symbols hs
    rw [show (r.numbered i).kind = r.kind from rfl, Declared.isType_eq_of_mem_symbols hr,
      show (r.numbered i).decl = r.decl from rfl, Declared.decl_of_mem_symbols hr]
    refine ⟨fun h => ⟨d, hd, h, rfl⟩, ?_⟩
    -- Addresses tell declarations apart, so the symbol belongs to this one.
    rintro ⟨o, -, ho, heq⟩
    rw [(Prod.mk.inj (Option.some.inj heq)).2, ho]
  · have htype : d.node.declaresType = true := by rw [ht]; rfl
    obtain ⟨s, hs⟩ := CompilationUnit.exists_ofDecl? hd htype
    refine ⟨s, List.mem_filter.mpr ⟨Rules.mem_of_ofDecl? hs,
      CompilationUnit.isType_of_ofDecl? hd htype hs⟩, hs, ?_⟩
    exact fun kind written r target hwritten hr htarget hne =>
      mem_edges_of_writes hd ht hs hwritten hr htarget hne

/-- A class with a type argument in its base list, a field of itself and one of another class. -/
def nestedReferencesText : List UInt8 :=
  "class A:L<B>\x7bA a;C[] c;\x7dclass B\x7b\x7dclass C\x7b\x7d".toList.map Lexer.ascii

example : (parse nestedReferencesText).toOption.map
    (fun u => (dependencyGraph u (symbolIndex u)).edges) =
      some [⟨0, 3, Dependency.inheritance⟩, ⟨0, 4, Dependency.field⟩] := by
  rw [show nestedReferencesText = _ from Lexer.ascii_ofList _]
  decide +kernel

end

end CSharpAudit
