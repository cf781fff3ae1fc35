import CSharpAudit.Proofs.Binding.TypeParameters
import CSharpAudit.Proofs.Inheritance

/-!
# How far directives reach

The directives of a namespace are in force from where the namespace begins. Where it ends they are
not taken back, so they reach all that stands behind it in the file: the namespaces that follow and
what is outside of all namespaces. What stands in front of the namespace is out of their reach.

Two files are compared that differ in the directives of one namespace and of those inside of it. A
file with a gap for the namespace is a place in the file, and filling the gap changes the walk of
the binder at this place only. The symbols of the two files differ in nothing but the places of
their declarations, so names are resolved alike.

## Main definitions

* `Site` — a file with a gap for a member, and the place of the gap
* `Node.Redirected` — two members that differ in using directives at most
* `SymbolIndex.Alike` — two indexes that differ in the places of declarations at most
* `TypeRef.HangsOnImports` — imports decide what a reference means

## Main results

* `Site.exists_walk` — the walk over a file is the same outside of the gap, whatever fills it
* `Site.alike_symbolIndex` — directives do not change the symbols of a file
* `directives_reach_behind_only` — a reference in front of a namespace is bound regardless of the
  directives in the namespace, and one behind it hangs on them if imports decide what it means
-/

namespace CSharpAudit

open Address (Before)

/-! ### Files with a gap -/

/-- A namespace with a gap among its members. -/
structure NamespaceGap where
  outer : NamespaceDecl Node
  front : List Node
  back : List Node

/-- Fills the gap. -/
def NamespaceGap.fill (g : NamespaceGap) (n : Node) : NamespaceDecl Node :=
  { g.outer with members := g.front ++ n :: g.back }

theorem NamespaceGap.children_fill (g : NamespaceGap) (n : Node) :
    (Node.namespaceDecl (g.fill n)).children =
      (g.outer.usings.map .usingDirective ++ g.front) ++ n :: g.back := by
  simp only [Node.children, fill, List.append_assoc]

theorem CompilationUnit.children_with_member (u : CompilationUnit Node) (front back : List Node)
    (n : Node) : (Node.unit { u with members := front ++ n :: back }).children =
      (u.attributes.map .attribute ++ u.usings.map .usingDirective ++
        u.fileScopedNamespace.toList.map .namespaceDecl ++ front) ++ n :: back := by
  simp only [Node.children, List.append_assoc]

theorem CompilationUnit.children_with_fileScoped (u : CompilationUnit Node)
    (d : NamespaceDecl Node) : (Node.unit { u with fileScopedNamespace := some d }).children =
      (u.attributes.map .attribute ++ u.usings.map .usingDirective) ++
        .namespaceDecl d :: u.members := by
  simp only [Node.children, Option.toList_some, List.map_cons, List.map_nil, List.append_assoc,
    List.cons_append, List.nil_append]

/-- A file with a gap for a member: among the members of the file, in its file-scoped namespace, or
in a namespace which stands at such a place. -/
inductive Site where
  | unit (u : CompilationUnit Node) (front back : List Node)
  | fileScoped (u : CompilationUnit Node) (g : NamespaceGap)
  | inside (outer : Site) (g : NamespaceGap)

namespace Site

/-- Fills the gap. -/
def fill : Site → Node → CompilationUnit Node
  | unit u front back, n => { u with members := front ++ n :: back }
  | fileScoped u g, n => { u with fileScopedNamespace := some (g.fill n) }
  | inside outer g, n => outer.fill (.namespaceDecl (g.fill n))

/-- The place of the gap. -/
def address : Site → Address
  | unit u front _ =>
    [u.attributes.length + u.usings.length + u.fileScopedNamespace.toList.length + front.length]
  | fileScoped u g =>
    [g.outer.usings.length + g.front.length, u.attributes.length + u.usings.length]
  | inside outer g => (g.outer.usings.length + g.front.length) :: outer.address

end Site

/-- A node on its own: files and namespaces are left without their members. -/
def Node.head : Node → Node
  | unit _ => unit { span := Span.none }
  | namespaceDecl d => namespaceDecl { d with members := [] }
  | n => n

/-- A visit that shows the node on its own. -/
def Visit.head {σ : Type} (v : Visit σ) : Visit σ := { v with node := v.node.head }

section Walk

variable {σ : Type} {enter : Visit σ → Option σ} {s below : σ} {address : Address} {shown : Node}

/-- What is below a child is visited between two parts of a walk that do not depend on the child. -/
theorem exists_walk_of_child (henter : ∀ v, enter v.head = enter v) {α : Type}
    (outer child : α → Node) (l r : List Node) (hhead : ∀ x, (outer x).head = shown)
    (hchildren : ∀ x, (outer x).children = l ++ child x :: r)
    (hbelow : enter ⟨address, s, shown⟩ = some below) :
    ∃ front back, ∀ x, ((outer x).visits enter s address).map Visit.head =
      front ++ (((child x).visits enter below (l.length :: address)).map Visit.head ++ back) := by
  refine ⟨⟨address, s, shown⟩ :: (l.zipIdx.flatMap fun d =>
      d.1.visits enter below (d.2 :: address)).map Visit.head,
    ((r.zipIdx (l.length + 1)).flatMap fun d =>
      d.1.visits enter below (d.2 :: address)).map Visit.head, fun x => ?_⟩
  -- whether the walk goes on is told by the node on its own, which `x` does not change
  have hopen : enter ⟨address, s, outer x⟩ = some below := by
    rw [← henter, Visit.head, hhead, hbelow]
  rw [Node.visits_eq_of_children (hchildren x) hopen, List.map_append, List.map_append,
    List.map_cons, Visit.head, hhead]

variable (enter) in
/-- The walk over a file is the same outside of the gap, whatever fills it. -/
theorem Site.exists_walk (henter : ∀ v, enter v.head = enter v)
    (hunit : ∀ a s u, (enter ⟨a, s, .unit u⟩).isSome)
    (hnamespace : ∀ a s d, (enter ⟨a, s, .namespaceDecl d⟩).isSome) (site : Site) (s : σ) :
    ∃ below front back, ∀ n, ((Node.unit (site.fill n)).visits enter s).map Visit.head =
      front ++ ((n.visits enter below site.address).map Visit.head ++ back) := by
  -- a gap in a namespace, which is itself visited between two parts of the walk
  have hinside (g : NamespaceGap) {whole : Node → Node} {below : σ} {a : Address}
      {front back : List (Visit σ)} (hwhole : ∀ n, ((whole n).visits enter s).map Visit.head =
        front ++ (((Node.namespaceDecl (g.fill n)).visits enter below a).map Visit.head ++ back)) :
      ∃ below front back, ∀ n, ((whole n).visits enter s).map Visit.head =
        front ++ ((n.visits enter below ((g.outer.usings.length + g.front.length) :: a)).map
          Visit.head ++ back) := by
    obtain ⟨below', hbelow⟩ := Option.isSome_iff_exists.mp
      (hnamespace a below { g.outer with members := [] })
    obtain ⟨front', back', hgap⟩ := exists_walk_of_child henter (fun n => .namespaceDecl (g.fill n))
      id (g.outer.usings.map .usingDirective ++ g.front) g.back (fun _ => rfl) g.children_fill hbelow
    simp only [List.length_append, List.length_map] at hgap
    refine ⟨below', front ++ front', back' ++ back, fun n => ?_⟩
    rw [hwhole, hgap]
    simp only [List.append_assoc, id]
  obtain ⟨below, hbelow⟩ := Option.isSome_iff_exists.mp (hunit [] s { span := Span.none })
  induction site with
  | unit u front back =>
    obtain ⟨front', back', hgap⟩ := exists_walk_of_child henter
      (fun n => .unit { u with members := front ++ n :: back }) id
      (u.attributes.map .attribute ++ u.usings.map .usingDirective ++
        u.fileScopedNamespace.toList.map .namespaceDecl ++ front) back
      (fun _ => rfl) (u.children_with_member front back) hbelow
    simp only [List.length_append, List.length_map] at hgap
    exact ⟨below, front', back', hgap⟩
  | fileScoped u g =>
    obtain ⟨front, back, hgap⟩ := exists_walk_of_child henter
      (fun n => .unit { u with fileScopedNamespace := some (g.fill n) })
      (fun n => .namespaceDecl (g.fill n))
      (u.attributes.map .attribute ++ u.usings.map .usingDirective) u.members
      (fun _ => rfl) (fun n => u.children_with_fileScoped (g.fill n)) hbelow
    simp only [List.length_append, List.length_map] at hgap
    exact hinside g hgap
  | inside outer g ih =>
    obtain ⟨below, front, back, hwalk⟩ := ih
    exact hinside g fun n => hwalk (.namespaceDecl (g.fill n))

end Walk

/-! ### Files whose directives differ -/

/-- Two members of a file that differ in using directives at most, in those of a namespace or of the
namespaces inside of it. -/
inductive Node.Redirected : Node → Node → Prop
  | refl (n : Node) : Redirected n n
  | directives (d : NamespaceDecl Node) (usings : List UsingDirective) :
      Redirected (.namespaceDecl d) (.namespaceDecl { d with usings })
  | member (g : NamespaceGap) {n m : Node} (h : Redirected n m) :
      Redirected (.namespaceDecl (g.fill n)) (.namespaceDecl (g.fill m))
  | trans {n m k : Node} (h : Redirected n m) (h' : Redirected m k) : Redirected n k

/-- A symbol without the place of its declaration. -/
def Symbol.displaced (s : Symbol) : Symbol := { s with decl := none }

namespace SymbolIndex

variable {x y : SymbolIndex}

/-- Two indexes differ in the places of declarations at most. -/
def Alike (x y : SymbolIndex) : Prop :=
  x.symbols.map Symbol.displaced = y.symbols.map Symbol.displaced

theorem Alike.add (h : x.Alike y) {s t : Symbol} (hst : s.displaced = t.displaced) :
    (x.add s).Alike (y.add t) := by
  have hlength : x.symbols.length = y.symbols.length := by
    simpa using congrArg List.length h
  have hadded (z : SymbolIndex) (s : Symbol) : (z.add s).symbols.map Symbol.displaced =
      z.symbols.map Symbol.displaced ++ [{ s.displaced with
        id := z.symbols.length
        name := Text.normalize s.displaced.name
        fullName := Text.normalize s.displaced.fullName }] := by
    simp [symbols_add, Symbol.numbered, Symbol.displaced]
  rw [Alike, hadded, hadded, h, hst, hlength]

theorem Alike.foldl (h : x.Alike y) {ss ts : List Symbol}
    (hst : ss.map Symbol.displaced = ts.map Symbol.displaced) :
    (ss.foldl SymbolIndex.add x).Alike (ts.foldl SymbolIndex.add y) := by
  induction ss generalizing x y ts with
  | nil =>
    obtain rfl : ts = [] := List.map_eq_nil_iff.mp hst.symm
    exact h
  | cons s ss ih =>
    obtain ⟨t, ts, rfl, ht, hts⟩ := List.map_eq_cons_iff.mp hst.symm
    exact ih (h.add ht.symm) hts.symm

/-- Alike indexes resolve names alike. -/
theorem Alike.resolveType (h : x.Alike y) (name : String) :
    (x.resolveType name).map Symbol.displaced = (y.resolveType name).map Symbol.displaced := by
  have hfind (p q : Symbol → Bool) (hp : ∀ s, p s.displaced = p s) (hq : ∀ s, q s.displaced = q s)
      (z : SymbolIndex) : ((z.symbols.filter p).find? q).map Symbol.displaced =
        (((z.symbols.map Symbol.displaced).filter p).find? q) := by
    rw [List.filter_map, List.find?_map, show q ∘ Symbol.displaced = q from funext hq,
      show p ∘ Symbol.displaced = p from funext hp]
  have hresolve (z : SymbolIndex) : (z.resolveType name).map Symbol.displaced =
      if name.isEmpty then none
      else (((z.symbols.map Symbol.displaced).filter (·.fullName == Text.normalize name)).find?
          (·.kind.isType)).or
        (((z.symbols.map Symbol.displaced).filter
          (·.name == Text.normalize (lastSegment name))).find? (·.kind.isType)) := by
    rw [SymbolIndex.resolveType]
    split
    · rfl
    · rw [Option.map_or, withFullName_eq, withName_eq, hfind _ _ (fun _ => rfl) (fun _ => rfl),
        hfind _ _ (fun _ => rfl) (fun _ => rfl)]
  rw [hresolve, hresolve, h]

end SymbolIndex

section Resolve

variable {x y : SymbolIndex}

/-- Alike indexes bind references alike. -/
theorem SymbolIndex.Alike.resolveRef_eq (h : x.Alike y) (external : Option ExternalSymbols)
    (imports : Imports) (params : List String) (t : TypeRef) :
    resolveRef (some x) external imports params t =
      resolveRef (some y) external imports params t := by
  have hname (name : String) :
      resolveName (some x) external imports name = resolveName (some y) external imports name := by
    have halike := h.resolveType name
    simp only [resolveName, Option.bind_some]
    cases hx : x.resolveType name with
    | none =>
      obtain hy : y.resolveType name = none := by simpa [hx] using halike.symm
      rw [hy]
    | some s =>
      obtain ⟨t, hy, ht⟩ : ∃ t, y.resolveType name = some t ∧ t.displaced = s.displaced := by
        simpa [hx] using halike.symm
      rw [hy]
      have hfull : t.fullName = s.fullName := (congrArg Symbol.fullName ht :)
      have hid : t.id = s.id := (congrArg Symbol.id ht :)
      simp only [hfull, hid]
  simp only [resolveRef, hname]

end Resolve

/-! ### The symbols of a file -/

namespace Declared

/-- The path that the walk over declarations hands down. -/
def enter (v : Visit DeclPath) : Option DeclPath :=
  if v.node.holdsDeclarations then some (v.inherited.enter v.node) else none

/-- The symbols that a visited node introduces, without their places. -/
def symbolsAt (v : Visit DeclPath) : List Symbol :=
  if v.node.isDeclaration then
    (symbols ⟨v.inherited.enter v.node, v.address, v.node⟩).map Symbol.displaced
  else []

/-- The symbols that are declared in a part of a file. -/
def outline (n : Node) (path : DeclPath) : List Symbol :=
  (n.visits enter path).flatMap symbolsAt

theorem enter_head (v : Visit DeclPath) : enter v.head = enter v := by
  obtain ⟨address, path, n⟩ := v
  cases n <;> rfl

theorem symbolsAt_head (v : Visit DeclPath) : symbolsAt v.head = symbolsAt v := by
  obtain ⟨address, path, n⟩ := v
  cases n <;> rfl

/-- Symbols without places do not depend on the place. -/
theorem symbolsAt_address (v : Visit DeclPath) (a : Address) :
    symbolsAt { v with address := a } = symbolsAt v := by
  obtain ⟨address, path, n⟩ := v
  cases n with
  | field d =>
    simp only [symbolsAt, symbols, List.map_map, Function.comp_def]
    rfl
  | _ => rfl

theorem flatMap_symbolsAt_visits (n : Node) (path : DeclPath) (a : Address) :
    (n.visits enter path a).flatMap symbolsAt = outline n path := by
  have hbelow : n.visits enter path a =
      (n.visits enter path).map fun v => { v with address := v.address ++ a } :=
    Node.visits_below (fun _ _ => rfl) n path a []
  rw [hbelow, List.flatMap_map]
  exact List.flatMap_congr fun v _ => symbolsAt_address v _

theorem outline_namespaceDecl (d : NamespaceDecl Node) (path : DeclPath) :
    outline (.namespaceDecl d) path =
      d.members.flatMap fun m => outline m (path.withNamespace d.name) := by
  have hdirective (u : UsingDirective) (path : DeclPath) : outline (.usingDirective u) path = [] := by
    rw [outline, Node.visits_eq]
    rfl
  -- directives declare nothing, and neither does the namespace itself
  have hopen : enter ⟨[], path, .namespaceDecl d⟩ = some (path.withNamespace d.name) := rfl
  have hown : symbolsAt ⟨[], path, .namespaceDecl d⟩ = [] := rfl
  rw [outline, Node.visits_eq, hopen, Option.elim_some, List.flatMap_cons, hown, List.nil_append,
    List.flatMap_assoc]
  simp only [flatMap_symbolsAt_visits]
  have hplaces (cs : List Node) (k : Nat) :
      ((cs.zipIdx k).flatMap fun c => outline c.1 (path.withNamespace d.name)) =
        cs.flatMap fun c => outline c (path.withNamespace d.name) := by
    conv_rhs => rw [← List.zipIdx_map_fst k cs, List.flatMap_map]
  rw [hplaces, Node.children, List.flatMap_append, List.flatMap_map]
  simp [hdirective]

/-- Directives do not matter to the symbols. -/
theorem outline_eq_of_redirected {n m : Node} (h : n.Redirected m) (path : DeclPath) :
    outline n path = outline m path := by
  induction h generalizing path with
  | refl n => rfl
  | directives d usings => simp only [outline_namespaceDecl]
  | member g _ ih => simp only [outline_namespaceDecl, NamespaceGap.fill, List.flatMap_append,
      List.flatMap_cons, ih]
  | trans _ _ ih ih' => exact (ih path).trans (ih' path)

end Declared

theorem map_displaced_symbols (u : CompilationUnit Node) :
    (u.declarations.flatMap Declared.symbols).map Symbol.displaced =
      ((Node.unit u).visits Declared.enter {}).flatMap Declared.symbolsAt := by
  have hdeclarations : u.declarations = ((Node.unit u).visits Declared.enter {}).filterMap fun v =>
      if v.node.isDeclaration then some ⟨v.inherited.enter v.node, v.address, v.node⟩ else none := by
    rw [CompilationUnit.declarations, CompilationUnit.declarationsExcept]
    have henter : Declared.enter = fun v : Visit DeclPath =>
        if v.node.holdsDeclarations && !(v.node.isDeclaration && false) then
          some (v.inherited.enter v.node) else none := by
      funext v
      simp [Declared.enter]
    rw [henter]
  rw [hdeclarations, List.map_flatMap]
  generalize (Node.unit u).visits Declared.enter {} = vs
  induction vs with
  | nil => rfl
  | cons v vs ih =>
    rw [List.flatMap_cons, ← ih, Declared.symbolsAt]
    cases hv : v.node.isDeclaration <;> simp [hv]

/-- Directives do not change the symbols of a file. -/
theorem Site.alike_symbolIndex (site : Site) {n m : Node} (h : n.Redirected m) :
    (symbolIndex (site.fill n)).Alike (symbolIndex (site.fill m)) := by
  obtain ⟨path, front, back, hwalk⟩ := site.exists_walk Declared.enter Declared.enter_head
    (fun _ _ _ => rfl) (fun _ _ _ => rfl) {}
  have hhead (vs : List (Visit DeclPath)) :
      (vs.map Visit.head).flatMap Declared.symbolsAt = vs.flatMap Declared.symbolsAt := by
    rw [List.flatMap_map]
    exact List.flatMap_congr fun v _ => Declared.symbolsAt_head v
  -- the symbols of a file are those in front of the gap, those in it and those behind it
  have hsymbols (n : Node) :
      ((Node.unit (site.fill n)).visits Declared.enter {}).flatMap Declared.symbolsAt =
        front.flatMap Declared.symbolsAt ++
          (Declared.outline n path ++ back.flatMap Declared.symbolsAt) := by
    rw [← hhead, hwalk, List.flatMap_append, List.flatMap_append, hhead,
      Declared.flatMap_symbolsAt_visits]
  refine SymbolIndex.Alike.foldl rfl ?_
  rw [map_displaced_symbols, map_displaced_symbols, hsymbols, hsymbols,
    Declared.outline_eq_of_redirected h]

/-! ### The walk of the binder -/

namespace Imports

/-- What a namespace imports stands in front of its members. -/
theorem behind_head (i : Imports) (n : Node) : i.behind n.head = i.behind n := by
  cases n <;> rfl

theorem along_head (i : Imports) (ns : List Node) : i.along (ns.map Node.head) = i.along ns := by
  induction ns generalizing i with
  | nil => rfl
  | cons n ns ih => rw [List.map_cons, along_cons, along_cons, behind_head, ih]

theorem along_nodes_namespaceDecl (i : Imports) (d : NamespaceDecl Node) :
    i.along (Node.namespaceDecl d).nodes =
      (i.behind (.namespaceDecl d)).along (d.members.flatMap Node.nodes) := by
  have hdirectives (i : Imports) (us : List UsingDirective) :
      i.along ((us.map Node.usingDirective).flatMap Node.nodes) = i := by
    induction us generalizing i with
    | nil => rfl
    | cons u us ih =>
      rw [List.map_cons, List.flatMap_cons, Node.nodes_eq, along_append, ih]
      rfl
  rw [Node.nodes_eq, along_cons, Node.children, List.flatMap_append, along_append, hdirectives]

/-- Namespaces that give a name no other meaning leave its meaning as it is. -/
theorem lookup_along {i : Imports} {ns : List Node} {name : String}
    (h : ∀ d, Node.namespaceDecl d ∈ ns → ∀ u ∈ d.usings, u.aliasName ≠ name) :
    (i.along ns).aliases.lookup name = i.aliases.lookup name := by
  -- the usings of one namespace first
  have hadd (us : List UsingDirective) (i : Imports) (hus : ∀ u ∈ us, u.aliasName ≠ name) :
      (us.foldl add i).aliases.lookup name = i.aliases.lookup name := by
    induction us generalizing i with
    | nil => rfl
    | cons u us ih =>
      obtain ⟨hu, hus⟩ := List.forall_mem_cons.mp hus
      rw [List.foldl_cons, ih _ hus, add]
      split
      · rw [List.lookup_cons, beq_false_of_ne hu.symm]
      · split <;> rfl
  induction ns generalizing i with
  | nil => rfl
  | cons n ns ih =>
    rw [along_cons, ih fun d hd => h d (List.mem_cons_of_mem n hd)]
    cases n with
    | namespaceDecl d =>
      rw [behind]
      split
      · rfl
      · exact hadd d.usings _ (h d List.mem_cons_self)
    | _ => rfl

theorem ofUnit_fill (site : Site) (n m : Node) :
    ofUnit (site.fill n) = ofUnit (site.fill m) := by
  induction site generalizing n m with
  | unit u front back => rfl
  | fileScoped u g => rfl
  | inside outer g ih => exact ih _ _

end Imports

namespace Binder

theorem inScope_head (v : Visit (List String)) : inScope v.head = inScope v := by
  obtain ⟨address, params, n⟩ := v
  cases n <;> rfl

end Binder

namespace Site

variable {site : Site} {external : Option ExternalSymbols} {n m : Node} {a : Address}

variable (site) in
/-- The walk of the binder over a file with a gap: what it visits in front of the gap, in the gap
and below it, and behind. -/
theorem exists_binder_walk : ∃ front back : List (Visit (List String)),
    (∀ v ∈ front, Before v.address site.address) ∧ (∀ v ∈ back, Before site.address v.address) ∧
      ∀ n, ∃ gap : List (Visit (List String)), gap.map (·.node) = n.nodes.map Node.head ∧
        (∀ v ∈ gap, site.address <:+ v.address) ∧
          (Binder.walk (site.fill n)).map Visit.head = front ++ (gap ++ back) := by
  obtain ⟨params, front, back, hwalk⟩ := site.exists_walk
    (fun v => some (Binder.inScope v)) (fun v => congrArg some (Binder.inScope_head v))
    (fun _ _ _ => rfl) (fun _ _ _ => rfl) []
  -- the order of a walk tells what is in front of the gap and behind it
  have hplaces (n : Node) : (front ++ ((n.visits (fun v => some (Binder.inScope v)) params
      site.address).map Visit.head ++ back)).Pairwise fun v w => Before v.address w.address := by
    rw [← hwalk]
    exact List.pairwise_map.mpr (Node.pairwise_before_visits _ _ _ _)
  obtain ⟨-, hgap, hfront⟩ := List.pairwise_append.mp (hplaces default)
  obtain ⟨-, -, hback⟩ := List.pairwise_append.mp hgap
  have hself : Visit.head ⟨site.address, params, default⟩ ∈ ((default : Node).visits
      (fun v => some (Binder.inScope v)) params site.address).map Visit.head :=
    List.mem_map_of_mem (Node.mem_visits_self default params site.address)
  refine ⟨front, back, fun v hv => hfront v hv _ (List.mem_append_left back hself),
    fun v hv => hback _ hself v hv, fun n => ⟨_, ?_, fun v hv => ?_, hwalk n⟩⟩
  · have hnodes : (n.visits (fun v => some (Binder.inScope v)) params site.address).map (·.node) =
        n.nodes := Node.map_node_visits n params site.address
    rw [List.map_map, ← hnodes, List.map_map]
    rfl
  · obtain ⟨w, hw, rfl⟩ := List.mem_map.mp hv
    exact (Node.visited_of_mem_visits hw).suffix

/-- A place of the walk is told by the walk that shows each node on its own. -/
theorem lookup_eq_of_walk {u : CompilationUnit Node} {index : Option SymbolIndex}
    {front back : List (Visit (List String))} {v : Visit (List String)} {t : TypeRef}
    (hwalk : (Binder.walk u).map Visit.head = front ++ v :: back) (ht : v.node = .type t) :
    (bindTypes u index external).lookup v.address = some (resolveRef index external
      ((Imports.ofUnit u).along (front.map (·.node))) v.inherited t) := by
  obtain ⟨front', rest, hsplit, rfl, hrest⟩ := List.map_eq_append_iff.mp hwalk
  obtain ⟨w, back', rfl, rfl, rfl⟩ := List.map_eq_cons_iff.mp hrest
  have hw : w.node = .type t := by
    change w.node.head = .type t at ht
    cases hn : w.node <;> rw [hn] at ht <;> first | exact ht | cases ht
  refine lookup_bindTypes_eq_some_iff.mpr ⟨front', w, back', t, hsplit, rfl, hw, ?_⟩
  rw [← Imports.along_head _ (front'.map _), List.map_map, List.map_map]
  rfl

/-- A reference stands at a place of the walk that shows each node on its own. -/
theorem exists_mem_walk {u : CompilationUnit Node} {t : TypeRef}
    (hat : (Node.unit u).at? a = some (.type t)) :
    ∃ v ∈ (Binder.walk u).map Visit.head, v.address = a ∧ v.node = .type t ∧
      ∀ name, name ∈ v.inherited ↔
        ∃ n p, (Node.unit u).Above a n ∧ n.DeclaresTypeParam p ∧ p.name = name := by
  obtain ⟨v, hv, rfl, ht⟩ := Binder.exists_mem_walk_iff.mpr hat
  refine ⟨v.head, List.mem_map_of_mem hv, rfl, ?_, fun name => ?_⟩
  · rw [Visit.head, ht]
    rfl
  · rw [← Node.exists_above_typeParamNames_iff hat,
      ← Node.Visited.mem_inherited_iff (Node.visited_of_mem_visits hv)]
    rfl

/-- A namespace that is shown without its members stands in the file with the same directives. -/
theorem exists_namespaceDecl_of_mem_walk {u : CompilationUnit Node} {w : Visit (List String)}
    {d : NamespaceDecl Node} (hw : w ∈ (Binder.walk u).map Visit.head)
    (hd : w.node = .namespaceDecl d) :
    ∃ e, (Node.unit u).at? w.address = some (.namespaceDecl e) ∧ e.usings = d.usings := by
  obtain ⟨v, hv, rfl⟩ := List.mem_map.mp hw
  have hat := (Node.visited_of_mem_visits hv).at?_eq
  change v.node.head = .namespaceDecl d at hd
  cases hn : v.node with
  | namespaceDecl e =>
    rw [hn] at hd hat
    obtain rfl := Node.namespaceDecl.inj hd
    exact ⟨e, hat, rfl⟩
  | _ =>
    rw [hn] at hd
    cases hd

variable (external) in
/-- In front of the gap references are bound regardless of what fills it. -/
theorem exists_lookup_of_before {t : TypeRef} (hbefore : Before a site.address)
    (hat : (Node.unit (site.fill n)).at? a = some (.type t)) :
    ∃ imports params, ∀ m index, (bindTypes (site.fill m) index external).lookup a =
      some (resolveRef index external imports params t) := by
  obtain ⟨front, back, -, hback, hfill⟩ := site.exists_binder_walk
  obtain ⟨gap, -, hgap, hwalk⟩ := hfill n
  obtain ⟨v, hv, rfl, ht, -⟩ := exists_mem_walk hat
  rw [hwalk, List.mem_append, List.mem_append] at hv
  -- what is in the gap or behind it does not come before the gap
  have hfront : v ∈ front := by
    rcases hv with hv | hv | hv
    · exact hv
    · rcases eq_or_ne site.address v.address with heq | hne
      · exact absurd (heq ▸ hbefore) Address.not_before_self
      · exact absurd hbefore (Address.before_of_suffix (hgap v hv) hne).not_before
    · exact absurd hbefore (hback v hv).not_before
  obtain ⟨front₁, front₂, rfl⟩ := List.append_of_mem hfront
  refine ⟨(Imports.ofUnit (site.fill n)).along (front₁.map (·.node)), v.inherited, fun m index => ?_⟩
  obtain ⟨gap', -, -, hwalk'⟩ := hfill m
  rw [List.append_assoc, List.cons_append] at hwalk'
  rw [lookup_eq_of_walk hwalk' ht, Imports.ofUnit_fill site m n]

variable (external) in
/-- Behind the gap references are bound with what is imported in the gap. -/
theorem exists_lookup_of_behind {t : TypeRef} (hbehind : Before site.address a)
    (hout : ¬site.address <:+ a) (hat : (Node.unit (site.fill n)).at? a = some (.type t)) :
    ∃ (imports : Imports) (params : List String) (between : List Node),
      (∀ name, name ∈ params ↔
        ∃ k p, (Node.unit (site.fill n)).Above a k ∧ k.DeclaresTypeParam p ∧ p.name = name) ∧
      (∀ d, Node.namespaceDecl d ∈ between → ∃ b e, Before site.address b ∧ Before b a ∧
        (Node.unit (site.fill n)).at? b = some (.namespaceDecl e) ∧ e.usings = d.usings) ∧
      ∀ m index, (bindTypes (site.fill m) index external).lookup a =
        some (resolveRef index external ((imports.along m.nodes).along between) params t) := by
  obtain ⟨front, back, hfront, hback, hfill⟩ := site.exists_binder_walk
  obtain ⟨gap, -, hgap, hwalk⟩ := hfill n
  obtain ⟨v, hv, rfl, ht, hparams⟩ := exists_mem_walk hat
  rw [hwalk, List.mem_append, List.mem_append] at hv
  -- Neither in front of the gap nor inside it, the reference stands behind it.
  have hmem : v ∈ back := by
    rcases hv with hv | hv | hv
    · exact absurd (hfront v hv) hbehind.not_before
    · exact absurd (hgap v hv) hout
    · exact hv
  obtain ⟨back₁, back₂, rfl⟩ := List.append_of_mem hmem
  refine ⟨(Imports.ofUnit (site.fill n)).along (front.map (·.node)), v.inherited,
    back₁.map (·.node), hparams, fun d hd => ?_, fun m index => ?_⟩
  · obtain ⟨w, hw, hwd⟩ := List.mem_map.mp hd
    -- A walk keeps to the order of the text, and what it meets between gap and reference is in
    -- `back₁`.
    have horder : (front ++ (gap ++ (back₁ ++ v :: back₂))).Pairwise
        fun v w => Before v.address w.address := by
      rw [← hwalk]
      exact List.pairwise_map.mpr (Node.pairwise_before_visits _ _ _ _)
    have hrest := (List.pairwise_append.mp (List.pairwise_append.mp horder).2.1).2.1
    have hmem : w ∈ (Binder.walk (site.fill n)).map Visit.head := by simp [hwalk, hw]
    obtain ⟨e, he, husings⟩ := exists_namespaceDecl_of_mem_walk hmem hwd
    exact ⟨w.address, e, hback w (List.mem_append_left _ hw),
      (List.pairwise_append.mp hrest).2.2 w hw v List.mem_cons_self, he, husings⟩
  · obtain ⟨gap', hnodes, -, hwalk'⟩ := hfill m
    rw [← List.append_assoc, ← List.append_assoc] at hwalk'
    rw [lookup_eq_of_walk hwalk' ht, Imports.ofUnit_fill site m n, List.map_append, List.map_append,
      Imports.along_append, Imports.along_append, hnodes, Imports.along_head]

end Site

/-! ### References that hang on imports -/

/-- The imports at an address decide what a reference behind it means: no word of the language, no
type parameter and no alias in between does. -/
structure TypeRef.HangsOnImports (root : Node) (start a : Address) (t : TypeRef) : Prop where
  notBuiltin : t.isBuiltin = false
  notWord : t.name ∉ constraintWords
  /-- An alias can stand for the name. -/
  simple : t.name ≠ "" ∧ '.' ∉ t.name.toList
  notParam : ¬∃ n p, root.Above a n ∧ n.DeclaresTypeParam p ∧ p.name = t.name
  notRenamed : ∀ b d, Before start b → Before b a → root.at? b = some (.namespaceDecl d) →
    ∀ u ∈ d.usings, u.aliasName ≠ t.name

/-- The directive `using A = N;`. -/
def UsingDirective.alias (name target : String) : UsingDirective :=
  { span := Span.none, name := target, aliasName := name }

/-- Adds a directive to those of a namespace. -/
def NamespaceDecl.direct (d : NamespaceDecl Node) (u : UsingDirective) : NamespaceDecl Node :=
  { d with usings := d.usings ++ [u] }

section Decide

variable {x : SymbolIndex} {external : Option ExternalSymbols} {imports : Imports} {name : String}

/-- A name that is not well known is bound to a symbol of that name, or else to a name that ends in
it. -/
theorem names_or_suffix_of_resolveName (hknown : isWellKnown (lastSegment name) = false) :
    let b := resolveName (some x) external imports name
    (b.kind = .source ∧ ∃ s, x.Names name s ∧ s.id = b.symbol) ∨
      (b.kind ≠ .source ∧ name.toList <:+ b.target.toList) := by
  simp only [resolveName, Option.bind_some]
  cases hresolve : x.resolveType name with
  | some s => exact .inl ⟨rfl, s, SymbolIndex.names_of_resolveType hresolve, rfl⟩
  | none =>
    right
    dsimp only
    split
    · next target hfind =>
      refine ⟨(by decide : BindingKind.external ≠ .source), ?_⟩
      obtain ⟨e, -, hfind⟩ := Option.bind_eq_some_iff.mp hfind
      rcases List.mem_cons.mp (List.mem_of_find?_eq_some hfind) with rfl | hmem
      · exact List.suffix_refl _
      · obtain ⟨ns, -, rfl⟩ := List.mem_map.mp hmem
        rw [String.toList_append]
        exact List.suffix_append _ _
    · simp [hknown]

variable (external) in
/-- Of three names, one is not bound in a given way. -/
theorem exists_resolveName_ne (hx : x.Numbered) (imports : String → Imports) (b : Binding) :
    ∃ name ∈ ["P", "Q", "R"],
      resolveName (some x) external (imports name) (withoutGlobal name) ≠ b := by
  have hwithout : ∀ name ∈ ["P", "Q", "R"], withoutGlobal name = name := by decide +kernel
  have hnormal : ∀ name ∈ ["P", "Q", "R"],
      Text.normalize name = name ∧ Text.normalize (lastSegment name) = name := by decide +kernel
  have hknown : ∀ name ∈ ["P", "Q", "R"], isWellKnown (lastSegment name) = false := by
    decide +kernel
  -- bound alike, the three names are names of one symbol or endings of one target
  by_contra hall
  have hall : ∀ name ∈ ["P", "Q", "R"], (b.kind = .source ∧ ∃ s, x.symbol? b.symbol = some s ∧
      (s.fullName = name ∨ s.name = name)) ∨ (b.kind ≠ .source ∧ name.toList <:+ b.target.toList) := by
    intro name hname
    have hbound : resolveName (some x) external (imports name) name = b := by
      by_contra hne
      exact hall ⟨name, hname, (hwithout name hname).symm ▸ hne⟩
    rcases names_or_suffix_of_resolveName (hknown name hname) with ⟨hkind, s, hs, hid⟩ | hsuffix
    · rw [hbound] at hkind hid
      refine .inl ⟨hkind, s, hid ▸ hx.symbol?_eq hs.mem, ?_⟩
      rcases hs.named with h | ⟨-, h⟩
      · exact .inl (h.trans (hnormal name hname).1)
      · exact .inr (h.trans (hnormal name hname).2)
    · exact .inr (hbound ▸ hsuffix)
  simp only [List.forall_mem_cons] at hall
  obtain ⟨hp, hq, hr, -⟩ := hall
  rcases hp with ⟨hkind, s, hs, hp⟩ | ⟨hkind, hp⟩
  · -- a symbol has two names
    obtain ⟨-, s', hs', hq⟩ := hq.resolve_right fun h => h.1 hkind
    obtain ⟨-, s'', hs'', hr⟩ := hr.resolve_right fun h => h.1 hkind
    obtain rfl := Option.some.inj (hs.symm.trans hs')
    obtain rfl := Option.some.inj (hs.symm.trans hs'')
    grind
  · -- two endings of one length are the same
    obtain ⟨-, hq⟩ := hq.resolve_left fun h => hkind h.1
    have hsame := (List.suffix_of_suffix_length_le hp hq (by decide)).eq_of_length (by decide)
    exact absurd hsame (by decide)

end Decide

/-- The binding of the reference at an address of a file. -/
def CompilationUnit.bindingAt (u : CompilationUnit Node) (external : Option ExternalSymbols)
    (a : Address) : Option Binding :=
  (bindTypes u (some (symbolIndex u)) external).lookup a

section Reach

variable {site : Site} {d : NamespaceDecl Node} {external : Option ExternalSymbols} {a : Address}

/-- In front of a gap nothing of what directives fill it matters. -/
theorem Site.bindingAt_eq_of_before {n m : Node} (hbefore : Before a site.address)
    (h : n.Redirected m) :
    (site.fill n).bindingAt external a = (site.fill m).bindingAt external a := by
  have hsame {n m : Node} {b : Binding}
      (hindex : (symbolIndex (site.fill n)).Alike (symbolIndex (site.fill m)))
      (hb : (site.fill n).bindingAt external a = some b) :
      (site.fill m).bindingAt external a = some b := by
    obtain ⟨t, hat⟩ := isSome_lookup_bindTypes_iff.mp (Option.isSome_iff_exists.mpr ⟨b, hb⟩)
    obtain ⟨imports, params, hlookup⟩ :=
      exists_lookup_of_before external hbefore hat
    rw [CompilationUnit.bindingAt, hlookup] at hb ⊢
    rw [← hindex.resolveRef_eq]
    exact hb
  have halike := site.alike_symbolIndex h
  exact Option.ext fun b => ⟨hsame halike, hsame halike.symm⟩

theorem Imports.lookup_behind_direct (i : Imports) (hblock : d.fileScoped = false) {name : String}
    (hname : name ≠ "") (target : String) :
    (i.behind (.namespaceDecl (d.direct (.alias name target)))).aliases.lookup name =
      some target := by
  have halias (i : Imports) : (i.add (.alias name target)).aliases.lookup name = some target := by
    rw [add, if_pos (by simpa [UsingDirective.alias] using hname)]
    exact List.lookup_cons_self
  have hopen : ¬(d.direct (.alias name target)).fileScoped = true := by
    rw [NamespaceDecl.direct, hblock]
    exact Bool.false_ne_true
  rw [behind, if_neg hopen, addNamespace, NamespaceDecl.direct, List.foldl_append]
  exact halias _

theorem Node.at?_cons_of_children {root n c : Node} {l r : List Node} {i : Nat}
    (hat : root.at? a = some n) (hchildren : n.children = l ++ c :: r) (hi : l.length = i) :
    root.at? (i :: a) = some c := by
  rw [at?, hat, Option.bind_some, hchildren, ← hi, List.getElem?_append_right le_rfl, Nat.sub_self,
    List.getElem?_cons_zero]

theorem Site.at?_address (site : Site) (n : Node) :
    (Node.unit (site.fill n)).at? site.address = some n := by
  induction site generalizing n with
  | unit u front back =>
    exact Node.at?_cons_of_children rfl (u.children_with_member front back n)
      (by simp only [List.length_append, List.length_map])
  | fileScoped u g =>
    refine Node.at?_cons_of_children (Node.at?_cons_of_children rfl
      (u.children_with_fileScoped (g.fill n)) ?_) (g.children_fill n) ?_
    all_goals simp only [List.length_append, List.length_map]
  | inside outer g ih =>
    exact Node.at?_cons_of_children (ih _) (g.children_fill n)
      (by simp only [List.length_append, List.length_map])

/-- What is below an address comes behind it and before all that is behind it and not below. -/
theorem Node.exists_at?_of_mem_below {root n m : Node} (hat : root.at? a = some n)
    (hm : m ∈ n.children.flatMap Node.nodes) :
    ∃ b, a <:+ b ∧ Before a b ∧ root.at? b = some m := by
  obtain ⟨v, hv, rfl, rfl⟩ : ∃ v ∈ root.visits (fun _ => some ()) (), v.address = a ∧ v.node = n :=
    exists_mem_visits_iff.mpr hat
  have hnodes : (v.node.visits (fun _ => some ()) v.inherited v.address).map (·.node) =
      v.node.nodes := map_node_visits v.node v.inherited v.address
  have hpair := pairwise_before_visits (fun _ => some ()) v.node v.inherited v.address
  have hsub := visits_subset hv
  rw [visits_eq] at hnodes hpair hsub
  rw [List.map_cons, nodes_eq] at hnodes
  rw [← (List.cons.inj hnodes).2] at hm
  obtain ⟨w, hw, rfl⟩ := List.mem_map.mp hm
  have hwithin : w ∈ v.node.visits (fun _ => some ()) v.inherited v.address := by
    rw [visits_eq]
    exact List.mem_cons_of_mem _ hw
  exact ⟨w.address, (visited_of_mem_visits hwithin).suffix, List.rel_of_pairwise_cons hpair hw,
    (visited_of_mem_visits (hsub (List.mem_cons_of_mem _ hw))).at?_eq⟩

theorem Node.mem_nodes_of_at? {root n : Node} (hat : root.at? a = some n) : n ∈ root.nodes := by
  obtain ⟨v, hv, -, rfl⟩ : ∃ v ∈ root.visits (fun _ => some ()) (), v.address = a ∧ v.node = n :=
    exists_mem_visits_iff.mpr hat
  rw [← map_node_visits root () []]
  exact List.mem_map_of_mem hv

/-- Behind a namespace with an alias, references that hang on imports mean what it stands for. -/
theorem Site.bindingAt_direct {t : TypeRef} (hblock : d.fileScoped = false)
    (hat : (Node.unit (site.fill (.namespaceDecl d))).at? a = some (.type t))
    (hbehind : Before site.address a) (hout : ¬site.address <:+ a)
    (himports : t.HangsOnImports (.unit (site.fill (.namespaceDecl d))) site.address a) :
    ∃ imports : String → Imports, ∀ target,
      (site.fill (.namespaceDecl (d.direct (.alias t.name target)))).bindingAt external a =
        some (resolveName (some (symbolIndex (site.fill (.namespaceDecl d)))) external
          (imports target) (withoutGlobal target)) := by
  obtain ⟨imports, params, between, hparams, hbetween, hlookup⟩ :=
    exists_lookup_of_behind external hbehind hout hat
  -- no namespace between the directive and the reference gives the name another meaning
  have hmembers (e : NamespaceDecl Node)
      (he : Node.namespaceDecl e ∈ d.members.flatMap Node.nodes) :
      ∀ u ∈ e.usings, u.aliasName ≠ t.name := by
    have hbelow : Node.namespaceDecl e ∈ (Node.namespaceDecl d).children.flatMap Node.nodes := by
      rw [Node.children, List.flatMap_append]
      exact List.mem_append_right _ he
    obtain ⟨b, hwithin, hb, hbat⟩ :=
      Node.exists_at?_of_mem_below (site.at?_address (.namespaceDecl d)) hbelow
    refine himports.notRenamed b e hb ?_ hbat
    rcases Address.before_trichotomy b a with h | rfl | h
    · exact h
    · exact absurd hwithin hout
    · exact absurd (Address.within_of_between List.suffix_rfl hwithin hbehind h) hout
  have hback (e : NamespaceDecl Node) (he : Node.namespaceDecl e ∈ between) :
      ∀ u ∈ e.usings, u.aliasName ≠ t.name := by
    obtain ⟨b, e', hb, hba, hbat, husings⟩ := hbetween e he
    exact husings ▸ himports.notRenamed b e' hb hba hbat
  have hparam : t.name ∉ params := fun h => himports.notParam ((hparams t.name).mp h)
  refine ⟨fun target => (imports.along
    (Node.namespaceDecl (d.direct (.alias t.name target))).nodes).along between, fun target => ?_⟩
  have halias : ((imports.along (Node.namespaceDecl (d.direct (.alias t.name target))).nodes).along
      between).aliases.lookup t.name = some target := by
    rw [Imports.lookup_along hback, Imports.along_nodes_namespaceDecl]
    exact (Imports.lookup_along hmembers).trans
      (Imports.lookup_behind_direct imports hblock himports.simple.1 target)
  have halike : (symbolIndex (site.fill (.namespaceDecl d))).Alike
      (symbolIndex (site.fill (.namespaceDecl (d.direct (.alias t.name target))))) :=
    site.alike_symbolIndex (.directives d _)
  rw [CompilationUnit.bindingAt, hlookup, ← halike.resolveRef_eq,
    resolveRef_of_not_keyword himports.notBuiltin himports.notWord, if_neg fun h => hparam h.2,
    halias, Option.getD_some]

end Reach

/-- Changes to the directives of a block namespace and of those inside of it do not change the
binding of any reference in front of the namespace. They do reach what stands behind it, be it in
another namespace or in none: a reference there that hangs on imports is bound otherwise with one
directive more. -/
theorem directives_reach_behind_only (site : Site) (d : NamespaceDecl Node)
    (external : Option ExternalSymbols) (a : Address) :
    (Before a site.address → ∀ n, (Node.namespaceDecl d).Redirected n →
      (site.fill n).bindingAt external a =
        (site.fill (.namespaceDecl d)).bindingAt external a) ∧
    (Before site.address a → ¬site.address <:+ a → d.fileScoped = false →
      ∀ t, (Node.unit (site.fill (.namespaceDecl d))).at? a = some (.type t) →
        t.HangsOnImports (.unit (site.fill (.namespaceDecl d))) site.address a →
          ∃ u, (site.fill (.namespaceDecl (d.direct u))).bindingAt external a ≠
            (site.fill (.namespaceDecl d)).bindingAt external a) := by
  refine ⟨fun hbefore n h => (Site.bindingAt_eq_of_before hbefore h).symm, ?_⟩
  intro hbehind hout hblock t hat himports
  obtain ⟨b, hb⟩ : ∃ b, (site.fill (.namespaceDecl d)).bindingAt external a = some b :=
    Option.isSome_iff_exists.mp (isSome_lookup_bindTypes_iff.mpr ⟨t, hat⟩)
  obtain ⟨imports, hdirect⟩ := Site.bindingAt_direct hblock hat hbehind hout himports
  obtain ⟨target, -, hne⟩ := exists_resolveName_ne external
    (SymbolIndex.numbered_symbolIndex (site.fill (.namespaceDecl d))) imports b
  refine ⟨.alias t.name target, ?_⟩
  rw [hdirect, hb]
  exact fun h => hne (Option.some.inj h)

/-- A namespace with a class that has a base type. -/
def derivedIn (name : String) : NamespaceDecl Node :=
  { span := Span.none, name, nameSpan := Span.none
    members := [.typeDecl
      { span := Span.none, kind := .classType, name := "C", nameSpan := Span.none
        baseTypes := [{ span := Span.none, name := "T" }] }] }

/-- A gap between two namespaces. -/
def betweenNamespaces : Site :=
  .unit { span := Span.none } [.namespaceDecl (derivedIn "Z")] [.namespaceDecl (derivedIn "B")]

theorem betweenNamespaces_directives_reach :
    (∀ n, (Node.namespaceDecl (derivedIn "A")).Redirected n →
      (betweenNamespaces.fill n).bindingAt none [0, 0, 0] =
        (betweenNamespaces.fill (.namespaceDecl (derivedIn "A"))).bindingAt none [0, 0, 0]) ∧
    ∃ u, (betweenNamespaces.fill (.namespaceDecl ((derivedIn "A").direct u))).bindingAt none
        [0, 0, 2] ≠
      (betweenNamespaces.fill (.namespaceDecl (derivedIn "A"))).bindingAt none [0, 0, 2] := by
  have hat : (Node.unit (betweenNamespaces.fill (.namespaceDecl (derivedIn "A")))).at? [0, 0, 2] =
      some (.type { span := Span.none, name := "T" }) := rfl
  have hplain : ∀ n ∈ (Node.unit (betweenNamespaces.fill (.namespaceDecl (derivedIn "A")))).nodes,
      n.typeParamNames = [] ∧ ∀ d, n = .namespaceDecl d → d.usings = [] := by
    simp [betweenNamespaces, Site.fill, derivedIn, Node.nodes_eq, Node.children, Node.typeParamNames]
  refine ⟨(directives_reach_behind_only _ _ _ _).1 (by decide),
    (directives_reach_behind_only _ _ _ _).2 (by decide) (by decide) rfl _ hat
      ⟨by decide +kernel, by decide +kernel, by decide +kernel, ?_, fun b d _ _ hb u hu => ?_⟩⟩
  · rw [← Node.exists_above_typeParamNames_iff hat]
    rintro ⟨n, ⟨b, -, -, hb⟩, hname⟩
    rw [(hplain n (Node.mem_nodes_of_at? hb)).1] at hname
    cases hname
  · rw [(hplain _ (Node.mem_nodes_of_at? hb)).2 d rfl] at hu
    cases hu

/-- The references of a file, with what they are bound to. -/
def boundIn (text : List UInt8) (external : ExternalSymbols) : Option (List (String × Binding)) :=
  (parse text).toOption.map fun u =>
    (bindTypes u (some (symbolIndex u)) (some external)).refs.map fun r => (r.ref.name, r.binding)

/-- The type of a field is that which a directive of another namespace imports, and nothing without
the directive. -/
theorem sibling_directive_binds :
    let external := ExternalSymbols.addType {} "X" "T"
    boundIn ("namespace A\x7busing X;\x7dnamespace B\x7bclass C\x7bT f;\x7d\x7d".toList.map Lexer.ascii)
      external = some [("T", { kind := .external, target := "X.T" })] ∧
    boundIn ("namespace A\x7b\x7dnamespace B\x7bclass C\x7bT f;\x7d\x7d".toList.map Lexer.ascii)
      external = some [("T", { kind := .unresolved, target := "T" })] := by
  rw [Lexer.ascii_ofList, Lexer.ascii_ofList]
  decide +kernel

end CSharpAudit
