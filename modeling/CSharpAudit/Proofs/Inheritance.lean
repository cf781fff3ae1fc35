import CSharpAudit.Proofs.Grammar.Listing
import CSharpAudit.Proofs.FinalForm
import Mathlib.Data.List.Chain
import Mathlib.Data.List.TakeWhile

/-!
# Circular inheritance

Types that inherit from each other in a circle are found by a depth-first search through the base
types that are declared in the same file. A base type is looked up by the name it is written with,
so each step of a circle goes back to an entry of a base list that names the next type, by its full
name or, where no type of the file has that name, by the last segment alone. Type arguments do not
count.

## Main definitions

* `InheritanceGraph.IsCycle` — a chain of base types that comes back to its start
* `SymbolIndex.Names` — a name refers to a type of a file
* `CompilationUnit.StandsFor` — the names that a reference to a type may stand for
* `CompilationUnit.InheritsByName` — an entry of a base list names another type

## Main results

* `InheritanceGraph.isCycle_of_mem_cycles` — only cycles are found
* `exists_of_lookup_bindTypes` — what a binding says about the reference at its place
* `Rules.inheritsByName_of_inherits` — each edge of the graph goes back to a base list
* `circular_types_named` — each step of a reported circle is an entry of a base list
-/

namespace CSharpAudit

namespace InheritanceGraph

variable {g : InheritanceGraph} {path visited visited' cycle : List Nat} {start last depth : Nat}

/-- One type has another one among its bases. -/
def Inherits (g : InheritanceGraph) (a b : Nat) : Prop := (a, b) ∈ g.edges

/-- The bases of a type are what it inherits from. -/
theorem mem_bases {a b : Nat} : b ∈ g.bases a ↔ g.Inherits a b := by
  simp [bases, Inherits]

/-- A chain of base types that comes back to its start. -/
structure IsCycle (g : InheritanceGraph) (cycle : List Nat) : Prop where
  chain : cycle.IsChain g.Inherits
  closed : ∃ start between, cycle = start :: (between ++ [start])

theorem exists_of_isChain_append {α : Type} {R : α → α → Prop} {l m : List α}
    (h : (l ++ m).IsChain R) (hm : m ≠ []) : ∀ a ∈ l, ∃ b, R a b := by
  induction l with
  | nil => exact nofun
  | cons a l ih =>
    refine List.forall_mem_cons.mpr ⟨?_, ih (List.IsChain.tail h)⟩
    obtain ⟨b, bs, hrest⟩ := List.exists_cons_of_ne_nil
      (List.append_ne_nil_of_right_ne_nil l hm)
    rw [List.cons_append, hrest] at h
    exact ⟨b, (List.isChain_cons_cons.mp h).1⟩

/-- Each type on a cycle inherits from another one. -/
theorem IsCycle.inherits_of_mem {id : Nat} (h : g.IsCycle cycle) (hid : id ∈ cycle) :
    ∃ b, g.Inherits id b := by
  obtain ⟨start, between, rfl⟩ := h.closed
  refine exists_of_isChain_append (l := start :: between) h.chain (List.cons_ne_nil _ _) id ?_
  simp only [List.mem_cons, List.mem_append, List.not_mem_nil, or_false] at hid ⊢
  tauto

/-- The end of a path that leads back to one of its types is a cycle. -/
theorem isCycle_closeAt (hpath : path.IsChain g.Inherits) (hlast : last ∈ path.getLast?)
    (hbase : g.Inherits last start) (hmem : start ∈ path) : g.IsCycle (closeAt path start) := by
  obtain ⟨front, hsplit⟩ := List.dropWhile_suffix (l := path) (· != start)
  have hhead := List.head?_dropWhile_not (· != start) path
  unfold closeAt
  cases hrest : path.dropWhile (· != start) with
  | nil =>
    have hall := List.dropWhile_eq_nil_iff.mp hrest start hmem
    simp at hall
  | cons a rest =>
    rw [hrest] at hsplit hhead
    obtain rfl : a = start := by simpa using hhead
    refine ⟨?_, a, rest, rfl⟩
    rw [← hsplit] at hpath hlast
    refine List.isChain_append.mpr ⟨(List.isChain_append.mp hpath).2.1, List.isChain_singleton _, ?_⟩
    rintro l hl b hb
    cases hb
    rw [List.getLast?_append_of_ne_nil _ (List.cons_ne_nil _ _)] at hlast
    rwa [Option.mem_unique hl hlast]

/-- What the search below one type finds is a cycle if what it finds through the bases is. -/
theorem isCycle_of_searchBases {bases : List Nat}
    (hsearch : ∀ {visited visited' id cycle}, (∀ l ∈ path.getLast?, g.Inherits l id) →
      g.search path visited id depth = (visited', some cycle) → g.IsCycle cycle)
    (hpath : path.IsChain g.Inherits) (hlast : last ∈ path.getLast?)
    (hbases : ∀ b ∈ bases, g.Inherits last b)
    (h : g.searchBases path visited depth bases = (visited', some cycle)) : g.IsCycle cycle := by
  induction bases generalizing visited with
  | nil =>
    rw [searchBases] at h
    cases h
  | cons base rest ih =>
    obtain ⟨hbase, hrest⟩ := List.forall_mem_cons.mp hbases
    rw [searchBases] at h
    split at h
    · split at h
      case h_1 hfound =>
        cases h
        refine hsearch (fun l hl => ?_) hfound
        rwa [Option.mem_unique hl hlast]
      case h_2 => exact ih hrest h
    -- The base has been visited: it is on the path and closes a cycle, or it is done with.
    · split at h
      · next hmem =>
        cases h
        exact isCycle_closeAt hpath hlast hbase (List.contains_iff_mem.mp hmem)
      · exact ih hrest h

/-- What a search reports closes in the graph. -/
theorem isCycle_of_search {id : Nat} (hpath : path.IsChain g.Inherits)
    (hid : ∀ l ∈ path.getLast?, g.Inherits l id)
    (h : g.search path visited id depth = (visited', some cycle)) : g.IsCycle cycle := by
  induction depth generalizing path visited visited' id cycle with
  | zero =>
    rw [search] at h
    cases h
  | succ depth ih =>
    have hlonger : (path ++ [id]).IsChain g.Inherits := by
      refine List.isChain_append.mpr ⟨hpath, List.isChain_singleton _, ?_⟩
      rintro l hl b hb
      cases hb
      exact hid l hl
    have hlast : id ∈ (path ++ [id]).getLast? := by rw [List.getLast?_concat]; rfl
    rw [search] at h
    exact isCycle_of_searchBases (fun hl hrun => ih hlonger hl hrun) hlonger hlast
      (fun b hb => mem_bases.mp hb) h

/-- Only cycles are found. -/
theorem isCycle_of_mem_cycles (h : cycle ∈ g.cycles) : g.IsCycle cycle := by
  unfold cycles at h
  refine List.foldlRecOn (motive := fun s : List Nat × List (List Nat) => ∀ c ∈ s.2, g.IsCycle c)
    g.types _ (List.forall_mem_nil _) ?_ cycle h
  rintro ⟨visited, found⟩ hfound t -
  by_cases hmem : visited.contains t.1 = true
  · simp only [hmem, if_true]
    exact hfound
  · simp only [hmem, Bool.false_eq_true, if_false]
    intro c hc
    rcases List.mem_append.mp hc with hc | hc
    · exact hfound c hc
    · exact isCycle_of_search List.isChain_nil (fun _ hl => by cases hl)
        (Prod.ext rfl (Option.mem_toList.mp hc))

end InheritanceGraph

/-! ### Symbols by name -/

namespace SymbolIndex

variable {x : SymbolIndex} {name : String} {s : Symbol} {i : Nat}

/-- A name refers to a type of a file: by its full name or, where no type has that full name, by the
last segment. -/
structure Names (x : SymbolIndex) (name : String) (s : Symbol) : Prop where
  mem : s ∈ x.symbols
  isType : s.kind.isType = true
  named : s.fullName = Text.normalize name ∨
    (∀ t ∈ x.symbols, t.kind.isType = true → t.fullName ≠ Text.normalize name) ∧
      s.name = Text.normalize (lastSegment name)

/-- What is found for a name is a type that the name refers to. -/
theorem names_of_resolveType (h : x.resolveType name = some s) : x.Names name s := by
  rw [resolveType] at h
  split at h
  · cases h
  · rw [withFullName_eq, withName_eq] at h
    rcases Option.or_eq_some_iff.mp h with h | ⟨hnone, h⟩
    · obtain ⟨hmem, hname⟩ := List.mem_filter.mp (List.mem_of_find?_eq_some h)
      exact ⟨hmem, by simpa using List.find?_some h, .inl (eq_of_beq hname)⟩
    · obtain ⟨hmem, hname⟩ := List.mem_filter.mp (List.mem_of_find?_eq_some h)
      refine ⟨hmem, by simpa using List.find?_some h, .inr ⟨?_, eq_of_beq hname⟩⟩
      intro t ht htype heq
      exact List.find?_eq_none.mp hnone t (List.mem_filter.mpr ⟨ht, by simp [heq]⟩) htype

/-- Whether the symbols of an index have the numbers of their places. -/
def Numbered (x : SymbolIndex) : Prop := ∀ (i : Nat) (s : Symbol), x.symbols[i]? = some s → s.id = i

/-- The symbols of a file are numbered in order. -/
theorem numbered_symbolIndex (u : CompilationUnit Node) : (symbolIndex u).Numbered := by
  intro i s hs
  rw [symbolIndex, symbols_eq, List.getElem?_map, List.getElem?_zipIdx, Option.map_map,
    Nat.zero_add] at hs
  obtain ⟨r, -, rfl⟩ := Option.map_eq_some_iff.mp hs
  rfl

/-- A symbol is found under its number. -/
theorem Numbered.symbol?_eq (h : x.Numbered) (hs : s ∈ x.symbols) : x.symbol? s.id = some s := by
  obtain ⟨i, hi⟩ := List.mem_iff_getElem?.mp hs
  rw [symbol?, if_neg (by omega), h i s hi]
  exact hi

end SymbolIndex

/-! ### Bindings -/

namespace CompilationUnit

variable (u : CompilationUnit Node)

/-- The aliases of some imports come from directives of a file. -/
def Knows (i : Imports) : Prop :=
  ∀ p ∈ i.aliases, ∃ a d, (Node.unit u).at? a = some (.usingDirective d) ∧
    d.aliasName = p.1 ∧ d.name = p.2

/-- The names that a reference to a type may stand for: its own, and what a directive of the file
has it stand for as an alias. -/
def StandsFor (t : TypeRef) (name : String) : Prop :=
  name = withoutGlobal t.name ∨ ∃ a d, (Node.unit u).at? a = some (.usingDirective d) ∧
    d.aliasName = t.name ∧ name = withoutGlobal d.name

variable {u}

/-- One more directive is known from the file. -/
theorem Knows.add {i : Imports} {a : Address} {d : UsingDirective} (h : u.Knows i)
    (hd : (Node.unit u).at? a = some (.usingDirective d)) : u.Knows (i.add d) := by
  unfold Imports.add
  split
  · rintro p hp
    rcases List.mem_cons.mp hp with rfl | hp
    · exact ⟨a, d, hd, rfl, rfl⟩
    · exact h p hp
  · split <;> exact h

theorem Knows.foldl {ds : List UsingDirective} {i : Imports} (h : u.Knows i)
    (hds : ∀ d ∈ ds, ∃ a, (Node.unit u).at? a = some (.usingDirective d)) :
    u.Knows (ds.foldl Imports.add i) := by
  induction ds generalizing i with
  | nil => exact h
  | cons d ds ih =>
    obtain ⟨⟨a, hd⟩, hds⟩ := List.forall_mem_cons.mp hds
    exact ih (h.add hd) hds

theorem exists_at?_of_mem_children {a : Address} {n c : Node} (h : (Node.unit u).at? a = some n)
    (hc : c ∈ n.children) : ∃ b, (Node.unit u).at? b = some c := by
  obtain ⟨i, hi⟩ := List.mem_iff_getElem?.mp hc
  exact ⟨i :: a, by rw [Node.at?, h, Option.bind_some, hi]⟩

/-- So is the name of a namespace that is entered. -/
theorem Knows.addNamespace {i : Imports} {a : Address} {n : NamespaceDecl Node} (h : u.Knows i)
    (hn : (Node.unit u).at? a = some (.namespaceDecl n)) : u.Knows (i.addNamespace n) := by
  refine Knows.foldl h fun d hd => exists_at?_of_mem_children hn ?_
  simp [Node.children, hd]

/-- The directives of a file are known. -/
theorem knows_ofUnit : u.Knows (.ofUnit u) := by
  have hunit : u.Knows (u.usings.foldl Imports.add {}) := by
    refine Knows.foldl (fun p hp => absurd hp List.not_mem_nil) fun d hd => ?_
    refine exists_at?_of_mem_children (a := []) rfl ?_
    simp [Node.children, hd]
  unfold Imports.ofUnit
  split
  · next n hn =>
    obtain ⟨a, ha⟩ := exists_at?_of_mem_children (u := u) (a := []) rfl
      (c := .namespaceDecl n) (by simp [Node.children, hn])
    exact hunit.addNamespace ha
  · exact hunit

/-- What is known of a file tells which name a type stands for. -/
theorem Knows.standsFor {i : Imports} (h : u.Knows i) (t : TypeRef) :
    u.StandsFor t (withoutGlobal ((i.aliases.lookup t.name).getD t.name)) := by
  cases hlookup : i.aliases.lookup t.name with
  | none => exact .inl rfl
  | some name =>
    obtain ⟨l, r, hsplit, -⟩ := List.lookup_eq_some_iff.mp hlookup
    obtain ⟨a, d, hd, halias, hname⟩ := h (t.name, name) (hsplit ▸ by simp)
    exact .inr ⟨a, d, hd, halias, by rw [Option.getD_some, hname]⟩

end CompilationUnit

section Bindings

variable {u : CompilationUnit Node} {index : Option SymbolIndex} {external : Option ExternalSymbols}

/-- A reference to a source type is neither predefined nor a type parameter. -/
theorem resolveRef_eq_resolveName {imports : Imports} {params : List String} {t : TypeRef}
    (h : (resolveRef index external imports params t).kind = .source) :
    resolveRef index external imports params t = resolveName index external imports
      (withoutGlobal ((imports.aliases.lookup t.name).getD t.name)) := by
  revert h
  unfold resolveRef
  split
  · nofun
  · split
    · nofun
    · split
      · nofun
      · split
        · nofun
        · exact fun _ => rfl

/-- A name that is bound to a source type was found in the index. -/
theorem exists_resolveType_of_resolveName {imports : Imports} {name : String}
    (h : (resolveName index external imports name).kind = .source) :
    ∃ s, index.bind (·.resolveType name) = some s ∧
      (resolveName index external imports name).symbol = s.id := by
  cases hs : index.bind (·.resolveType name) with
  | some s => exact ⟨s, rfl, by simp only [resolveName, hs]⟩
  | none =>
    simp only [resolveName, hs] at h
    split at h
    · cases h
    · split at h <;> cases h

/-- A reference that is bound to a type of the file is found under a name that it stands for. -/
theorem exists_resolveType_of_source {imports : Imports} {params : List String} {t : TypeRef}
    (himports : u.Knows imports)
    (h : (resolveRef index external imports params t).kind = .source) :
    ∃ name s, u.StandsFor t name ∧ index.bind (·.resolveType name) = some s ∧
      (resolveRef index external imports params t).symbol = s.id := by
  have heq := resolveRef_eq_resolveName h
  rw [heq] at h ⊢
  obtain ⟨s, hs, hid⟩ := exists_resolveType_of_resolveName h
  exact ⟨_, s, himports.standsFor t, hs, hid⟩

/-- What holds of the references met on a walk through a file. -/
structure Binder.State.Sound (u : CompilationUnit Node) (index : Option SymbolIndex)
    (external : Option ExternalSymbols) (s : Binder.State) : Prop where
  knows : u.Knows s.imports
  refs : ∀ r ∈ s.refs, (Node.unit u).at? r.address = some (.type r.ref) ∧
    ∃ imports params, u.Knows imports ∧
      r.binding = resolveRef index external imports params r.ref

/-- One step of the walk keeps the bindings sound. -/
theorem Binder.State.Sound.step {s : Binder.State} {v : Visit (List String)}
    (h : s.Sound u index external) (hv : (Node.unit u).at? v.address = some v.node) :
    (Binder.step index external s v).Sound u index external := by
  unfold Binder.step
  split
  · next d hd =>
    split
    · exact h
    · exact ⟨h.knows.addNamespace (hv.trans (congrArg some hd)), h.refs⟩
  · next t ht =>
    refine ⟨h.knows, fun r hr => ?_⟩
    rcases List.mem_cons.mp hr with rfl | hr
    · exact ⟨hv.trans (congrArg some ht), _, _, h.knows, rfl⟩
    · exact h.refs r hr
  · exact h

/-- A binding is that of the reference at its place, with aliases of the file. -/
theorem exists_of_lookup_bindTypes {a : Address} {b : Binding}
    (h : (bindTypes u index external).lookup a = some b) :
    ∃ t imports params, (Node.unit u).at? a = some (.type t) ∧ u.Knows imports ∧
      b = resolveRef index external imports params t := by
  -- along the walk: what is known so far comes from the file, and so does each binding
  have hsound : ∀ (vs : List (Visit (List String))) (s : Binder.State),
      (∀ v ∈ vs, (Node.unit u).at? v.address = some v.node) → s.Sound u index external →
        (vs.foldl (Binder.step index external) s).Sound u index external := by
    intro vs
    induction vs with
    | nil => exact fun _ _ hs => hs
    | cons v vs ih =>
      intro s hvs hs
      obtain ⟨hv, hvs⟩ := List.forall_mem_cons.mp hvs
      exact ih _ hvs (hs.step hv)
  have hwalk := hsound
    ((Node.unit u).visits (fun v => some (v.node.typeParamNames ++ v.inherited)) [])
    { imports := .ofUnit u } (fun v hv => (Node.mem_visits_iff.mp hv).at?_eq)
    ⟨CompilationUnit.knows_ofUnit, fun r hr => absurd hr List.not_mem_nil⟩
  obtain ⟨r, hr, rfl⟩ := Option.map_eq_some_iff.mp h
  have hmem := List.mem_reverse.mp (List.mem_of_find?_eq_some hr)
  have haddress : (r.address == a) = true := by simpa using List.find?_some hr
  obtain rfl := eq_of_beq haddress
  obtain ⟨hat, imports, params, hknows, hbinding⟩ := hwalk.refs r hmem
  exact ⟨r.ref, imports, params, hat, hknows, hbinding⟩

end Bindings

/-! ### Steps of a reported cycle -/

/-- An entry of the base list of one type of a file names another one. -/
def CompilationUnit.InheritsByName (u : CompilationUnit Node) (source target : Symbol) : Prop :=
  ∃ d ∈ u.declarations, ∃ t base name, d.node = .typeDecl t ∧
    (symbolIndex u).ofDecl? d.address = some source ∧ base ∈ t.baseTypes ∧ u.StandsFor base name ∧
      (symbolIndex u).Names name target

namespace Rules

variable {u : CompilationUnit Node} {external : Option ExternalSymbols} {d : Declared}

/-- Declarations stand at their addresses. -/
theorem at?_of_mem_declarations (hd : d ∈ u.declarations) :
    (Node.unit u).at? d.address = some d.node := by
  obtain ⟨v, hv, hsome⟩ := List.mem_filterMap.mp hd
  split at hsome
  · cases hsome
    exact (Node.mem_visits_iff.mp hv).at?_eq
  · cases hsome

/-- A base type is a child of the declaration, and was bound. -/
theorem exists_of_mem_sourceBases {bindings : BindingIndex} {index : SymbolIndex} {b : SourceBase}
    (h : b ∈ sourceBases bindings index d) : ∃ i binding,
      d.node.children[i]? = some (.type b.ref) ∧ bindings.lookup (i :: d.address) = some binding ∧
        binding.kind = .source ∧ index.symbol? binding.symbol = some b.target := by
  obtain ⟨⟨⟨place, ref⟩, position⟩, hplace, hsome⟩ := List.mem_filterMap.mp h
  obtain ⟨⟨c, i⟩, hc, href⟩ := List.mem_filterMap.mp (List.fst_mem_of_mem_zipIdx hplace)
  have hchild : d.node.children[i]? = some c := List.mem_zipIdx_iff_getElem?.mp hc
  split at href
  · next t' i' heq =>
    cases heq
    cases href
    dsimp only at hsome
    split at hsome
    · next target symbol hlookup =>
      obtain ⟨target', htarget, rfl⟩ := Option.map_eq_some_iff.mp hsome
      exact ⟨i, _, hchild, hlookup, rfl, htarget⟩
    · cases hsome
  · cases href

section Parsed

variable {tokens : List Token} (hread : ∀ d ∈ u.declarations, d.node.ReadFrom tokens)
include hread

/-- A base type that is declared in the file is named in the base list. -/
theorem names_of_mem_sourceBases {t : TypeDecl Node} {b : SourceBase} (hd : d ∈ u.declarations)
    (ht : d.node = .typeDecl t)
    (h : b ∈ sourceBases (bindTypes u (some (symbolIndex u)) external) (symbolIndex u) d) :
    b.ref ∈ t.baseTypes ∧ ∃ name, u.StandsFor b.ref name ∧ (symbolIndex u).Names name b.target := by
  obtain ⟨i, binding, hchild, hlookup, hkind, htarget⟩ := exists_of_mem_sourceBases h
  obtain ⟨ref, imports, params, hat, hknows, rfl⟩ := exists_of_lookup_bindTypes hlookup
  -- the bound reference is the one in the base list, since it stands at the same place
  rw [Node.at?, at?_of_mem_declarations hd, Option.bind_some, hchild] at hat
  obtain rfl : b.ref = ref := Node.type.inj (Option.some.inj hat)
  obtain ⟨name, s, hname, hresolve, hsymbol⟩ := exists_resolveType_of_source hknows hkind
  have hnames := SymbolIndex.names_of_resolveType hresolve
  rw [hsymbol, (SymbolIndex.numbered_symbolIndex u).symbol?_eq hnames.mem] at htarget
  obtain rfl := Option.some.inj htarget
  refine ⟨?_, name, hname, hnames⟩
  have hmem := List.mem_of_getElem? hchild
  obtain ⟨hmembers, henum, -⟩ : (Node.typeDecl t).ReadFrom tokens := ht ▸ hread d hd
  rw [ht] at hmem
  simp only [Node.children, List.mem_append, List.mem_map, or_assoc] at hmem
  rcases hmem with ⟨_, -, h⟩ | ⟨_, -, h⟩ | ⟨_, -, h⟩ | ⟨base, hbase, h⟩ | ⟨_, -, h⟩ | h | h
  case inr.inr.inr.inl => exact Node.type.inj h ▸ hbase
  case inr.inr.inr.inr.inr.inl => exact absurd (henum _ h) Bool.false_ne_true
  case inr.inr.inr.inr.inr.inr => exact absurd (hmembers _ h) Bool.false_ne_true
  all_goals cases h

end Parsed

/-! ### The graph of a file -/

/-- A graph holds some types and their base types, and nothing else. -/
structure Shows (g : InheritanceGraph) (ts : List TypeBases) : Prop where
  inherits : ∀ {a b}, g.Inherits a b →
    ∃ t ∈ ts, ∃ base ∈ t.bases, a = t.symbol.id ∧ b = base.target.id
  types : ∀ p ∈ g.types, ∃ t ∈ ts, p = (t.symbol.id, t.symbol.name)
  listed : ∀ t ∈ ts, ∃ name, (t.symbol.id, name) ∈ g.types

theorem mem_types_addType {g : InheritanceGraph} {id : Nat} {name : String} {p : Nat × String}
    (hp : p ∈ (g.addType id name).types) : p ∈ g.types ∨ p = (id, name) := by
  unfold InheritanceGraph.addType at hp
  split at hp
  · exact .inl hp
  · exact (List.mem_append.mp hp).imp_right List.mem_singleton.mp

theorem subset_types_addType (g : InheritanceGraph) (id : Nat) (name : String) :
    g.types ⊆ (g.addType id name).types := by
  unfold InheritanceGraph.addType
  split
  · exact List.Subset.refl _
  · exact List.subset_append_left _ _

/-- A type that is added stands in the graph, if not under this name, then under a former one. -/
theorem exists_mem_types_addType (g : InheritanceGraph) (id : Nat) (name : String) :
    ∃ known, (id, known) ∈ (g.addType id name).types := by
  unfold InheritanceGraph.addType
  split
  · next hany =>
    obtain ⟨⟨id', known⟩, hmem, hid⟩ := List.any_eq_true.mp hany
    obtain rfl : id' = id := by simpa using hid
    exact ⟨known, hmem⟩
  · exact ⟨name, List.mem_append_right _ (List.mem_singleton.mpr rfl)⟩

/-- One more type keeps the graph in step. -/
theorem Shows.add {g : InheritanceGraph} {ts : List TypeBases} (h : Shows g ts) (t : TypeBases) :
    Shows { g.addType t.symbol.id t.symbol.name with
      edges := g.edges ++ t.bases.map fun b => (t.symbol.id, b.target.id) } (ts ++ [t]) where
  inherits hab := by
    rcases List.mem_append.mp hab with hab | hab
    · obtain ⟨t', ht', h⟩ := h.inherits hab
      exact ⟨t', List.mem_append_left _ ht', h⟩
    · obtain ⟨base, hbase, heq⟩ := List.mem_map.mp hab
      obtain ⟨rfl, rfl⟩ := Prod.mk.inj heq
      exact ⟨t, List.mem_append_right _ (List.mem_singleton.mpr rfl), base, hbase, rfl, rfl⟩
  types p hp := by
    rcases mem_types_addType hp with hp | rfl
    · obtain ⟨t', ht', h⟩ := h.types p hp
      exact ⟨t', List.mem_append_left _ ht', h⟩
    · exact ⟨t, List.mem_append_right _ (List.mem_singleton.mpr rfl), rfl⟩
  listed t' ht' := by
    rcases List.mem_append.mp ht' with ht' | ht'
    · obtain ⟨name, hname⟩ := h.listed t' ht'
      exact ⟨name, subset_types_addType g _ _ hname⟩
    · obtain rfl := List.mem_singleton.mp ht'
      exact exists_mem_types_addType g _ _

/-- The graph of a file shows its types. -/
theorem shows_inheritanceGraph (ts : List TypeBases) : Shows (inheritanceGraph ts) ts := by
  induction ts using List.reverseRecOn with
  | nil => exact ⟨nofun, nofun, nofun⟩
  | append_singleton ts t ih =>
    rw [inheritanceGraph, List.foldl_append]
    exact ih.add t

section Cycles

variable {tokens : List Token} (hread : ∀ d ∈ u.declarations, d.node.ReadFrom tokens)

/-- The types of the graph are those that are declared. -/
theorem mem_typeBases {bindings : BindingIndex} {index : SymbolIndex} {t : TypeBases}
    (h : t ∈ typeBases u bindings index) : ∃ d ∈ u.declarations, d.node = .typeDecl t.type ∧
      index.ofDecl? d.address = some t.symbol ∧ t.bases = sourceBases bindings index d := by
  obtain ⟨d, hd, hsome⟩ := List.mem_filterMap.mp h
  split at hsome
  · next type htype =>
    obtain ⟨source, hsource, rfl⟩ := Option.map_eq_some_iff.mp hsome
    exact ⟨d, hd, htype, hsource, rfl⟩
  · cases hsome

theorem mem_of_ofDecl? {index : SymbolIndex} {address : Address} {s : Symbol}
    (h : index.ofDecl? address = some s) : s ∈ index.symbols := by
  rw [SymbolIndex.ofDecl?_eq] at h
  exact (List.mem_filter.mp (List.mem_of_getLast? h)).1

/-- The graph of a file, with numbers for the symbols. -/
abbrev graphOf (u : CompilationUnit Node) (external : Option ExternalSymbols) : InheritanceGraph :=
  inheritanceGraph (typeBases u (bindTypes u (some (symbolIndex u)) external) (symbolIndex u))

/-- The symbol of a file with a number. -/
def symbolAt (u : CompilationUnit Node) (id : Nat) : Symbol :=
  ((symbolIndex u).symbol? id).getD default

/-- A symbol stands at its number. -/
theorem symbolAt_id {s : Symbol} (h : s ∈ (symbolIndex u).symbols) : symbolAt u s.id = s := by
  rw [symbolAt, (SymbolIndex.numbered_symbolIndex u).symbol?_eq h, Option.getD_some]

include hread in
/-- Each step of the graph goes back to a base list. -/
theorem inheritsByName_of_inherits {a b : Nat} (h : (graphOf u external).Inherits a b) :
    u.InheritsByName (symbolAt u a) (symbolAt u b) := by
  obtain ⟨t, ht, base, hbase, rfl, rfl⟩ := (shows_inheritanceGraph _).inherits h
  obtain ⟨d, hd, htype, hsource, hbases⟩ := mem_typeBases ht
  obtain ⟨hmem, name, hname, hnames⟩ := names_of_mem_sourceBases hread hd htype (hbases ▸ hbase)
  rw [symbolAt_id (mem_of_ofDecl? hsource), symbolAt_id hnames.mem]
  exact ⟨d, hd, t.type, base.ref, name, htype, hsource, hmem, hname, hnames⟩

/-- A type that inherits goes by the name of its symbol. -/
theorem lookup_types_of_inherits {a b : Nat} (h : (graphOf u external).Inherits a b) :
    (graphOf u external).types.lookup a = some (symbolAt u a).name := by
  have hshows := shows_inheritanceGraph
    (typeBases u (bindTypes u (some (symbolIndex u)) external) (symbolIndex u))
  obtain ⟨t, ht, -, -, rfl, -⟩ := hshows.inherits h
  obtain ⟨name, hname⟩ := hshows.listed t ht
  obtain ⟨name', hlookup⟩ : ∃ name', (graphOf u external).types.lookup t.symbol.id = some name' :=
    Option.isSome_iff_exists.mp (List.lookup_isSome_iff.mpr ⟨_, hname, beq_self_eq_true _⟩)
  obtain ⟨l, r, hsplit, -⟩ := List.lookup_eq_some_iff.mp hlookup
  have hmem : (t.symbol.id, name') ∈ (graphOf u external).types := by simp [hsplit]
  obtain ⟨t', ht', heq⟩ := hshows.types _ hmem
  obtain ⟨hid, rfl⟩ := Prod.mk.inj heq
  obtain ⟨_, -, -, hsource', -⟩ := mem_typeBases ht'
  rw [hlookup, hid, symbolAt_id (mem_of_ofDecl? hsource')]

/-- A wrong base is no cycle. -/
theorem emits_wrongBase (s : Session) (t : TypeDecl Node) (b : SourceBase) :
    Emits [.interfaceFromClass, .structInherits, .classFromInterface] (wrongBase s t b) := by
  unfold wrongBase
  cases t.kind <;> simp

include hread in
/-- Each reported circle is a chain of types that name each other in their base lists. -/
theorem exists_cycle_of_mem_inheritance {s : Session} {f : Diagnostic}
    (hsymbols : s.artifacts.symbols = some (symbolIndex u))
    (hbindings : s.artifacts.bindings = some (bindTypes u (some (symbolIndex u)) external))
    (hf : f ∈ inheritance u s) (hcode : f.code = .circularType) :
    ∃ start between, List.IsChain u.InheritsByName (start :: (between ++ [start])) ∧
      f.message = "Circular inheritance: " ++
        " -> ".intercalate ((start :: (between ++ [start])).map (·.name)) := by
  rw [inheritance, hbindings, hsymbols] at hf
  rcases List.mem_append.mp hf with hf | hf
  · obtain ⟨t, -, hf⟩ := List.mem_flatMap.mp hf
    obtain ⟨b, -, hf⟩ := List.mem_flatMap.mp hf
    exact absurd (hcode ▸ emits_wrongBase s t.type b f hf) (by decide)
  · obtain ⟨cycle, hmem, rfl⟩ := List.mem_map.mp hf
    have hcycle := InheritanceGraph.isCycle_of_mem_cycles hmem
    -- Types on a cycle inherit from each other, so all of them have a symbol with a name.
    have hnames : (graphOf u external).describe cycle =
        " -> ".intercalate ((cycle.map (symbolAt u)).map (·.name)) := by
      rw [InheritanceGraph.describe, List.map_map]
      refine congrArg _ (List.map_congr_left fun id hid => ?_)
      obtain ⟨b, hb⟩ := hcycle.inherits_of_mem hid
      rw [lookup_types_of_inherits hb]
      rfl
    have hchain : (cycle.map (symbolAt u)).IsChain u.InheritsByName :=
      (List.isChain_map _).mpr (hcycle.chain.imp fun _ _ => inheritsByName_of_inherits hread)
    obtain ⟨start, between, rfl⟩ := hcycle.closed
    rw [List.map_cons, List.map_append] at hchain hnames
    exact ⟨_, _, hchain, congrArg ("Circular inheritance: " ++ ·) hnames⟩

end Cycles

end Rules

/-! ### Findings in a report -/

/-- The symbols that a session holds are those of a file, and its bindings were made with them. -/
structure Session.Bound (u : CompilationUnit Node) (s : Session) : Prop where
  symbols : ∀ i, s.artifacts.symbols = some i → i = symbolIndex u
  bindings : ∀ b, s.artifacts.bindings = some b →
    ∃ external, b = bindTypes u s.artifacts.symbols external

section Report

variable {u : CompilationUnit Node} {s : Session} {e : Entry}

/-- Behind the pass that collects the symbols, no entry makes a session hold others. -/
theorem Session.Bound.advance (h : s.Bound u) (he : e ∈ Entry.all)
    (hne : e ≠ Passes.indexing) : (e.advance u s).Bound u := by
  by_cases hbinding : e = Passes.binding
  · subst hbinding
    exact ⟨h.symbols, fun b hb => ⟨_, (Option.some.inj hb).symm⟩⟩
  · have hframe := (Entry.confined_of_mem e he).frame u s
    have hsymbols : (e.advance u s).artifacts.symbols = s.artifacts.symbols :=
      hframe.artifacts .symbols fun hwritten => hne (Entry.eq_of_mem_writes he
        (by simp [Entry.all]) hwritten (List.mem_singleton.mpr rfl))
    have hbindings : (e.advance u s).artifacts.bindings = s.artifacts.bindings :=
      hframe.artifacts .bindings fun hwritten => hbinding (Entry.eq_of_mem_writes he
        (by simp [Entry.all]) hwritten (List.mem_singleton.mpr rfl))
    exact ⟨fun i hi => h.symbols i (hsymbols ▸ hi),
      fun b hb => hsymbols ▸ h.bindings b (hbindings ▸ hb)⟩

/-- Later entries leave the bindings as they are. -/
theorem Session.Bound.foldl {es : List Entry} (h : s.Bound u)
    (hes : ∀ e ∈ es, e ∈ Entry.all ∧ e ≠ Passes.indexing) :
    (es.foldl (Entry.advance u) s).Bound u := by
  induction es generalizing s with
  | nil => exact h
  | cons e es ih =>
    obtain ⟨⟨he, hne⟩, hes⟩ := List.forall_mem_cons.mp hes
    exact ih (h.advance he hne) hes

variable (u) in
/-- The session that the pass on base types runs in. -/
def Session.beforeTypes (s : Session) : Session :=
  ((Entry.all.take 10).filter (Entry.isEnabled s.settings)).foldl (Entry.advance u) s

/-- The pass on base types sees the symbols of the file, and bindings made with these. -/
theorem Session.bound_beforeTypes (hsymbols : s.artifacts.symbols = none)
    (hbindings : s.artifacts.bindings = none) : (s.beforeTypes u).Bound u := by
  have hstart : s.Bound u := ⟨by simp [hsymbols], by simp [hbindings]⟩
  have hrest : ∀ e ∈ ((Entry.all.take 10).drop 1).filter (Entry.isEnabled s.settings),
      e ∈ Entry.all ∧ e ≠ Passes.indexing := by
    intro e he
    have hmem := List.mem_of_mem_filter he
    have hids : ∀ e ∈ (Entry.all.take 10).drop 1, e.id ≠ Passes.indexing.id := by decide
    exact ⟨List.mem_of_mem_take (List.mem_of_mem_drop hmem),
      fun heq => hids e hmem (congrArg Entry.id heq)⟩
  rw [beforeTypes, show Entry.all.take 10 = Passes.indexing :: (Entry.all.take 10).drop 1 from rfl,
    List.filter_cons]
  split
  · refine Session.Bound.foldl (s := Passes.indexing.advance u s) ⟨?_, ?_⟩ hrest
    · exact fun i hi => (Option.some.inj hi).symm
    · intro b hb
      rw [show (Passes.indexing.advance u s).artifacts.bindings = s.artifacts.bindings from rfl,
        hbindings] at hb
      cases hb
  · exact hstart.foldl hrest

/-- What the entry emits is the rule, run on the session in front of it. -/
theorem Session.emitted_types (s : Session) : s.emitted u Passes.types =
    if Entry.isEnabled s.settings Passes.types then Rules.inheritance u (s.beforeTypes u)
    else [] := by
  have hall : Entry.all = Entry.all.take 10 ++ Passes.types :: Entry.all.drop 11 := rfl
  rw [emitted_eq_findings hall]
  exact if_congr Iff.rfl List.drop_left rfl

/-- In the report of a parsed file, each step of a circle of base types is an entry of a base list
that names the next type: by its full name or, where no type of the file has the name that is
written, by the last segment. -/
theorem circular_types_named {settings : Settings} {assemblies : AssemblyTypes}
    {document : Document} {d : Diagnostic} (hparse : parse document.source = .ok u)
    (hanalyze : analyze settings assemblies document = .ok s) (hd : d ∈ s.toReport.diagnostics)
    (hcode : d.code = .circularType) :
    ∃ start between, List.IsChain u.InheritsByName (start :: (between ++ [start])) ∧
      d.message = "Circular inheritance: " ++
        " -> ".intercalate ((start :: (between ++ [start])).map (·.name)) := by
  have hmem : Passes.types ∈ Entry.all := by simp [Entry.all]
  have hcodes : d.content.1 ∈ Passes.types.codes := by
    rw [show d.content.1 = .circularType from hcode]
    decide
  -- Other passes emit other codes, so the finding comes from the pass on types.
  have hemitted := content_mem_emitted_of_report hparse hanalyze hmem hcodes (List.mem_map_of_mem hd)
  obtain ⟨f, hf, hsame⟩ := List.mem_map.mp hemitted
  obtain ⟨hfcode, -, hmessage⟩ : f.code = d.code ∧ f.location = d.location ∧
      f.message = d.message := by simpa [Diagnostic.content] using hsame
  rw [Session.emitted_types] at hf
  split at hf
  case isFalse => cases hf
  have hbound := Session.bound_beforeTypes (u := u) (s := { document, settings, assemblies }) rfl rfl
  -- Only what the pass finds in the artifacts counts from here on.
  generalize Session.beforeTypes u _ = t at hf hbound
  obtain ⟨tokens, -, -, hread⟩ := readFrom_of_parse hparse
  cases hbindings : t.artifacts.bindings with
  | none => simp [Rules.inheritance, hbindings] at hf
  | some bindings =>
    cases hsymbols : t.artifacts.symbols with
    | none => simp [Rules.inheritance, hbindings, hsymbols] at hf
    | some index =>
      obtain rfl := hbound.symbols index hsymbols
      obtain ⟨external, rfl⟩ := hbound.bindings bindings hbindings
      rw [hsymbols] at hbindings
      obtain ⟨start, between, hchain, hf⟩ := Rules.exists_cycle_of_mem_inheritance hread hsymbols
        hbindings hf (hfcode.trans hcode)
      exact ⟨start, between, hchain, hmessage ▸ hf⟩

/-- The inheritance graph of a text, as its types and its edges. -/
def graphOfText (text : List UInt8) : Option (List (Nat × String) × List (Nat × Nat)) :=
  (parse text).toOption.bind fun u =>
    let s := Session.beforeTypes u { document := ⟨"A.cs", text⟩ }
    match s.artifacts.bindings, s.artifacts.symbols with
    | some bindings, some index =>
      let g := Rules.inheritanceGraph (Rules.typeBases u bindings index)
      some (g.types, g.edges)
    | _, _ => none

/-- A circle in the graph of a text is reported. -/
theorem exists_of_graphOfText {text : List UInt8} {types : List (Nat × String)}
    {edges : List (Nat × Nat)} (h : graphOfText text = some (types, edges))
    (hcycles : (InheritanceGraph.mk types edges).cycles ≠ []) :
    ∃ u s d, parse text = .ok u ∧ analyze {} (fun _ => none) ⟨"A.cs", text⟩ = .ok s ∧
      d ∈ s.toReport.diagnostics ∧ d.code = .circularType := by
  cases hparse : parse text with
  | error e =>
    rw [graphOfText, hparse] at h
    cases h
  | ok u =>
    have hanalyze := analyze_of_parse {} (fun _ => none) ⟨"A.cs", text⟩ hparse
    rw [graphOfText, hparse] at h
    dsimp only [Except.toOption, Option.bind_some] at h
    split at h
    case h_2 => cases h
    next bindings index hbindings hsymbols =>
      obtain ⟨rfl, rfl⟩ := Prod.mk.inj (Option.some.inj h)
      obtain ⟨cycle, hcycle⟩ := List.exists_mem_of_ne_nil _ hcycles
      obtain ⟨f, hf, hcode⟩ : ∃ f ∈ Session.emitted u { document := ⟨"A.cs", text⟩ } Passes.types,
          f.code = .circularType := by
        have henabled : Entry.isEnabled {} Passes.types = true := rfl
        rw [Session.emitted_types, if_pos henabled, Rules.inheritance, hbindings, hsymbols]
        exact ⟨_, List.mem_append_right _ (List.mem_map_of_mem hcycle), rfl⟩
      -- Nothing switches this code off, so what is emitted for it gets into the report.
      have hcodes : f.content.1 ∈ Passes.types.codes := by
        rw [show f.content.1 = .circularType from hcode]
        decide
      have hon : ({} : Settings).severity? f.content.1 ≠ some .off := by
        rw [show f.content.1 = .circularType from hcode]
        decide
      obtain ⟨d, hd, hsame⟩ := List.mem_map.mp (content_mem_report_of_emitted hparse hanalyze
        (by simp [Entry.all]) hcodes hon (List.mem_map_of_mem hf))
      exact ⟨u, _, d, rfl, hanalyze, hd, (congrArg Prod.fst hsame).trans hcode⟩

/-- Two classes that name each other as their base class. -/
def mutualText : List UInt8 :=
  "class A : B \x7b\x7d class B : A \x7b\x7d".toList.map Lexer.ascii

theorem graph_mutualText :
    graphOfText mutualText = some ([(0, "A"), (1, "B")], [(0, 1), (1, 0)]) := by
  rw [show mutualText = _ from Lexer.ascii_ofList _]
  decide +kernel

/-- Of two classes that inherit from each other, each names the other one. -/
theorem mutual_bases_named : ∃ u s d, parse mutualText = .ok u ∧
    analyze {} (fun _ => none) ⟨"A.cs", mutualText⟩ = .ok s ∧ d ∈ s.toReport.diagnostics ∧
      d.code = .circularType ∧
        ∃ start between, List.IsChain u.InheritsByName (start :: (between ++ [start])) ∧
          d.message = "Circular inheritance: " ++
            " -> ".intercalate ((start :: (between ++ [start])).map (·.name)) := by
  obtain ⟨u, s, d, hparse, hanalyze, hd, hcode⟩ := exists_of_graphOfText graph_mutualText <| by
    simp [InheritanceGraph.cycles, InheritanceGraph.search, InheritanceGraph.searchBases,
      InheritanceGraph.bases, InheritanceGraph.closeAt]
  exact ⟨u, s, d, hparse, hanalyze, hd, hcode, circular_types_named hparse hanalyze hd hcode⟩

/-- Whether an entry of a base list is the full name of a type or a dotted end of it, with as many
type arguments as the type has parameters. -/
def Rules.writesInFull (base : TypeRef) (target : Symbol) (t : TypeDecl Node) : Bool :=
  (base.name == target.fullName || ("." ++ base.name).toList.isSuffixOf target.fullName.toList) &&
    base.args.length == t.typeParams.length

/-- An entry of the base list of one type of a file names another one in full. -/
def CompilationUnit.InheritsInFull (u : CompilationUnit Node) (source target : Symbol) : Prop :=
  ∃ d ∈ u.declarations, ∃ d' ∈ u.declarations, ∃ t t' base, d.node = .typeDecl t ∧
    d'.node = .typeDecl t' ∧ (symbolIndex u).ofDecl? d.address = some source ∧
      (symbolIndex u).ofDecl? d'.address = some target ∧ base ∈ t.baseTypes ∧
        Rules.writesInFull base target t' = true

/-- Whether no entry of a base list names a type of the file in full. -/
def CompilationUnit.basesApart (u : CompilationUnit Node) : Bool :=
  u.declarations.all fun d => u.declarations.all fun d' =>
    match d.node, d'.node, (symbolIndex u).ofDecl? d'.address with
    | .typeDecl t, .typeDecl t', some target =>
      t.baseTypes.all fun base => !Rules.writesInFull base target t'
    | _, _, _ => true

/-- Two classes whose base classes have their simple names, but not their full name or not their
number of type parameters. -/
def namesakeBasesText : List UInt8 :=
  "class Exception : System.Exception \x7b\x7d class Result : Result<int> \x7b\x7d".toList.map
    Lexer.ascii

theorem graph_namesakeBasesText : graphOfText namesakeBasesText =
    some ([(0, "Exception"), (1, "Result")], [(0, 0), (1, 1)]) := by
  rw [show namesakeBasesText = _ from Lexer.ascii_ofList _]
  decide +kernel

/-- Namesakes in other namespaces and of another arity make a circle, though no step of it is
written in full. -/
theorem namesakes_circular : ∃ u s d, parse namesakeBasesText = .ok u ∧
    analyze {} (fun _ => none) ⟨"A.cs", namesakeBasesText⟩ = .ok s ∧ d ∈ s.toReport.diagnostics ∧
      d.code = .circularType ∧
        ¬∃ start between, List.IsChain u.InheritsInFull (start :: (between ++ [start])) := by
  obtain ⟨u, s, d, hparse, hanalyze, hd, hcode⟩ := exists_of_graphOfText graph_namesakeBasesText <| by
    simp [InheritanceGraph.cycles, InheritanceGraph.search, InheritanceGraph.searchBases,
      InheritanceGraph.bases, InheritanceGraph.closeAt]
  refine ⟨u, s, d, hparse, hanalyze, hd, hcode, ?_⟩
  have happart : (parse namesakeBasesText).toOption.any (·.basesApart) = true := by
    rw [show namesakeBasesText = _ from Lexer.ascii_ofList _]
    decide +kernel
  rw [hparse] at happart
  rintro ⟨start, between, hchain⟩
  obtain ⟨target, d, hd, d', hd', t, t', base, ht, ht', -, htarget, hbase, hwrites⟩ :=
    InheritanceGraph.exists_of_isChain_append (l := start :: between) hchain (List.cons_ne_nil _ _)
      start List.mem_cons_self
  have hnot := List.all_eq_true.mp (List.all_eq_true.mp happart d hd) d' hd'
  simp only [ht, ht', htarget] at hnot
  have := List.all_eq_true.mp hnot base hbase
  rw [hwrites] at this
  cases this

end Report

end CSharpAudit
