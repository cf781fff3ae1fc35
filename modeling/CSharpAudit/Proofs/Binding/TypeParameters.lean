import CSharpAudit.Binding.Resolve
import CSharpAudit.Proofs.Coverage
import CSharpAudit.Proofs.Cursors
import CSharpAudit.Proofs.Walk

/-!
# Type parameters in scope

The binder goes over a file node by node. It binds each type reference with what it knows there: the
imports that have gathered on the walk so far, and the type parameters of the declarations around
the reference. So the binding of a reference is given by the part of the walk in front of it and by
the nodes above it, and a reference is bound as a type parameter where a declaration above it has
one of that name and the name means nothing else.

What stands around a node is handed down to it here. A binder that is told of each node when it is
entered and when it is left keeps it on a stack: one frame for each node it is inside of, with the
type parameters that the node declares. The frames say the same, and none is left at the end.

## Main definitions

* `Imports.behind`, `Imports.along` — what is imported behind nodes of the walk
* `Node.DeclaresTypeParam` — a declaration has a type parameter
* `Binder.visit` — a binder that keeps a frame for each node it is inside of

## Main results

* `lookup_bindTypes_eq_some_iff` — the binding of a reference, from the walk in front of it
* `isSome_lookup_bindTypes_iff` — all type references are bound, and nothing else
* `typeParameters_bound_in_scope` — which references are bound as type parameters
-/

namespace CSharpAudit

/-! ### The binding of a reference -/

/-- What is imported behind a node of the walk. -/
def Imports.behind (i : Imports) : Node → Imports
  | .namespaceDecl d => if d.fileScoped then i else i.addNamespace d
  | _ => i

/-- What is imported behind some nodes of the walk. -/
def Imports.along (i : Imports) (ns : List Node) : Imports := ns.foldl Imports.behind i

theorem Imports.along_cons (i : Imports) (n : Node) (ns : List Node) :
    i.along (n :: ns) = (i.behind n).along ns := rfl

theorem Imports.along_append (i : Imports) (ns ms : List Node) :
    i.along (ns ++ ms) = (i.along ns).along ms := List.foldl_append

namespace Binder

variable (index : Option SymbolIndex) (external : Option ExternalSymbols)

/-- The type parameters that a node hands down. -/
def inScope (v : Visit (List String)) : List String := v.node.typeParamNames ++ v.inherited

/-- The walk of the binder. -/
def walk (u : CompilationUnit Node) : List (Visit (List String)) :=
  (Node.unit u).visits (fun v => some (inScope v)) []

/-- The walk comes to each node of a file. -/
theorem exists_mem_walk_iff {u : CompilationUnit Node} {a : Address} {n : Node} :
    (∃ v ∈ walk u, v.address = a ∧ v.node = n) ↔ (Node.unit u).at? a = some n :=
  Node.exists_mem_visits_iff

/-- The binding that is made at a node of the walk. -/
def bound? (i : Imports) (v : Visit (List String)) : Option BoundRef :=
  match v.node with
  | .type t => some ⟨v.address, t, resolveRef index external i v.inherited t⟩
  | _ => none

/-- The bindings that are made on a part of a walk. -/
def boundRefs : Imports → List (Visit (List String)) → List BoundRef
  | _, [] => []
  | i, v :: vs => (bound? index external i v).toList ++ boundRefs (i.behind v.node) vs

variable {index external}

theorem step_eq (s : State) (v : Visit (List String)) : step index external s v =
    ⟨s.imports.behind v.node, (bound? index external s.imports v).toList ++ s.refs⟩ := by
  obtain ⟨address, params, n⟩ := v
  cases n with
  | namespaceDecl d =>
    simp only [step, bound?, Imports.behind]
    cases d.fileScoped <;> rfl
  | _ => rfl

theorem foldl_step (vs : List (Visit (List String))) (s : State) :
    vs.foldl (step index external) s =
      ⟨s.imports.along (vs.map (·.node)),
        (boundRefs index external s.imports vs).reverse ++ s.refs⟩ := by
  induction vs generalizing s with
  | nil => rfl
  | cons v vs ih =>
    rw [List.foldl_cons, ih, step_eq, boundRefs, List.map_cons, Imports.along_cons]
    cases bound? index external s.imports v <;> simp

/-- A binding is made at one place of the walk, with what is imported in front of it. -/
theorem mem_boundRefs_iff {i : Imports} {vs : List (Visit (List String))} {r : BoundRef} :
    r ∈ boundRefs index external i vs ↔
    ∃ (front : List (Visit (List String))) (v : Visit (List String)) (back : _),
      vs = front ++ v :: back ∧
      bound? index external (i.along (front.map (·.node))) v = some r := by
  induction vs generalizing i with
  | nil => simp [boundRefs]
  | cons w vs ih =>
    rw [boundRefs, List.mem_append, Option.mem_toList, ih]
    constructor
    · rintro (h | ⟨front, v, back, rfl, h⟩)
      · exact ⟨[], w, vs, rfl, h⟩
      · exact ⟨w :: front, v, back, rfl, h⟩
    · rintro ⟨front, v, back, hsplit, h⟩
      rcases List.cons_eq_append_iff.mp hsplit with ⟨rfl, hcons⟩ | ⟨front, rfl, rfl⟩
      · obtain ⟨rfl, rfl⟩ := List.cons.inj hcons
        exact .inl h
      · exact .inr ⟨front, v, back, rfl, h⟩

theorem bound?_eq_some_iff {i : Imports} {v : Visit (List String)} {r : BoundRef} :
    bound? index external i v = some r ↔ ∃ t, v.node = .type t ∧
      r = ⟨v.address, t, resolveRef index external i v.inherited t⟩ := by
  obtain ⟨address, params, n⟩ := v
  cases n with
  | type t => simp [bound?, eq_comm]
  | _ => simp [bound?]

theorem address_of_bound? {i : Imports} {v : Visit (List String)} {r : BoundRef}
    (h : bound? index external i v = some r) : v.address = r.address := by
  obtain ⟨t, -, rfl⟩ := bound?_eq_some_iff.mp h
  rfl

end Binder

section Lookup

variable {u : CompilationUnit Node} {index : Option SymbolIndex}
  {external : Option ExternalSymbols} {a : Address} {b : Binding}

theorem refs_bindTypes : (bindTypes u index external).refs =
    Binder.boundRefs index external (.ofUnit u) (Binder.walk u) := by
  change ((Binder.walk u).foldl (Binder.step index external) { imports := .ofUnit u }).refs.reverse = _
  rw [Binder.foldl_step, List.append_nil, List.reverse_reverse]

/-- No two bindings are made at one place. -/
theorem eq_of_mem_refs_bindTypes {r r' : BoundRef} (h : r ∈ (bindTypes u index external).refs)
    (h' : r' ∈ (bindTypes u index external).refs) (haddress : r.address = r'.address) :
    r = r' := by
  rw [refs_bindTypes, Binder.mem_boundRefs_iff] at h h'
  obtain ⟨front, v, back, hsplit, hbound⟩ := h
  obtain ⟨front', v', back', hsplit', hbound'⟩ := h'
  have hv : v.address = r.address := Binder.address_of_bound? hbound
  have hv' : v'.address = r'.address := Binder.address_of_bound? hbound'
  obtain ⟨rfl, rfl, -⟩ := Node.eq_of_visits_eq hsplit hsplit' (hv.trans (haddress.trans hv'.symm))
  exact Option.some.inj (hbound.symm.trans hbound')

/-- A reference is bound with what is imported in front of it and with the type parameters that are
handed down to it. -/
theorem lookup_bindTypes_eq_some_iff : (bindTypes u index external).lookup a = some b ↔
    ∃ (front : List (Visit (List String))) (v : Visit (List String)) (back : _) (t : TypeRef),
      Binder.walk u = front ++ v :: back ∧ v.address = a ∧ v.node = .type t ∧
      b = resolveRef index external ((Imports.ofUnit u).along (front.map (·.node)))
        v.inherited t := by
  have hmem (r : BoundRef) : r ∈ (bindTypes u index external).refs ↔
      ∃ (front : List (Visit (List String))) (v : Visit (List String)) (back : _) (t : TypeRef),
        Binder.walk u = front ++ v :: back ∧ v.node = .type t ∧
        r = ⟨v.address, t, resolveRef index external
          ((Imports.ofUnit u).along (front.map (·.node))) v.inherited t⟩ := by
    simp only [refs_bindTypes, Binder.mem_boundRefs_iff, Binder.bound?_eq_some_iff,
      exists_and_left]
  rw [BindingIndex.lookup]
  constructor
  · intro h
    obtain ⟨r, hfind, rfl⟩ := Option.map_eq_some_iff.mp h
    obtain ⟨front, v, back, t, hsplit, ht, rfl⟩ := (hmem r).mp (List.mem_of_find?_eq_some hfind)
    have haddress : (v.address == a) = true := by simpa using List.find?_some hfind
    exact ⟨front, v, back, t, hsplit, eq_of_beq haddress, ht, rfl⟩
  · rintro ⟨front, v, back, t, hsplit, rfl, ht, rfl⟩
    -- the search may stop at another entry only if that is made at the same place
    have hr := (hmem _).mpr ⟨front, v, back, t, hsplit, ht, rfl⟩
    cases hfind : (bindTypes u index external).refs.find? (·.address == v.address) with
    | none => exact absurd (beq_self_eq_true v.address) (List.find?_eq_none.mp hfind _ hr)
    | some r =>
      have haddress : (r.address == v.address) = true := by simpa using List.find?_some hfind
      rw [eq_of_mem_refs_bindTypes (List.mem_of_find?_eq_some hfind) hr (eq_of_beq haddress)]
      rfl

/-- Each type reference of a file is bound, and nothing else. -/
theorem isSome_lookup_bindTypes_iff : ((bindTypes u index external).lookup a).isSome ↔
    ∃ t, (Node.unit u).at? a = some (.type t) := by
  rw [Option.isSome_iff_exists]
  constructor
  · rintro ⟨b, hb⟩
    obtain ⟨front, v, back, t, hsplit, rfl, ht, -⟩ := lookup_bindTypes_eq_some_iff.mp hb
    have hv : v ∈ Binder.walk u := by simp [hsplit]
    exact ⟨t, ht ▸ (Node.visited_of_mem_visits hv).at?_eq⟩
  · rintro ⟨t, hat⟩
    obtain ⟨v, hv, rfl, ht⟩ := Binder.exists_mem_walk_iff.mpr hat
    obtain ⟨front, back, hsplit⟩ := List.append_of_mem hv
    exact ⟨_, lookup_bindTypes_eq_some_iff.mpr ⟨front, v, back, t, hsplit, rfl, ht, rfl⟩⟩

end Lookup

/-! ### What is declared around a reference -/

namespace Node

/-- A type, method, local function or delegate has a type parameter. -/
inductive DeclaresTypeParam : Node → TypeParam → Prop
  | typeDecl {d : TypeDecl Node} {p : TypeParam} (h : p ∈ d.typeParams) :
      DeclaresTypeParam (.typeDecl d) p
  | method {d : Method Node} {p : TypeParam} (h : p ∈ d.typeParams) :
      DeclaresTypeParam (.method d) p
  | localFunc {span : Span} {d : Method Node} {p : TypeParam} (h : p ∈ d.typeParams) :
      DeclaresTypeParam (.localFunc span d) p
  | delegate {d : Delegate Node} {p : TypeParam} (h : p ∈ d.typeParams) :
      DeclaresTypeParam (.delegate d) p

/-- A node stands above an address. -/
def Above (root : Node) (a : Address) (n : Node) : Prop :=
  ∃ b, b <:+ a ∧ b ≠ a ∧ root.at? b = some n

variable {root n m : Node} {a b : Address} {name : String}

/-- There is a node at every address above a node. -/
theorem exists_at?_of_suffix (h : b <:+ a) (hat : root.at? a = some n) :
    ∃ m, root.at? b = some m := by
  induction a generalizing n with
  | nil => exact ⟨n, List.suffix_nil.mp h ▸ hat⟩
  | cons i a ih =>
    rcases List.suffix_cons_iff.mp h with rfl | h
    · exact ⟨n, hat⟩
    · obtain ⟨p, hp, -⟩ := Option.bind_eq_some_iff.mp hat
      exact ih h hp

theorem above_cons_iff {i : Nat} (hat : root.at? a = some m) :
    root.Above (i :: a) n ↔ n = m ∨ root.Above a n := by
  constructor
  · rintro ⟨b, hb, hne, hn⟩
    have hb : b <:+ a := (List.suffix_cons_iff.mp hb).resolve_left hne
    by_cases hba : b = a
    · subst hba
      exact .inl (Option.some.inj (hn.symm.trans hat))
    · exact .inr ⟨b, hb, hba, hn⟩
  · rintro (rfl | ⟨b, hb, -, hn⟩)
    · exact ⟨a, List.suffix_cons i a, List.ne_cons_self, hat⟩
    · refine ⟨b, hb.trans (List.suffix_cons i a), ?_, hn⟩
      rintro rfl
      exact absurd hb.length_le (by simp)

/-- Handed down are the type parameters of all nodes above. -/
theorem Visited.mem_inherited_iff {v : Visit (List String)}
    (h : Visited (fun v => some (Binder.inScope v)) ⟨[], [], root⟩ v) :
    name ∈ v.inherited ↔ ∃ n, root.Above v.address n ∧ name ∈ n.typeParamNames := by
  -- by induction on the way down from the root: each step adds the names of the node it leaves
  induction h with
  | root =>
    refine iff_of_false List.not_mem_nil ?_
    rintro ⟨n, ⟨b, hb, hne, -⟩, -⟩
    exact hne (List.suffix_nil.mp hb)
  | child hv henter hc ih =>
    obtain rfl := Option.some.inj henter
    simp only [Binder.inScope, List.mem_append, ih, above_cons_iff hv.at?_eq, or_and_right,
      exists_or, exists_eq_left]

/-- A local function has its type parameters on the method that stands below it. -/
theorem Above.method_of_localFunc {span : Span} {d : Method Node} {t : TypeRef}
    (hat : root.at? a = some (.type t)) (h : root.Above a (.localFunc span d)) :
    root.Above a (.method d) := by
  obtain ⟨b, ⟨l, rfl⟩, hne, hb⟩ := h
  -- the reference is further down, so the way to it goes on to a child of the local function, and
  -- the method is the only child
  have hl : l ≠ [] := by
    rintro rfl
    exact hne rfl
  obtain ⟨l, i, rfl⟩ := (List.eq_nil_or_concat l).resolve_left hl
  rw [List.concat_eq_append, List.append_assoc, List.singleton_append] at hat ⊢
  obtain ⟨m, hm⟩ := exists_at?_of_suffix (List.suffix_append l (i :: b)) hat
  obtain rfl : m = .method d := by
    rw [at?, hb, Option.bind_some, children] at hm
    cases i with
    | zero => exact (Option.some.inj hm).symm
    | succ i => cases hm
  refine ⟨i :: b, List.suffix_append l (i :: b), ?_, hm⟩
  intro heq
  rw [← heq, hm] at hat
  cases hat

theorem exists_above_typeParamNames_iff {t : TypeRef} (hat : root.at? a = some (.type t)) :
    (∃ n, root.Above a n ∧ name ∈ n.typeParamNames) ↔
      ∃ n p, root.Above a n ∧ n.DeclaresTypeParam p ∧ p.name = name := by
  constructor
  · rintro ⟨n, habove, hname⟩
    cases n with
    | typeDecl d =>
      obtain ⟨p, hp, rfl⟩ := List.mem_map.mp hname
      exact ⟨_, p, habove, .typeDecl hp, rfl⟩
    | method d =>
      obtain ⟨p, hp, rfl⟩ := List.mem_map.mp hname
      exact ⟨_, p, habove, .method hp, rfl⟩
    | delegate d =>
      obtain ⟨p, hp, rfl⟩ := List.mem_map.mp hname
      exact ⟨_, p, habove, .delegate hp, rfl⟩
    | _ => exact absurd hname List.not_mem_nil
  · rintro ⟨n, p, habove, hdeclares, rfl⟩
    cases hdeclares with
    | typeDecl hp | method hp | delegate hp => exact ⟨_, habove, List.mem_map_of_mem hp⟩
    | localFunc hp => exact ⟨_, habove.method_of_localFunc hat, List.mem_map_of_mem hp⟩

end Node

/-! ### References to type parameters -/

/-- Whether a written type is one of the language itself: a keyword type or a tuple. -/
def TypeRef.isBuiltin (t : TypeRef) : Bool := t.isTuple || (builtinType? t.name).isSome

section Resolve

variable {index : Option SymbolIndex} {external : Option ExternalSymbols} {imports : Imports}
  {params : List String} {t : TypeRef}

theorem kind_resolveName_ne_typeParameter (name : String) :
    (resolveName index external imports name).kind ≠ .typeParameter := by
  unfold resolveName
  split
  · nofun
  · dsimp only
    split
    · nofun
    · split <;> nofun

/-- What a reference means before type parameters and imports are looked at. -/
theorem resolveRef_of_keyword (h : t.isBuiltin = true ∨ t.name ∈ constraintWords) :
    (resolveRef index external imports params t).kind = .builtin := by
  unfold resolveRef
  split
  · rfl
  · next htuple =>
    cases hbuiltin : builtinType? t.name with
    | some target => rfl
    | none =>
      have hword : t.name ∈ constraintWords :=
        h.resolve_left (by simp [TypeRef.isBuiltin, htuple, hbuiltin])
      simp [hword]

theorem resolveRef_of_not_keyword (h : t.isBuiltin = false) (hword : t.name ∉ constraintWords) :
    resolveRef index external imports params t =
      if '.' ∉ t.name.toList ∧ t.name ∈ params then { kind := .typeParameter, target := t.name }
      else resolveName index external imports
        (withoutGlobal ((imports.aliases.lookup t.name).getD t.name)) := by
  obtain ⟨htuple, hbuiltin⟩ := Bool.or_eq_false_iff.mp h
  rw [Option.isSome_eq_false_iff, Option.isNone_iff_eq_none] at hbuiltin
  simp [resolveRef, htuple, hbuiltin, hword]

theorem kind_resolveRef_eq_typeParameter_iff :
    (resolveRef index external imports params t).kind = .typeParameter ↔
      '.' ∉ t.name.toList ∧ t.isBuiltin = false ∧ t.name ∉ constraintWords ∧ t.name ∈ params := by
  by_cases h : t.isBuiltin = true ∨ t.name ∈ constraintWords
  · rw [resolveRef_of_keyword h]
    refine iff_of_false nofun ?_
    rintro ⟨-, hbuiltin, hword, -⟩
    rcases h with h | h
    · exact Bool.false_ne_true (hbuiltin.symm.trans h)
    · exact hword h
  · obtain ⟨hbuiltin, hword⟩ := not_or.mp h
    rw [Bool.not_eq_true] at hbuiltin
    rw [resolveRef_of_not_keyword hbuiltin hword]
    split
    · next hscope => simp [hbuiltin, hword, hscope]
    · next hscope =>
      refine iff_of_false (kind_resolveName_ne_typeParameter _) ?_
      exact fun h => hscope ⟨h.1, h.2.2.2⟩

end Resolve

/-! ### A binder with frames -/

/-- The step of a binder that keeps, for each node it is inside of, the names of the type parameters
that the node declares. -/
def Binder.visit (index : Option SymbolIndex) (external : Option ExternalSymbols) :
    Framing.Stacked (List String) Binder.State → Framing.Event →
      Option (Framing.Stacked (List String) Binder.State) :=
  Framing.Stacked.step (fun _ _ n => n.typeParamNames) fun frames s address n =>
    Binder.step index external s ⟨address, frames.flatten, n⟩

/-- Each type reference of a file is bound, and nothing else. It is bound as a type parameter if and
only if its name has no dot, it is no builtin type, tuples included, and no word of a constraint,
and a type, method, local function or delegate above it has a type parameter of that name. A binder
that pushes and pops frames makes the same bindings and ends with an empty stack. -/
theorem typeParameters_bound_in_scope (u : CompilationUnit Node) (index : Option SymbolIndex)
    (external : Option ExternalSymbols) :
    (∀ a, ((bindTypes u index external).lookup a).isSome ↔
      ∃ t, (Node.unit u).at? a = some (.type t)) ∧
    (∀ a t b, (Node.unit u).at? a = some (.type t) → (bindTypes u index external).lookup a = some b →
      (b.kind = .typeParameter ↔
        '.' ∉ t.name.toList ∧ t.isBuiltin = false ∧ t.name ∉ constraintWords ∧
          ∃ n p, (Node.unit u).Above a n ∧ n.DeclaresTypeParam p ∧ p.name = t.name)) ∧
    ∃ s, (Framing.events (.unit u) []).foldlM (Binder.visit index external)
        ⟨[], { imports := .ofUnit u }⟩ = some ⟨[], s⟩ ∧
      s.refs.reverse = (bindTypes u index external).refs := by
  refine ⟨fun _ => isSome_lookup_bindTypes_iff, fun a t b hat hbound => ?_, ?_⟩
  · obtain ⟨front, v, back, t', hsplit, rfl, ht, rfl⟩ := lookup_bindTypes_eq_some_iff.mp hbound
    have hmem : v ∈ Binder.walk u := by simp [hsplit]
    have hv := Node.visited_of_mem_visits hmem
    -- The reference of that visit is the one that stands at the address.
    obtain rfl : t' = t := by
      rw [hv.at?_eq, ht] at hat
      exact Node.type.inj (Option.some.inj hat)
    rw [kind_resolveRef_eq_typeParameter_iff, hv.mem_inherited_iff,
      Node.exists_above_typeParamNames_iff hat]
  · exact ⟨_, Framing.Stacked.walk_events List.flatten Binder.inScope (Binder.step index external)
      (fun _ _ _ => rfl) (fun _ _ _ _ => rfl) _ _ _, rfl⟩

end CSharpAudit
