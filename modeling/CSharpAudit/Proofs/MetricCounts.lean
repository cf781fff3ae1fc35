import CSharpAudit.Proofs.Grammar.Properness
import CSharpAudit.Proofs.MemberFlows

/-!
# What metrics count

The metrics of a file are collected on one walk over everything outside local functions, and on a
walk of its own over each local function. The control flow of members is measured on the
declarations of the file, and overloads share an entry there. Both look at the same bodies: in a
proper file, as each parsed one is, declarations stand in files, namespaces and types only.

## Main definitions

* `Node.counter?` — the counter to which a declaration or a statement belongs

## Main results

* `CompilationUnit.filter_nodesOutsideLocals` — both walks meet the same declarations
* `FlowIndex.sum_foldl_record` — what is lost when overloads share an entry
* `metrics_agree_with_declarations` — the metrics of a file count what is declared in it
-/

namespace CSharpAudit

/-! ### Totals -/

section Totals

variable {α β : Type} {measure : α → Nat} {p : α → Bool} {l : List α}

/-- What adds nothing can be left out. -/
theorem totalOf_filter (h : ∀ a, p a = false → measure a = 0) :
    totalOf measure (l.filter p) = totalOf measure l := by
  induction l with
  | nil => rfl
  | cons a l ih =>
    cases ha : p a with
    | true => rw [List.filter_cons_of_pos ha, totalOf_cons, totalOf_cons, ih]
    | false =>
      rw [List.filter_cons_of_neg (by simp [ha]), totalOf_cons, ih, h a ha, Nat.zero_add]

/-- What lists nothing can be left out. -/
theorem flatMap_filter {f : α → List β} (h : ∀ a, p a = false → f a = []) :
    (l.filter p).flatMap f = l.flatMap f := by
  induction l with
  | nil => rfl
  | cons a l ih =>
    cases ha : p a with
    | true => rw [List.filter_cons_of_pos ha, List.flatMap_cons, List.flatMap_cons, ih]
    | false =>
      rw [List.filter_cons_of_neg (by simp [ha]), List.flatMap_cons, ih, h a ha, List.nil_append]

/-- Totals add up over parts. -/
theorem totalOf_flatMap (f : β → List α) (l : List β) :
    totalOf measure (l.flatMap f) = totalOf (fun b => totalOf measure (f b)) l := by
  induction l with
  | nil => rfl
  | cons b l ih => rw [List.flatMap_cons, totalOf_append, ih, totalOf_cons]

theorem totalOf_congr {measure' : α → Nat} (h : ∀ a ∈ l, measure a = measure' a) :
    totalOf measure l = totalOf measure' l := by
  induction l with
  | nil => rfl
  | cons a l ih =>
    obtain ⟨ha, hl⟩ := List.forall_mem_cons.mp h
    rw [totalOf_cons, totalOf_cons, ha, ih hl]

theorem totalOf_eq_zero (h : ∀ a, measure a = 0) (l : List α) : totalOf measure l = 0 := by
  induction l with
  | nil => rfl
  | cons a l ih => rw [totalOf_cons, ih, h]

/-- A measure that is at most one counts. -/
theorem totalOf_eq_countP (h : ∀ a, measure a = if p a then 1 else 0) (l : List α) :
    totalOf measure l = l.countP p := by
  induction l with
  | nil => rfl
  | cons a l ih => rw [totalOf_cons, List.countP_cons, ih, h, Nat.add_comm]

end Totals

/-! ### Declarations outside local functions -/

namespace CompilationUnit

variable {u : CompilationUnit Node}

theorem nodesOutsideLocals_eq (u : CompilationUnit Node) :
    u.nodesOutsideLocals = (Node.unit u).outer := by
  refine Node.map_node_visits_eq_reached _ (fun v => ?_) _ _ _
  cases v.node.isLocalFunc <;> rfl

/-- The declarations of a file are those reached through files, namespaces and types. -/
theorem map_node_declarations (u : CompilationUnit Node) : u.declarations.map (·.node) =
    ((Node.unit u).reached Node.holdsDeclarations).filter (·.isDeclaration) := by
  let enter (v : Visit DeclPath) : Option DeclPath :=
    if v.node.holdsDeclarations && !(v.node.isDeclaration && false) then
      some (v.inherited.enter v.node)
    else none
  have henter (v : Visit DeclPath) : (enter v).isSome = v.node.holdsDeclarations := by
    cases hv : v.node.holdsDeclarations <;> simp [enter, hv]
  have hnodes : ((Node.unit u).visits enter {} []).map (·.node) =
      (Node.unit u).reached Node.holdsDeclarations :=
    Node.map_node_visits_eq_reached _ henter _ _ _
  rw [← hnodes, List.filter_map, declarations, declarationsExcept, List.map_filterMap,
    ← List.filterMap_eq_map, List.filterMap_filter]
  refine List.filterMap_congr fun v _ => ?_
  cases hv : v.node.isDeclaration <;> simp [hv]

/-- The walk that counts and the walk over declarations meet the same declarations. -/
theorem filter_nodesOutsideLocals (h : (Node.unit u).Proper) :
    u.nodesOutsideLocals.filter (·.isDeclaration) = u.declarations.map (·.node) := by
  rw [nodesOutsideLocals_eq, map_node_declarations, h.filter_outer]

/-- The bodies that are met on both walks are the same. -/
theorem flatMap_bodies_nodesOutsideLocals (h : (Node.unit u).Proper) :
    u.nodesOutsideLocals.flatMap Node.bodies = u.declarations.flatMap (·.node.bodies) := by
  rw [← flatMap_filter (p := (·.isDeclaration)) Node.bodies_of_not_isDeclaration,
    filter_nodesOutsideLocals h, List.flatMap_map]

end CompilationUnit

/-! ### The control flow of bodies -/

namespace FlowIndex

variable {index : FlowIndex} {name : String} {flow : MemberFlow}

/-- The complexities of an index together. -/
def complexities (index : FlowIndex) : Int := (index.map (·.2.complexity)).sum

theorem complexities_cons (e : String × MemberFlow) (index : FlowIndex) :
    complexities (e :: index) = e.2.complexity + complexities index := List.sum_cons

/-- When a body is recorded under a new name, its complexity counts. -/
theorem complexities_record_of_notMem (h : name ∉ index.map (·.1)) :
    complexities (record index name flow) = complexities index + flow.complexity := by
  have hnew : index.any (·.1 == name) = false := by
    refine List.any_eq_false.mpr fun e he hname => h ?_
    exact List.mem_map.mpr ⟨e, he, eq_of_beq hname⟩
  rw [record, hnew, if_neg Bool.false_ne_true]
  simp [complexities]

/-- When a body is recorded under a name that is known, some of its complexity or of what was there
is lost. -/
theorem complexities_record_of_mem (hindex : ∀ e ∈ index, 0 < e.2.complexity)
    (hnodup : (index.map (·.1)).Nodup) (hflow : 0 < flow.complexity)
    (h : name ∈ index.map (·.1)) :
    complexities (record index name flow) < complexities index + flow.complexity := by
  have hknown : index.any (·.1 == name) = true := by
    obtain ⟨e, he, hname⟩ := List.mem_map.mp h
    exact List.any_eq_true.mpr ⟨e, he, beq_of_eq hname⟩
  rw [record, hknown, if_pos rfl]
  clear hknown
  -- along the index, in which the name is listed once
  induction index with
  | nil => exact absurd h List.not_mem_nil
  | cons e index ih =>
    obtain ⟨he, hindex⟩ := List.forall_mem_cons.mp hindex
    obtain ⟨hnew, hnodup⟩ := List.nodup_cons.mp hnodup
    rw [List.map_cons, complexities_cons, complexities_cons]
    by_cases hname : e.1 = name
    · -- the name is listed once, so the rest stays as it is
      have hrest : (index.map fun e => if e.1 == name then (e.1, merge e.2 flow) else e) =
          index := by
        refine (List.map_congr_left fun d hd => ?_).trans (List.map_id index)
        have hne : d.1 ≠ name := by
          rintro rfl
          have hlisted : d.1 ∈ index.map (·.1) := List.mem_map_of_mem hd
          rw [← hname] at hlisted
          exact hnew hlisted
        simp [hne]
      rw [hrest, if_pos (beq_of_eq hname)]
      simp only [merge]
      omega
    · have hmem : name ∈ index.map (·.1) :=
        (List.mem_cons.mp h).resolve_left fun heq => hname heq.symm
      have := ih hindex hnodup hmem
      rw [if_neg (by simpa using hname)]
      omega

/-- Recorded flows have a positive complexity. -/
theorem pos_record (name : String) (hindex : ∀ e ∈ index, 0 < e.2.complexity)
    (hflow : 0 < flow.complexity) :
    ∀ e ∈ record index name flow, 0 < e.2.complexity := by
  unfold record
  split
  · refine List.forall_mem_map.mpr fun e he => ?_
    have := hindex e he
    split
    · simp only [merge]
      omega
    · exact this
  · exact List.forall_mem_append.mpr ⟨hindex, List.forall_mem_singleton.mpr hflow⟩

/-- The complexities of an index are at most those of the bodies recorded there. They are the same
if no name was known when a body was recorded under it. -/
theorem sum_foldl_record (index : FlowIndex) (entries : List (String × MemberFlow))
    (hindex : ∀ e ∈ index, 0 < e.2.complexity) (hentries : ∀ e ∈ entries, 0 < e.2.complexity)
    (hnodup : (index.map (·.1)).Nodup) :
    let all := complexities index + (entries.map (·.2.complexity)).sum
    let kept := complexities (entries.foldl (fun index e => record index e.1 e.2) index)
    kept ≤ all ∧ (kept = all ↔ (index.map (·.1) ++ entries.map (·.1)).Nodup) := by
  induction entries generalizing index with
  | nil => simpa using hnodup
  | cons e entries ih =>
    obtain ⟨he, hentries⟩ := List.forall_mem_cons.mp hentries
    obtain ⟨hle, hiff⟩ := ih _ (pos_record e.1 hindex he) hentries (nodup_record hnodup)
    rw [map_fst_record] at hiff
    simp only [List.foldl_cons, List.map_cons, List.sum_cons]
    -- What is recorded under a known name loses complexity, and the name is there twice then.
    by_cases hknown : e.1 ∈ index.map (·.1)
    · have hlost := complexities_record_of_mem hindex hnodup he hknown
      have htwice : ¬ (index.map (·.1) ++ e.1 :: entries.map (·.1)).Nodup := fun h =>
        List.disjoint_of_nodup_append h hknown List.mem_cons_self
      refine ⟨by omega, iff_of_false (by omega) htwice⟩
    · rw [complexities_record_of_notMem hknown] at hle hiff
      rw [if_neg hknown, List.append_assoc, List.singleton_append] at hiff
      rw [← hiff]
      omega

/-- A maximum exceeds a limit if one element does. -/
theorem lt_foldl_max_iff {limit init : Int} {l : List Int} :
    limit < l.foldl max init ↔ limit < init ∨ ∃ x ∈ l, limit < x := by
  induction l generalizing init with
  | nil => simp
  | cons x l ih =>
    rw [List.foldl_cons, ih, lt_max_iff, or_assoc]
    simp only [List.mem_cons, exists_eq_or_imp]

/-- The deepest nesting of an index is that of the bodies recorded there. -/
theorem foldl_max_foldl_record (entries : List (String × MemberFlow)) :
    ((entries.foldl (fun index e => record index e.1 e.2) []).map (·.2.nesting)).foldl max 0 =
      (entries.map (·.2.nesting)).foldl max 0 := by
  refine eq_of_forall_lt_iff fun limit => ?_
  have hnamed (index : FlowIndex) : (∃ x ∈ index.map (·.2.nesting), limit < x) ↔
      ∃ k, k ∈ named (fun f => f.nesting > limit) index := by
    simp [mem_named]
  rw [lt_foldl_max_iff, lt_foldl_max_iff, hnamed, hnamed]
  simp only [mem_named_foldl_record (threshold_nesting limit)]
  simp [named]

end FlowIndex

namespace CompilationUnit

variable {u : CompilationUnit Node}

/-- What is listed of the bodies of a file, without the names. -/
theorem map_flowEntries {β : Type} {f : MemberFlow → β} {g : Node → β}
    (h : ∀ body start stop,
      f ⟨(body : Node).complexity, body.nesting, start, stop⟩ = g body)
    (u : CompilationUnit Node) :
    u.flowEntries.map (fun e => f e.2) = (u.declarations.flatMap (·.node.bodies)).map g := by
  rw [flowEntries, List.map_flatMap, List.map_flatMap]
  refine List.flatMap_congr fun d _ => ?_
  rw [List.map_map]
  exact List.map_congr_left fun body _ => h body _ _

/-- Every flow has a positive complexity. -/
theorem pos_of_mem_flowEntries : ∀ e ∈ u.flowEntries, 0 < e.2.complexity := by
  intro e he
  obtain ⟨d, -, he⟩ := List.mem_flatMap.mp he
  obtain ⟨body, -, rfl⟩ := List.mem_map.mp he
  exact Int.natCast_pos.mpr (Nat.succ_pos _)

/-- The complexities of all flows add up to those of all bodies. -/
theorem sum_complexity_flowEntries (u : CompilationUnit Node) :
    (u.flowEntries.map (·.2.complexity)).sum =
      (totalOf Node.complexity (u.declarations.flatMap (·.node.bodies)) : Nat) := by
  rw [map_flowEntries (f := (·.complexity)) (g := fun body => (body.complexity : Int))
    fun _ _ _ => rfl]
  generalize u.declarations.flatMap (·.node.bodies) = bodies
  induction bodies with
  | nil => rfl
  | cons body bodies ih => rw [List.map_cons, List.sum_cons, ih, totalOf_cons, Nat.cast_add]

/-- The deepest nesting of all flows is that of all bodies. -/
theorem foldl_max_nesting_flowEntries (u : CompilationUnit Node) :
    (u.flowEntries.map (·.2.nesting)).foldl max 0 =
      (((u.declarations.flatMap (·.node.bodies)).map Node.nesting).foldl max 0 : Nat) := by
  rw [map_flowEntries (f := (·.nesting)) (g := fun body => (body.nesting : Int)) fun _ _ _ => rfl]
  generalize u.declarations.flatMap (·.node.bodies) = bodies
  have hmax : ∀ init : Nat, (bodies.map fun body => (body.nesting : Int)).foldl max (init : Int) =
      ((bodies.map Node.nesting).foldl max init : Nat) := by
    induction bodies with
    | nil => exact fun init => rfl
    | cons body bodies ih =>
      intro init
      rw [List.map_cons, List.foldl_cons, ← Nat.cast_max, ih, List.map_cons, List.foldl_cons]
  exact hmax 0

end CompilationUnit

/-! ### Counters -/

/-- The counter to which a declaration or a statement belongs. -/
def Node.counter? : Node → Option Counter
  | .typeDecl d => match d.kind with
    | .classType => some .classes
    | .interface => some .interfaces
    | .struct => some .structs
    | .enum => some .enums
    | .record | .recordStruct => some .records
  | .delegate _ => some .delegates
  | .method _ => some .methods
  | .constructor _ => some .constructors
  | .property _ => some .properties
  | .event _ => some .events
  | .ifStmt .. => some .ifStatements
  | .forStmt .. | .foreachStmt .. => some .forLoops
  | .whileStmt .. | .doStmt .. => some .whileLoops
  | .switchStmt .. => some .switchStatements
  | .tryStmt .. => some .tryStatements
  | .usingStmt .. => some .usingStatements
  | _ => none

namespace Counter

/-- The counters of declarations. -/
def ofDeclarations : List Counter :=
  [.classes, .interfaces, .structs, .enums, .records, .delegates, .methods, .constructors,
   .properties, .events]

/-- The counters of statements. -/
def ofStatements : List Counter :=
  [.ifStatements, .forLoops, .whileLoops, .switchStatements, .tryStatements, .usingStatements]

/-- A declaration counts for one counter. -/
theorem ofDeclaration_eq {c : Counter} (hc : c ∈ ofDeclarations) (n : Node) :
    c.ofDeclaration n = if n.counter? = some c then 1 else 0 := by
  simp only [ofDeclarations, List.mem_cons, List.not_mem_nil, or_false] at hc
  cases n with
  | typeDecl d =>
    obtain ⟨_, kind⟩ := d
    rcases hc with rfl | rfl | rfl | rfl | rfl | rfl | rfl | rfl | rfl | rfl <;> cases kind <;> rfl
  | _ => rcases hc with rfl | rfl | rfl | rfl | rfl | rfl | rfl | rfl | rfl | rfl <;> rfl

/-- A statement counts for one counter. -/
theorem ofStatement_eq {c : Counter} (hc : c ∈ ofStatements) (n : Node) :
    c.ofStatement n = if n.counter? = some c then 1 else 0 := by
  simp only [ofStatements, List.mem_cons, List.not_mem_nil, or_false] at hc
  cases n with
  | typeDecl d =>
    obtain ⟨_, kind⟩ := d
    rcases hc with rfl | rfl | rfl | rfl | rfl | rfl <;> cases kind <;> rfl
  | _ => rcases hc with rfl | rfl | rfl | rfl | rfl | rfl <;> rfl

end Counter

namespace Counter

variable {c : Counter} {n : Node}

theorem ofNode_of_not_isLocalFunc (c : Counter) (h : n.isLocalFunc = false) :
    c.ofNode n = c.ofDeclaration n + c.ofStatement n := by
  cases n <;> first | rfl | exact Bool.noConfusion h

/-- A local function adds its statements, and no declarations. -/
theorem ofNode_of_isLocalFunc (c : Counter) (h : n.isLocalFunc = true) :
    c.ofNode n = totalOf c.ofStatement n.nodes ∧ n.isDeclaration = false := by
  obtain ⟨span, f, rfl⟩ : ∃ span f, n = .localFunc span f := by
    cases n <;> first | exact ⟨_, _, rfl⟩ | exact Bool.noConfusion h
  have hself : c.ofStatement (.localFunc span f) = 0 := by cases c <;> rfl
  have hchildren : (Node.localFunc span f).children = [.method f] := by rw [Node.children]
  refine ⟨?_, rfl⟩
  rw [Node.nodes_eq, totalOf_cons, hself, hchildren, List.flatMap_singleton, Nat.zero_add]
  rfl

/-- A statement is no declaration. -/
theorem ofDeclaration_of_not_isDeclaration (c : Counter) (h : n.isDeclaration = false) :
    c.ofDeclaration n = 0 := by
  unfold ofDeclaration
  split <;> first | rfl | exact Bool.noConfusion h

/-- A local function adds its statements to the counters of statements, so each statement of a tree
counts once. -/
theorem totalOf_ofNode_outer (hc : ∀ n, c.ofDeclaration n = 0) (n : Node) :
    totalOf c.ofNode n.outer = totalOf c.ofStatement n.nodes := by
  induction n using Node.induction_on_children with
  | step n ih =>
    cases hlocal : n.isLocalFunc with
    | true =>
      rw [Node.outer_of_isLocalFunc hlocal, totalOf_cons, totalOf_nil, Nat.add_zero]
      exact (c.ofNode_of_isLocalFunc hlocal).1
    | false =>
      rw [Node.outer_of_not_isLocalFunc hlocal, Node.nodes_eq, totalOf_cons, totalOf_cons,
        ofNode_of_not_isLocalFunc c hlocal, hc, Nat.zero_add, totalOf_flatMap, totalOf_flatMap,
        totalOf_congr ih]

end Counter

namespace CompilationUnit

variable {u : CompilationUnit Node} {c : Counter}

/-- A counter of declarations counts the declarations of the file. -/
theorem totalOf_ofNode_declarations (h : (Node.unit u).Proper) (hc : ∀ n, c.ofStatement n = 0) :
    totalOf c.ofNode u.nodesOutsideLocals =
      totalOf c.ofDeclaration (u.declarations.map (·.node)) := by
  have hnode (n : Node) : c.ofNode n = c.ofDeclaration n := by
    cases hlocal : n.isLocalFunc with
    | true =>
      obtain ⟨hstatements, hdeclaration⟩ := c.ofNode_of_isLocalFunc hlocal
      rw [hstatements, c.ofDeclaration_of_not_isDeclaration hdeclaration]
      exact totalOf_eq_zero hc n.nodes
    | false => rw [Counter.ofNode_of_not_isLocalFunc c hlocal, hc, Nat.add_zero]
  rw [← filter_nodesOutsideLocals h,
    totalOf_filter fun n hn => c.ofDeclaration_of_not_isDeclaration hn,
    totalOf_congr fun n _ => hnode n]

end CompilationUnit

/-- The variables that a field declares. -/
def Node.declarators : Node → List (VarDeclarator Node)
  | .field d => d.vars
  | _ => []

namespace Counter

variable {c : Counter}

theorem ofStatement_eq_zero (hc : c ∈ .fields :: ofDeclarations) (n : Node) :
    c.ofStatement n = 0 := by
  simp only [ofDeclarations, List.mem_cons, List.not_mem_nil, or_false] at hc
  rcases hc with rfl | rfl | rfl | rfl | rfl | rfl | rfl | rfl | rfl | rfl | rfl <;> rfl

theorem ofDeclaration_eq_zero (hc : c ∈ ofStatements) (n : Node) : c.ofDeclaration n = 0 := by
  simp only [ofStatements, List.mem_cons, List.not_mem_nil, or_false] at hc
  rcases hc with rfl | rfl | rfl | rfl | rfl | rfl <;> rfl

theorem ofDeclaration_fields (n : Node) : fields.ofDeclaration n = n.declarators.length := by
  cases n <;> rfl

end Counter

namespace Counter

/-- The counters of types. -/
def ofTypes : List Counter := [.classes, .interfaces, .structs, .enums, .records]

/-- No type belongs to two counters. -/
theorem types_apart (o : Option Counter) :
    (if decide (o = some classes) = true then 1 else 0) +
      (if decide (o = some interfaces) = true then 1 else 0) +
      (if decide (o = some structs) = true then 1 else 0) +
      (if decide (o = some enums) = true then 1 else 0) +
      (if decide (o = some records) = true then 1 else 0) =
    if o.any ofTypes.contains = true then 1 else 0 := by
  cases o with
  | none => rfl
  | some c => cases c <;> rfl

end Counter

/-- The types of a file are the declarations that belong to a counter of types. -/
theorem CompilationUnit.length_types (u : CompilationUnit Node) :
    u.types.length = u.declarations.countP fun d => d.node.counter?.any Counter.ofTypes.contains := by
  rw [types, List.length_filterMap_eq_countP]
  refine List.countP_congr fun d _ => ?_
  cases d.node with
  | typeDecl t =>
    obtain ⟨span, kind⟩ := t
    cases kind <;> exact iff_of_true rfl rfl
  | _ => exact iff_of_false Bool.false_ne_true Bool.false_ne_true

namespace Metrics

variable {u : CompilationUnit Node} {c : Counter} (source : List UInt8)

/-- A counter adds up over the nodes outside of local functions. -/
theorem value_eq_totalOf (hc : c ∈ .fields :: Counter.ofDeclarations ∨ c ∈ Counter.ofStatements) :
    (ofUnit u source).value c = totalOf c.ofNode u.nodesOutsideLocals := by
  cases c <;> first | rfl | exact absurd hc (by decide)

/-- Counters of declarations count declarations. -/
theorem value_of_mem_ofDeclarations (h : (Node.unit u).Proper) (hc : c ∈ Counter.ofDeclarations) :
    (ofUnit u source).value c = u.declarations.countP fun d => d.node.counter? = some c := by
  have hmem : c ∈ .fields :: Counter.ofDeclarations := List.mem_cons_of_mem _ hc
  rw [value_eq_totalOf source (.inl hmem),
    CompilationUnit.totalOf_ofNode_declarations h (Counter.ofStatement_eq_zero hmem),
    totalOf_eq_countP (p := fun n => n.counter? = some c)
      (fun n => by simpa using Counter.ofDeclaration_eq hc n), List.countP_map]
  rfl

/-- The counter of fields counts their variables. -/
theorem value_fields (h : (Node.unit u).Proper) : (ofUnit u source).value .fields =
    (u.declarations.flatMap fun d => d.node.declarators).length := by
  rw [value_eq_totalOf source (.inl List.mem_cons_self),
    CompilationUnit.totalOf_ofNode_declarations h (Counter.ofStatement_eq_zero List.mem_cons_self)]
  generalize u.declarations = ds
  induction ds with
  | nil => rfl
  | cons d ds ih =>
    rw [List.map_cons, totalOf_cons, Nat.cast_add, ih, List.flatMap_cons, List.length_append,
      Counter.ofDeclaration_fields, Nat.cast_add]

/-- Counters of statements count statements, those in local functions included. -/
theorem value_of_mem_ofStatements (hc : c ∈ Counter.ofStatements) : (ofUnit u source).value c =
    (Node.unit u).nodes.countP fun n => n.counter? = some c := by
  rw [value_eq_totalOf source (.inr hc), CompilationUnit.nodesOutsideLocals_eq,
    Counter.totalOf_ofNode_outer (Counter.ofDeclaration_eq_zero hc),
    totalOf_eq_countP (p := fun n => n.counter? = some c)
      fun n => by simpa using Counter.ofStatement_eq hc n]

/-- Each type of a file belongs to one of the counters of types. -/
theorem value_types (h : (Node.unit u).Proper) :
    (ofUnit u source).value .classes + (ofUnit u source).value .interfaces +
      (ofUnit u source).value .structs + (ofUnit u source).value .enums +
      (ofUnit u source).value .records = u.types.length := by
  have hvalue {c : Counter} (hc : c ∈ Counter.ofDeclarations) := value_of_mem_ofDeclarations
    source h hc
  rw [hvalue (c := .classes) (by decide), hvalue (c := .interfaces) (by decide),
    hvalue (c := .structs) (by decide), hvalue (c := .enums) (by decide),
    hvalue (c := .records) (by decide), CompilationUnit.length_types]
  generalize u.declarations = ds
  induction ds with
  | nil => rfl
  | cons d ds ih =>
    simp only [List.countP_cons, Nat.cast_add]
    have hone := Counter.types_apart d.node.counter?
    omega

/-- The nesting of a file is that of its deepest flow. -/
theorem value_nestingDepth (h : (Node.unit u).Proper) : (ofUnit u source).value .nestingDepth =
    ((flowIndex u).map (·.2.nesting)).foldl max 0 := by
  rw [CompilationUnit.flowIndex_eq, FlowIndex.foldl_max_foldl_record,
    CompilationUnit.foldl_max_nesting_flowEntries,
    ← CompilationUnit.flatMap_bodies_nodesOutsideLocals h]
  rfl

/-- The complexity of a file is that of all its bodies, each under the name of its member. -/
theorem value_complexity (h : (Node.unit u).Proper) :
    (ofUnit u source).value .complexity = (u.flowEntries.map (·.2.complexity)).sum := by
  rw [CompilationUnit.sum_complexity_flowEntries,
    ← CompilationUnit.flatMap_bodies_nodesOutsideLocals h]
  rfl

end Metrics

/-- The metrics of a file agree with its declarations. The nesting depth is the deepest nesting in
the index of control flow; the complexity is at least that of all entries together, and it is the
same just if no two bodies share an entry. Types and members are counted as they are declared in the
file, so that no local function counts as a method, and of a field each of its variables; types of
all kinds together are the types of the file. And each statement counts once, wherever it stands. -/
theorem metrics_agree_with_declarations (u : CompilationUnit Node) (source : List UInt8)
    (hproper : (Node.unit u).Proper) :
    let metrics := Metrics.ofUnit u source
    metrics.value .nestingDepth = ((flowIndex u).map (·.2.nesting)).foldl max 0 ∧
    ((flowIndex u).map (·.2.complexity)).sum ≤ metrics.value .complexity ∧
    (((flowIndex u).map (·.2.complexity)).sum = metrics.value .complexity ↔
      (u.flowEntries.map (·.1)).Nodup) ∧
    (∀ c ∈ Counter.ofDeclarations,
      metrics.value c = u.declarations.countP fun d => d.node.counter? = some c) ∧
    metrics.value .fields = (u.declarations.flatMap fun d => d.node.declarators).length ∧
    metrics.value .classes + metrics.value .interfaces + metrics.value .structs +
      metrics.value .enums + metrics.value .records = u.types.length ∧
    ∀ c ∈ Counter.ofStatements,
      metrics.value c = (Node.unit u).nodes.countP fun n => n.counter? = some c := by
  intro metrics
  obtain ⟨hle, hiff⟩ := FlowIndex.sum_foldl_record [] u.flowEntries (by simp)
    CompilationUnit.pos_of_mem_flowEntries List.nodup_nil
  have hcomplexity : metrics.value .complexity = (u.flowEntries.map (·.2.complexity)).sum :=
    Metrics.value_complexity source hproper
  -- The index starts empty, so that all of the complexity comes from the bodies.
  have hentries : FlowIndex.complexities [] + (u.flowEntries.map (·.2.complexity)).sum =
      metrics.value .complexity := by
    rw [hcomplexity]
    exact Int.zero_add _
  rw [hentries, ← CompilationUnit.flowIndex_eq] at hle hiff
  exact ⟨Metrics.value_nestingDepth source hproper, hle, hiff,
    fun c hc => Metrics.value_of_mem_ofDeclarations source hproper hc,
    Metrics.value_fields source hproper, Metrics.value_types source hproper,
    fun c hc => Metrics.value_of_mem_ofStatements source hc⟩

/-- A class with a class in it, two overloads, one of them with a local function, and a property of
which both accessors have a body. -/
def nestedText : List UInt8 :=
  ("class C\x7bint x,y;class D\x7b\x7dvoid M()\x7bvoid L()\x7bif(a)b();\x7dif(a)L();\x7d" ++
    "void M(int x)\x7b\x7dint P\x7bget\x7bif(a)b();\x7dset\x7b\x7d\x7d\x7d").toList.map Lexer.ascii

/-- Its four bodies share two entries, so some complexity is lost in the index. Its local function
is no method, and the statements of this count. -/
theorem nestedText_metrics : ∃ u, parse nestedText = .ok u ∧ (Node.unit u).Proper ∧
    (Metrics.ofUnit u nestedText).value .nestingDepth = 1 ∧
    ((flowIndex u).map (·.2.complexity)).sum < (Metrics.ofUnit u nestedText).value .complexity ∧
    (Metrics.ofUnit u nestedText).value .methods = 2 ∧
    (Metrics.ofUnit u nestedText).value .fields = 2 ∧
    (Metrics.ofUnit u nestedText).value .classes = 2 ∧
    (Metrics.ofUnit u nestedText).value .ifStatements = 3 := by
  have hcomputed : (parse nestedText).toOption.any (fun u => decide (
      ((flowIndex u).map (·.2.nesting)).foldl max 0 = 1 ∧ ¬ (u.flowEntries.map (·.1)).Nodup ∧
      (u.declarations.countP fun d => d.node.counter? = some .methods) = 2 ∧
      (u.declarations.flatMap fun d => d.node.declarators).length = 2 ∧
      (u.declarations.countP fun d => d.node.counter? = some .classes) = 2 ∧
      ((Node.unit u).nodes.countP fun n => n.counter? = some .ifStatements) = 3)) = true := by
    rw [show nestedText = _ from Lexer.ascii_ofList_append _ _]
    decide +kernel
  obtain ⟨u, hparse, hcomputed⟩ := exists_parse_of_any hcomputed
  have hproper := proper_of_parse hparse
  -- The counts are computed; what they mean for the metrics is the theorem.
  obtain ⟨hnesting, hshared, hmethods, hfields, hclasses, hifs⟩ := of_decide_eq_true hcomputed
  obtain ⟨hdepth, hle, hiff, hdeclarations, hvariables, -, hstatements⟩ :=
    metrics_agree_with_declarations u nestedText hproper
  refine ⟨u, hparse, hproper, hdepth.trans hnesting, ?_, ?_, ?_, ?_, ?_⟩
  · exact lt_of_le_of_ne hle fun heq => hshared (hiff.mp heq)
  · rw [hdeclarations .methods (by decide), hmethods]
    rfl
  · rw [hvariables, hfields]
    rfl
  · rw [hdeclarations .classes (by decide), hclasses]
    rfl
  · rw [hstatements .ifStatements (by decide), hifs]
    rfl

end CSharpAudit
