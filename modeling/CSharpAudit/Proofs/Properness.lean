import CSharpAudit.Metrics.Collect
import CSharpAudit.Proofs.Placement

/-!
# Where declarations stand

Types and members are declared in files, namespaces and types; a local function is a statement and
has a method of its own. All other nodes have statements, expressions and types below them, and none
of these declares anything outside local functions. On a walk that leaves local functions out, then,
the same declarations are met as on one that goes through files, namespaces and types alone.

## Main definitions

* `Node.Proper` — declarations stand where something can be declared
* `Node.Inner` — a proper node that declares nothing, as statements and expressions are

## Main results

* `Node.Proper.filter_outer` — both walks meet the same declarations
* `Node.Inner.intro` — what has inner nodes below it is inner itself, unless it is declared
-/

namespace CSharpAudit

namespace Node

variable {n c : Node}

/-- The nodes of a tree outside local functions, and the local functions themselves. -/
abbrev outer (n : Node) : List Node := n.reached fun n => !n.isLocalFunc

/-- Whether a node is a declaration or may list some. -/
def declares (n : Node) : Bool := n.isDeclaration || n.holdsDeclarations

/-- Outside local functions, declarations stand directly below files, namespaces and types. -/
def Proper (n : Node) : Prop :=
  ∀ m ∈ n.outer, m.holdsDeclarations = false → m.isLocalFunc = false →
    ∀ c ∈ m.children, c.declares = false

instance (n : Node) : Decidable n.Proper :=
  inferInstanceAs (Decidable (∀ m ∈ n.outer, m.holdsDeclarations = false → m.isLocalFunc = false →
    ∀ c ∈ m.children, c.declares = false))

example : ¬(block .none [field { span := .none, type := { span := .none, name := "int" } }]).Proper := by
  decide +kernel

/-- The walk stops at local functions. -/
theorem outer_of_isLocalFunc (h : n.isLocalFunc = true) : n.outer = [n] := by
  rw [outer, reached_eq, h]
  rfl

/-- It goes through everything else. -/
theorem outer_of_not_isLocalFunc (h : n.isLocalFunc = false) :
    n.outer = n :: n.children.flatMap outer := by
  rw [outer, reached_eq, h]
  rfl

theorem mem_outer_self (n : Node) : n ∈ n.outer := by
  rw [outer, reached_eq]
  exact List.mem_cons_self

/-- A proper node has proper nodes below it, unless it is a local function. -/
theorem Proper.child (h : n.Proper) (hlocal : n.isLocalFunc = false) (hc : c ∈ n.children) :
    c.Proper := by
  intro m hm
  refine h m ?_
  rw [outer_of_not_isLocalFunc hlocal]
  exact List.mem_cons_of_mem n (List.mem_flatMap.mpr ⟨c, hc, hm⟩)

theorem isLocalFunc_of_holdsDeclarations (h : n.holdsDeclarations = true) :
    n.isLocalFunc = false := by
  cases n <;> first | rfl | exact absurd h Bool.false_ne_true

theorem bodies_of_not_isDeclaration (n : Node) (h : n.isDeclaration = false) : n.bodies = [] := by
  by_contra hbodies
  have hmember := isMember_of_bodies hbodies
  cases n <;> first | exact Bool.false_ne_true hmember | exact Bool.noConfusion h

/-- Below what is not declared nothing is declared, local functions apart. -/
theorem Proper.filter_outer_eq_nil (h : n.Proper) (hn : n.declares = false) :
    n.outer.filter (·.isDeclaration) = [] := by
  induction n using induction_on_children with
  | step n ih =>
    obtain ⟨hdeclaration, hholds⟩ := Bool.or_eq_false_iff.mp hn
    have hself : ¬ n.isDeclaration = true := by simp [hdeclaration]
    cases hlocal : n.isLocalFunc with
    | true => rw [outer_of_isLocalFunc hlocal, List.filter_cons_of_neg hself, List.filter_nil]
    | false =>
      rw [outer_of_not_isLocalFunc hlocal, List.filter_cons_of_neg hself, List.filter_flatMap]
      refine List.flatMap_eq_nil_iff.mpr fun c hc => ?_
      exact ih c hc (h.child hlocal hc) (h n (mem_outer_self n) hholds hlocal c hc)

/-- Declarations are met outside local functions where they are met in files, namespaces and
types. -/
theorem Proper.filter_outer (h : n.Proper) : n.outer.filter (·.isDeclaration) =
    (n.reached holdsDeclarations).filter (·.isDeclaration) := by
  -- along the tree, where both lists go on below what holds declarations
  induction n using induction_on_children with
  | step n ih =>
    rw [reached_eq holdsDeclarations]
    cases hholds : n.holdsDeclarations with
    | true =>
      have hlocal := isLocalFunc_of_holdsDeclarations hholds
      have hbelow : (n.children.flatMap outer).filter (·.isDeclaration) =
          (n.children.flatMap (reached holdsDeclarations)).filter (·.isDeclaration) := by
        rw [List.filter_flatMap, List.filter_flatMap]
        exact List.flatMap_congr fun c hc => ih c hc (h.child hlocal hc)
      rw [outer_of_not_isLocalFunc hlocal, if_pos rfl, List.filter_cons, List.filter_cons, hbelow]
    | false =>
      -- Below anything else, declarations are met only in local functions.
      cases hlocal : n.isLocalFunc with
      | true =>
        rw [outer_of_isLocalFunc hlocal]
        rfl
      | false =>
        have hbelow : (n.children.flatMap outer).filter (·.isDeclaration) = [] := by
          rw [List.filter_flatMap]
          refine List.flatMap_eq_nil_iff.mpr fun c hc => ?_
          exact (h.child hlocal hc).filter_outer_eq_nil (h n (mem_outer_self n) hholds hlocal c hc)
        rw [outer_of_not_isLocalFunc hlocal, List.filter_cons, hbelow, if_neg Bool.false_ne_true,
          List.filter_cons, List.filter_nil]

/-! ### Inner nodes -/

/-- A node is proper if the nodes below it are, and none of them is declared where nothing can
be. -/
theorem Proper.intro (hbelow : ∀ c ∈ n.children, c.Proper)
    (hdeclares : n.holdsDeclarations = false → n.isLocalFunc = false →
      ∀ c ∈ n.children, c.declares = false) : n.Proper := by
  intro m hm
  cases hlocal : n.isLocalFunc with
  | true =>
    rw [outer_of_isLocalFunc hlocal] at hm
    obtain rfl := List.mem_singleton.mp hm
    exact fun _ h => absurd (hlocal.symm.trans h) Bool.true_eq_false.mp
  | false =>
    rw [outer_of_not_isLocalFunc hlocal] at hm
    rcases List.mem_cons.mp hm with rfl | hm
    · exact hdeclares
    · obtain ⟨c, hc, hm⟩ := List.mem_flatMap.mp hm
      exact hbelow c hc m hm

/-- A proper node that is no declaration and lists none. -/
structure Inner (n : Node) : Prop where
  declares : n.declares = false
  proper : n.Proper

/-- What has inner nodes below it is inner itself, unless it is declared. -/
theorem Inner.intro (hn : n.declares = false) (hbelow : ∀ c ∈ n.children, c.Inner) : n.Inner :=
  ⟨hn, .intro (fun c hc => (hbelow c hc).proper) fun _ _ c hc => (hbelow c hc).declares⟩

/-- What is below an inner node is inner, local functions apart. -/
theorem Inner.child (h : n.Inner) (hlocal : n.isLocalFunc = false) (hc : c ∈ n.children) :
    c.Inner :=
  ⟨h.proper n (mem_outer_self n) (Bool.or_eq_false_iff.mp h.declares).2 hlocal c hc,
    h.proper.child hlocal hc⟩

/-- What has inner nodes below it is proper. -/
theorem Proper.of_inner (hbelow : ∀ c ∈ n.children, c.Inner) : n.Proper :=
  .intro (fun c hc => (hbelow c hc).proper) fun _ _ c hc => (hbelow c hc).declares

/-- What lists declarations is proper if all that it lists is. -/
theorem Proper.of_holds (hn : n.holdsDeclarations = true) (hbelow : ∀ c ∈ n.children, c.Proper) :
    n.Proper :=
  .intro hbelow fun h => absurd (hn.symm.trans h) Bool.true_eq_false.mp

/-- The nodes outside local functions below which something is declared where nothing can be. -/
def misplacing (n : Node) : List Node :=
  n.outer.filter fun m => decide ¬(m.holdsDeclarations = false → m.isLocalFunc = false →
    ∀ c ∈ m.children, c.declares = false)

/-- A tree is proper if nothing is misplaced in it. -/
theorem misplacing_eq_nil : n.misplacing = [] ↔ n.Proper := by
  simp only [misplacing, List.filter_eq_nil_iff, decide_eq_true_eq, not_not]
  rfl

theorem misplacing_of_holds (hn : n.holdsDeclarations = true) :
    n.misplacing = n.children.flatMap misplacing := by
  rw [misplacing, outer_of_not_isLocalFunc (isLocalFunc_of_holdsDeclarations hn),
    List.filter_cons_of_neg (by simp [hn]), List.filter_flatMap]
  rfl

/-- A local function is inner, whatever stands in it. -/
@[simp] theorem inner_localFunc (span : Span) (f : Method Node) : (localFunc span f).Inner := by
  refine ⟨rfl, fun m hm => ?_⟩
  rw [outer_of_isLocalFunc rfl] at hm
  obtain rfl := List.mem_singleton.mp hm
  exact fun _ h => absurd h Bool.true_eq_false.mp

/-- Below a type there are types only. -/
@[simp] theorem inner_type (t : TypeRef) : (type t).Inner := by
  have hinner (n : Node) : ∀ t, n = type t → n.Inner := by
    induction n using induction_on_children with
    | step n ih =>
      rintro t rfl
      refine .intro rfl fun c hc => ?_
      obtain ⟨a, -, rfl⟩ := List.mem_map.mp hc
      exact ih _ hc a rfl
  exact hinner _ t rfl

@[simp] theorem inner_typeParam (p : TypeParam) : (typeParam p).Inner :=
  .intro rfl fun _ hc => absurd hc List.not_mem_nil

@[simp] theorem inner_constraint (c : Constraint) : (Node.constraint c).Inner := by
  refine .intro rfl fun d hd => ?_
  obtain ⟨t, -, rfl⟩ := List.mem_map.mp hd
  exact inner_type t

@[simp] theorem inner_usingDirective (d : UsingDirective) : (usingDirective d).Inner :=
  .intro rfl fun _ hc => absurd hc List.not_mem_nil

end Node

end CSharpAudit
