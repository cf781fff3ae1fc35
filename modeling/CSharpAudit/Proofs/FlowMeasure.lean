import CSharpAudit.Flow.Measure
import CSharpAudit.Proofs.Cursors
import CSharpAudit.Proofs.MetricCounts
import Mathlib.Order.Bounds.Defs

/-!
# How control flow is measured

The branches of a body are counted from the leaves of its tree upwards, and so is the depth to which
they are nested. Seen from the root, the branches are those among all nodes of the body, and the
depth is the largest number of branches on the way to a node.

A visitor that walks over the body gets the same numbers. It is told of each node when the node is
entered and when it is left, and keeps on a stack which of the nodes it is inside of are branches.

## Main definitions

* `Node.chain` — the nodes from an address up to the root
* `Node.functionBodies` — the bodies of a lambda and of a local function
* `Metering.Meter` — a visitor that measures control flow

## Main results

* `Node.count_branches` — the branches of a tree are found among its nodes
* `Node.countP_chain_add_le`, `Node.exists_countP_chain_eq` — the nesting of a tree is the largest
  number of branches on the way to a node
* `Metering.Balanced.run` — the stack holds what has been entered and not been left
* `Metering.measure_events` — a visitor adds the measures of a tree to what it has measured before
* `control_flow_measured` — the visitor and the tree agree on the control flow of a body
-/

namespace CSharpAudit

/-! ### Depths -/

theorem foldl_max_cons (a : Nat) (l : List Nat) :
    (a :: l).foldl max 0 = max a (l.foldl max 0) := by
  rw [List.foldl_cons, Nat.max_comm]
  exact List.foldl_assoc

/-- A maximum is at least each of its elements. -/
theorem le_foldl_max {a : Nat} {l : List Nat} (ha : a ∈ l) : a ≤ l.foldl max 0 := by
  induction l with
  | nil => simp at ha
  | cons b l ih =>
    rw [foldl_max_cons]
    rcases List.mem_cons.mp ha with rfl | ha
    · exact Nat.le_max_left _ _
    · exact Nat.le_trans (ih ha) (Nat.le_max_right _ _)

/-- A maximum is one of its elements, or zero. -/
theorem foldl_max_eq_zero_or_mem (l : List Nat) : l.foldl max 0 = 0 ∨ l.foldl max 0 ∈ l := by
  induction l with
  | nil => exact .inl rfl
  | cons a l ih =>
    rw [foldl_max_cons]
    rcases max_choice a (l.foldl max 0) with h | h
    · exact .inr (by rw [h]; exact List.mem_cons_self)
    · rw [h]
      exact ih.imp_right (List.mem_cons_of_mem a)

namespace Node

variable {body n c : Node} {address : Address} {i : Nat}

/-! ### Branches of a tree -/

/-- One for a branch. -/
def ownBranch (n : Node) : Nat := if n.isBranch then 1 else 0

/-- The deepest nesting below a node. -/
def nestingBelow (n : Node) : Nat := (n.children.map nesting).foldl max 0

/-- Nesting counts a branch itself and the deepest of what is below it. -/
theorem nesting_eq (n : Node) : n.nesting = n.ownBranch + n.nestingBelow := by
  rw [nesting, branches, fold_eq, nestingBelow]
  simp only [List.map_map]
  rfl

/-- The count of branches adds up a branch itself and all below it. -/
theorem count_branches_eq (n : Node) :
    n.branches.count = n.ownBranch + totalOf (fun c => c.branches.count) n.children := by
  have htotal (cs : List Node) : totalOf Branches.count (cs.map branches) =
      totalOf (fun c => c.branches.count) cs := by
    induction cs with
    | nil => rfl
    | cons c cs ih => rw [List.map_cons, totalOf_cons, totalOf_cons, ih]
  rw [← htotal, branches, fold_eq]
  rfl

/-- The branches of a tree are found among its nodes. -/
theorem count_branches (n : Node) : n.branches.count = n.nodes.countP isBranch := by
  have hown (m : Node) : m.ownBranch = if m.isBranch then 1 else 0 := rfl
  rw [← totalOf_eq_countP hown]
  induction n using induction_on_children with
  | step n ih =>
    rw [count_branches_eq, nodes_eq, totalOf_cons, totalOf_flatMap, totalOf_congr ih]

theorem nesting_le_nestingBelow (hc : c ∈ n.children) : c.nesting ≤ n.nestingBelow :=
  le_foldl_max (List.mem_map_of_mem hc)

/-! ### The way to a node -/

/-- The nodes from an address up to the root. -/
def chain (root : Node) (address : Address) : List Node := address.tails.filterMap root.at?

theorem chain_root (root : Node) : root.chain [] = [root] := rfl

/-- The way to a child goes on by one node. -/
theorem chain_cons (h : body.at? (i :: address) = some n) :
    body.chain (i :: address) = n :: body.chain address := by
  rw [chain, List.tails, List.filterMap_cons_some h]
  rfl

/-- A branch counts on the way to all below it. -/
theorem countP_chain_cons (h : body.at? (i :: address) = some n) :
    (body.chain (i :: address)).countP isBranch =
      n.ownBranch + (body.chain address).countP isBranch := by
  rw [chain_cons h, List.countP_cons, Nat.add_comm]
  rfl

theorem at?_child (hat : body.at? address = some n) (hc : n.children[i]? = some c) :
    body.at? (i :: address) = some c := by
  rw [at?, hat, Option.bind_some, hc]

/-- What is nested below a node is nested in the branches on the way to the node. -/
theorem countP_chain_add_le (hat : body.at? address = some n) :
    (body.chain address).countP isBranch + n.nestingBelow ≤ body.nesting := by
  induction address generalizing n with
  | nil =>
    obtain rfl := Option.some.inj hat
    rw [chain_root, nesting_eq, List.countP_cons, List.countP_nil, Nat.zero_add]
    exact Nat.le_refl _
  | cons i address ih =>
    obtain ⟨p, hp, hn⟩ := Option.bind_eq_some_iff.mp hat
    have hle : n.ownBranch + n.nestingBelow ≤ p.nestingBelow :=
      nesting_eq n ▸ nesting_le_nestingBelow (List.mem_of_getElem? hn)
    have hparent := ih hp
    rw [countP_chain_cons hat]
    omega

/-- On the way to some node below a given one lie as many branches as are nested below that. -/
theorem exists_countP_chain_eq (hat : body.at? address = some n) :
    ∃ below m, body.at? below = some m ∧ (body.chain below).countP isBranch =
      (body.chain address).countP isBranch + n.nestingBelow := by
  induction n using induction_on_children generalizing address with
  | step n ih =>
    rcases foldl_max_eq_zero_or_mem (n.children.map nesting) with hzero | hmem
    · exact ⟨address, n, hat, by rw [nestingBelow, hzero, Nat.add_zero]⟩
    · -- the deepest of the children leads on
      obtain ⟨c, hc, hdeepest⟩ := List.mem_map.mp hmem
      obtain ⟨i, hi⟩ := List.mem_iff_getElem?.mp hc
      have hchild := at?_child hat hi
      obtain ⟨below, m, hm, hcount⟩ := ih c hc hchild
      refine ⟨below, m, hm, ?_⟩
      have hnesting : c.ownBranch + c.nestingBelow = n.nestingBelow :=
        (nesting_eq c).symm.trans hdeepest
      rw [hcount, countP_chain_cons hchild]
      omega

/-- The nesting of a body is the largest number of branches on the way to a node. -/
theorem isGreatest_nesting (body : Node) : IsGreatest
    {k | ∃ address n, body.at? address = some n ∧ (body.chain address).countP isBranch = k}
    body.nesting := by
  have hroot : body.at? [] = some body := rfl
  constructor
  · obtain ⟨below, m, hm, hcount⟩ := exists_countP_chain_eq hroot
    have hown : (body.chain []).countP isBranch = body.ownBranch := by
      rw [chain_root, List.countP_cons, List.countP_nil, Nat.zero_add]
      rfl
    exact ⟨below, m, hm, by rw [hcount, hown, nesting_eq]⟩
  · rintro k ⟨address, n, hat, rfl⟩
    exact Nat.le_trans (Nat.le_add_right _ _) (countP_chain_add_le hat)

/-! ### Functions in a body -/

/-- The bodies of a lambda and of a local function. -/
def functionBodies : Node → List Node
  | lambda _ _ body _ => [body]
  | localFunc _ f => f.body.toList ++ f.exprBody.toList
  | _ => []

/-- What is below a child is below the node. -/
theorem nodes_sublist_of_mem_children (hc : c ∈ n.children) : c.nodes.Sublist n.nodes := by
  rw [nodes_eq n, List.flatMap]
  exact (List.sublist_flatten_of_mem (List.mem_map_of_mem hc)).cons n

/-- The nodes below an address are nodes of the tree. -/
theorem nodes_sublist_of_at? (hat : body.at? address = some n) : n.nodes.Sublist body.nodes := by
  induction address generalizing n with
  | nil =>
    obtain rfl := Option.some.inj hat
    exact .refl _
  | cons i address ih =>
    obtain ⟨p, hp, hn⟩ := Option.bind_eq_some_iff.mp hat
    exact (nodes_sublist_of_mem_children (List.mem_of_getElem? hn)).trans (ih hp)

/-- The body of a function is a child of the lambda, or of the method that a local function is. -/
theorem exists_child_of_mem_functionBodies (hc : c ∈ n.functionBodies) :
    c ∈ n.children ∨ ∃ f, n.children = [method f] ∧ c ∈ (method f).children := by
  cases n with
  | lambda s params body isAsync =>
    obtain rfl := List.mem_singleton.mp hc
    exact .inl (List.mem_append_right _ List.mem_cons_self)
  | localFunc s f =>
    refine .inr ⟨f, rfl, ?_⟩
    rcases List.mem_append.mp hc with hc | hc
    · simp_all [children]
    · simp_all [children]
  | _ => simp [functionBodies] at hc

/-- Where a function stands in a body, the branches of the function are branches of the body, nested
in those around the function. -/
theorem function_folded (hat : body.at? address = some n) (hc : c ∈ n.functionBodies) :
    c.nodes.Sublist body.nodes ∧
      (body.chain address).countP isBranch + c.nesting ≤ body.nesting := by
  rcases exists_child_of_mem_functionBodies hc with hc | ⟨f, hchildren, hc⟩
  · refine ⟨(nodes_sublist_of_mem_children hc).trans (nodes_sublist_of_at? hat), ?_⟩
    have hbelow := nesting_le_nestingBelow hc
    have hle := countP_chain_add_le hat
    omega
  · -- the method in between is no branch
    have hmethod : body.at? (0 :: address) = some (method f) :=
      at?_child hat (by rw [hchildren]; rfl)
    refine ⟨(nodes_sublist_of_mem_children hc).trans (nodes_sublist_of_at? hmethod), ?_⟩
    have hbelow := nesting_le_nestingBelow hc
    have hle := countP_chain_add_le hmethod
    rw [countP_chain_cons hmethod, show (method f).ownBranch = 0 from rfl] at hle
    omega

/-- The `else` part of an `if` is nested in it, an `if` in this place included. -/
theorem nesting_ifStmt (s : Span) (cond thenBranch elseBranch : Node) :
    (ifStmt s cond thenBranch (some elseBranch)).nesting =
      1 + max cond.nesting (max thenBranch.nesting elseBranch.nesting) := by
  rw [nesting_eq, nestingBelow, show (ifStmt s cond thenBranch (some elseBranch)).children =
    [cond, thenBranch, elseBranch] from rfl]
  simp only [List.map_cons, List.map_nil, foldl_max_cons, List.foldl_nil, Nat.max_zero]
  rfl

end Node

/-! ### A visitor that measures -/

/-- A visitor is told that a node is entered. -/
def Framing.Event.isEnter : Framing.Event → Bool
  | .enter _ _ => true
  | .leave => false

@[simp] theorem Framing.isEnter_enter (address : Address) (n : Node) :
    (Event.enter address n).isEnter = true := rfl

@[simp] theorem Framing.isEnter_leave : Event.leave.isEnter = false := rfl

namespace Metering

open Framing (events)

/-- What a visitor has measured so far, and where it is. -/
structure Meter where
  complexity : Int := 1
  /-- The number of branches that the visitor is inside of. -/
  depth : Int := 0
  maxDepth : Int := 0
  /-- Which of the nodes that the visitor is inside of are branches, the innermost in front. -/
  branches : List Bool := []
  deriving DecidableEq

/-- A visitor counts each branch that it enters, and counts it as left when it leaves the node.
There must be a node to leave. -/
def Meter.step (m : Meter) : Framing.Event → Option Meter
  | .enter _ n =>
    if n.isBranch then
      some {
        complexity := m.complexity + 1
        depth := m.depth + 1
        maxDepth := max m.maxDepth (m.depth + 1)
        branches := true :: m.branches }
    else some { m with branches := false :: m.branches }
  | .leave =>
    match m.branches with
    | [] => none
    | branch :: branches => some { m with depth := if branch then m.depth - 1 else m.depth, branches }

/-- The stack holds the nodes that have been entered and not been left, and the depth is the number
of branches among them. -/
structure Balanced (told : List Framing.Event) (m : Meter) : Prop where
  entered : told.countP (·.isEnter) = m.branches.length + told.countP (!·.isEnter)
  depth_eq : m.depth = m.branches.count true

theorem Balanced.start : Balanced [] {} := ⟨rfl, rfl⟩

variable {told later : List Framing.Event} {m m' : Meter}

/-- The visitor pushes as often as it enters and pops as often as it leaves. -/
theorem Balanced.step {e : Framing.Event} (h : Balanced told m) (hstep : m.step e = some m') :
    Balanced (told ++ [e]) m' := by
  obtain ⟨hentered, hdepth⟩ := h
  cases e with
  | enter address n =>
    -- a branch and any other node are both put on the stack
    cases hn : n.isBranch with
    | true =>
      obtain rfl : _ = m' := by simpa [Meter.step, hn] using hstep
      constructor
      · simp [hentered, Nat.add_right_comm]
      · simp [hdepth]
    | false =>
      obtain rfl : _ = m' := by simpa [Meter.step, hn] using hstep
      constructor
      · simp [hentered, Nat.add_right_comm]
      · simp [hdepth]
  | leave =>
    obtain ⟨complexity, depth, maxDepth, branches⟩ := m
    cases branches with
    | nil => simp [Meter.step] at hstep
    | cons branch branches =>
      obtain rfl : _ = m' := by simpa [Meter.step] using hstep
      constructor
      · simp at hentered ⊢
        omega
      · cases branch with
        | true => simp_all
        | false => simp_all

/-- At any time, the stack holds what has been entered and not been left. -/
theorem Balanced.run (h : Balanced told m) (hrun : later.foldlM Meter.step m = some m') :
    Balanced (told ++ later) m' := by
  induction later generalizing told m with
  | nil =>
    obtain rfl := Option.some.inj hrun
    rwa [List.append_nil]
  | cons e later ih =>
    rw [List.foldlM_cons] at hrun
    obtain ⟨m₁, hstep, hrun⟩ := Option.bind_eq_some_iff.mp hrun
    have hall := ih (h.step hstep) hrun
    rwa [List.append_assoc] at hall

/-- What a visitor has measured once it is behind a tree. -/
def Meter.behind (m : Meter) (count depth : Nat) : Meter :=
  { m with
    complexity := m.complexity + count
    maxDepth := max m.maxDepth (m.depth + depth) }

theorem Meter.behind_zero (hm : m.depth ≤ m.maxDepth) : m.behind 0 0 = m := by
  obtain ⟨complexity, depth, maxDepth, branches⟩ := m
  simp only [behind, Meter.mk.injEq]
  exact ⟨Int.add_zero complexity, trivial, by simpa using hm, trivial⟩

/-- One subtree behind another adds to the count, and the deeper one decides. -/
theorem Meter.behind_behind (m : Meter) (count depth count' depth' : Nat) :
    (m.behind count depth).behind count' depth' =
      m.behind (count + count') (max depth depth') := by
  simp only [behind, Meter.mk.injEq]
  refine ⟨?_, trivial, ?_, trivial⟩
  all_goals
    push_cast
    omega

/-- Before a tree and behind it, a visitor has the same nodes on its stack. In between it adds up
the branches of the tree and goes as deep as these are nested. -/
theorem measure_events (n : Node) (address : Address) (hm : m.depth ≤ m.maxDepth) :
    (events n address).foldlM Meter.step m =
      some (m.behind n.branches.count n.branches.depth) := by
  induction n using Node.induction_on_children generalizing address m with
  | step n ih =>
    -- the children add up, and each of them starts at the depth at which the first one does
    have hchildren : ∀ cs : List Node, (∀ c ∈ cs, c ∈ n.children) → ∀ (i : Nat) (m : Meter),
        m.depth ≤ m.maxDepth →
          ((cs.zipIdx i).flatMap fun c => events c.1 (c.2 :: address)).foldlM Meter.step m =
            some (m.behind (totalOf (fun c => c.branches.count) cs)
              ((cs.map Node.nesting).foldl max 0)) := by
      intro cs hcs
      induction cs with
      | nil =>
        intro i m hm
        exact congrArg some (Meter.behind_zero hm).symm
      | cons c cs ihcs =>
        intro i m hm
        rw [List.zipIdx_cons, List.flatMap_cons, List.foldlM_append,
          ih c (hcs c List.mem_cons_self) _ hm, Option.bind_eq_bind, Option.bind_some,
          ihcs (fun d hd => hcs d (List.mem_cons_of_mem c hd)) _ _ (le_max_of_le_left hm),
          Meter.behind_behind, totalOf_cons, List.map_cons, foldl_max_cons]
        rfl
    have hbelow := hchildren n.children (fun _ hc => hc) 0
    rw [Framing.events_eq, Node.count_branches_eq, show n.branches.depth = n.nesting from rfl,
      Node.nesting_eq]
    simp only [List.cons_append, List.foldlM_cons, List.foldlM_append, List.foldlM_nil,
      Option.bind_eq_bind]
    -- the depth is back where it was once the node is left
    cases hn : n.isBranch with
    | true =>
      have hdepth : m.depth + 1 ≤ max m.maxDepth (m.depth + 1) := le_max_right _ _
      simp only [Meter.step, hn, if_true, Option.bind_some]
      rw [hbelow _ hdepth]
      simp only [Option.bind_some, Meter.behind, Node.ownBranch, hn, if_true, Node.nestingBelow]
      refine congrArg some ?_
      simp only [Meter.mk.injEq]
      refine ⟨?_, ?_, ?_, trivial⟩
      all_goals
        push_cast
        omega
    | false =>
      simp only [Meter.step, hn, Bool.false_eq_true, if_false, Option.bind_some]
      rw [hbelow { m with branches := false :: m.branches } hm]
      simp [Meter.behind, Node.ownBranch, hn, Node.nestingBelow]

end Metering

/-- A visitor that walks over a body is told to leave as many nodes as it enters. At any time its
stack holds those that it has not left, and in the end nothing. It has then counted the branches
among the nodes of the body and found the largest number of branches on the way to a node. So the
`else` part of an `if` is nested in the `if`, and the branches of lambdas and local functions are
nested in those around them. -/
theorem control_flow_measured (body : Node) :
    let told := Framing.events body []
    told.foldlM Metering.Meter.step {} = some ⟨body.complexity, 0, body.nesting, []⟩ ∧
    told.countP (·.isEnter) = told.countP (!·.isEnter) ∧
    (∀ before later, told = before ++ later → ∃ m, before.foldlM Metering.Meter.step {} = some m ∧
      Metering.Balanced before m) ∧
    body.complexity = 1 + body.nodes.countP Node.isBranch ∧
    IsGreatest {k | ∃ address n, body.at? address = some n ∧
      (body.chain address).countP Node.isBranch = k} body.nesting ∧
    (∀ s cond thenBranch elseBranch,
      (Node.ifStmt s cond thenBranch (some elseBranch)).nesting =
        1 + max cond.nesting (max thenBranch.nesting elseBranch.nesting)) ∧
    ∀ address n, body.at? address = some n → ∀ inner ∈ n.functionBodies,
      inner.nodes.Sublist body.nodes ∧
        (body.chain address).countP Node.isBranch + inner.nesting ≤ body.nesting := by
  intro told
  have hrun : told.foldlM Metering.Meter.step {} =
      some ⟨body.complexity, 0, body.nesting, []⟩ := by
    -- The meter counts with signs, so the two numbers are compared as integers.
    have hcount : (1 : Int) + body.branches.count = body.complexity := by
      rw [Node.complexity]
      omega
    have hdepth : max (0 : Int) (0 + body.branches.depth) = body.nesting := by
      rw [Node.nesting]
      omega
    refine (Metering.measure_events body [] (Int.le_refl 0)).trans (congrArg some ?_)
    show (⟨1 + body.branches.count, 0, max 0 (0 + body.branches.depth), []⟩ : Metering.Meter) = _
    rw [hcount, hdepth]
  refine ⟨hrun, ?_, ?_, ?_, body.isGreatest_nesting, Node.nesting_ifStmt, ?_⟩
  · exact (Metering.Balanced.start.run hrun).entered.trans (Nat.zero_add _)
  · intro before later htold
    -- The whole run succeeds, so the run over any beginning of it does.
    rw [htold, List.foldlM_append] at hrun
    obtain ⟨m, hm, -⟩ := Option.bind_eq_some_iff.mp hrun
    exact ⟨m, hm, Metering.Balanced.start.run hm⟩
  · rw [Node.complexity, Node.count_branches, Nat.add_comm]
  · intro address n hat inner hinner
    exact Node.function_folded hat hinner

end CSharpAudit
