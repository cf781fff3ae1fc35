import CSharpAudit.Proofs.Erasure
import CSharpAudit.Proofs.Layouts

/-!
# Nested spans

The nodes below a node cover parts of the text that the node covers. The only exceptions are three
types that are not written in the text: an omitted type argument, the constraint `new()` and the
type that a destructor returns.

A value read by a parser is *laid* between two token indices if the nodes that it holds cover some
of the text between these tokens, in every layout, and if it is the same value in all layouts once
the layout is erased.

## Main definitions

* `Node.nodesBelow` — all nodes directly below a node, those included that no walk reaches
* `Node.Nested` — the spans of a tree are nested
* `Layouts.Fits` — a node lies between two token indices
* `Layouts.Laid` — a value is laid between two token indices

## Main results

* `Layouts.Fits.mono`, `Layouts.Laid.mono` — the indices may be moved apart
* `Layouts.Laid.node` — a node is laid if the nodes below it are
-/

namespace CSharpAudit

/-- `s.Inside t` says that the range of `s` is not empty and lies inside the range of `t`. -/
def Span.Inside (s t : Span) : Prop := s.start < s.stop ∧ s.Within t

/-- The type that stands for the constraint `new()`. -/
def TypeRef.newConstraint : TypeRef := { span := .none, name := "new()" }

/-- The type that a destructor returns, though it is not written. -/
def TypeRef.implicitVoid : TypeRef := { span := .none, name := "void" }

namespace Node

/-- The nodes directly below a node that are no children in a walk. -/
def unvisitedNodes : Node → List Node
  | memberAccess _ _ _ typeArgs _ => typeArgs.map .type
  | delegate d => d.typeParams.map .typeParam
  | _ => []

/-- All nodes directly below a node. -/
def nodesBelow (n : Node) : List Node := n.children ++ n.unvisitedNodes

/-- `n.Synthesises c` says that `c` is a type below `n` that is not written in the text. -/
def Synthesises : Node → Node → Prop
  | type _, c | ident _ _ _, c | memberAccess _ _ _ _ _, c => c = .type .omitted
  | .constraint _, c => c = .type .newConstraint
  | method d, c => d.isDestructor = true ∧ c = .type .implicitVoid
  | _, _ => False

/-- The call of another constructor lies inside the constructor, and its arguments inside it. -/
def ChainedInside : Node → Prop
  | constructor d => ∀ call ∈ d.chained, call.span.Inside d.span ∧
      ∀ a ∈ d.chainedArgs, a.span.Inside call.span
  | _ => True

/-- The spans of a tree are nested. -/
inductive Nested : Node → Prop
  | intro {n : Node} (inside : ∀ c ∈ n.nodesBelow, n.Synthesises c ∨ c.span.Inside n.span)
      (chained : n.ChainedInside) (below : ∀ c ∈ n.nodesBelow, c.Nested) : n.Nested

/-- A type that is not written has no place. -/
theorem Nested.synthesised {n c : Node} (h : n.Synthesises c) : c.Nested := by
  have hc : c = .type .omitted ∨ c = .type .newConstraint ∨ c = .type .implicitVoid := by
    unfold Synthesises at h
    split at h
    all_goals simp_all
  rcases hc with rfl | rfl | rfl
  all_goals
    refine .intro ?_ trivial ?_
    all_goals simp [nodesBelow, children, unvisitedNodes, TypeRef.omitted, TypeRef.newConstraint,
      TypeRef.implicitVoid]

end Node

namespace Layouts

variable {ω : Type} (L : Layouts ω) {w : ω} {i j k l : Nat} {n : Node}

/-- A node that covers some of the text from the token at `j` to the one before `k`. -/
structure Fits (w : ω) (j k : Nat) (n : Node) : Prop where
  start_le : L.start w j ≤ n.span.start
  start_lt_stop : n.span.start < n.span.stop
  stop_le : n.span.stop ≤ L.behind w k
  nested : n.Nested

variable {L}

/-- A node fits in wider bounds. -/
theorem Fits.mono (h : L.Fits w j k n) (hij : i ≤ j) (hkl : k ≤ l) : L.Fits w i l n where
  start_le := Nat.le_trans (L.start_mono w hij) h.start_le
  start_lt_stop := h.start_lt_stop
  stop_le := Nat.le_trans h.stop_le (L.behind_mono w hkl)
  nested := h.nested

/-- A node that covers the text between two indices fits there if all below it does. -/
theorem Fits.intro (hjk : j < k) (hk : k ≤ L.size)
    (hspan : n.span = ⟨L.start w j, L.behind w k⟩)
    (hparts : ∀ c ∈ n.nodesBelow, n.Synthesises c ∨ L.Fits w j k c) (hchained : n.ChainedInside) :
    L.Fits w j k n where
  start_le := Nat.le_of_eq (by rw [hspan])
  start_lt_stop := by rw [hspan]; exact L.start_lt_behind_of_lt w hjk hk
  stop_le := Nat.le_of_eq (by rw [hspan])
  nested := by
    refine .intro (fun c hc => ?_) hchained fun c hc => ?_
    · rw [hspan]
      exact (hparts c hc).imp_right fun h => ⟨h.start_lt_stop, h.start_le, h.stop_le⟩
    · exact (hparts c hc).elim .synthesised Fits.nested

/-- What is below a node and written in the text fits where the node does. -/
theorem Fits.part {c : Node} (h : L.Fits w j k n) (hc : c ∈ n.nodesBelow) (hs : ¬n.Synthesises c) :
    L.Fits w j k c := by
  cases h.nested with
  | intro inside _ below =>
    obtain ⟨hlt, hstart, hstop⟩ := (inside c hc).resolve_left hs
    exact ⟨Nat.le_trans h.start_le hstart, hlt, Nat.le_trans hstop h.stop_le, below c hc⟩

/-- A node that covers the same text as another one fits where that one does. -/
theorem Fits.of_span_eq {m : Node} (h : L.Fits w j k n) (hspan : m.span = n.span)
    (hm : m.Nested) : L.Fits w j k m where
  start_le := by rw [hspan]; exact h.start_le
  start_lt_stop := by rw [hspan]; exact h.start_lt_stop
  stop_le := by rw [hspan]; exact h.stop_le
  nested := hm

end Layouts

/-! ### Values with layout -/

theorem flatMap_singleton_eq_map {α β : Type} (f : α → β) (as : List α) :
    (as.flatMap fun a => [f a]) = as.map f :=
  List.map_eq_flatMap.symm

/-- A type whose values may hold nodes and layout. -/
class Layered (α : Type) where
  /-- The topmost nodes that a value holds. -/
  nodes : α → List Node
  /-- A value without layout. -/
  erase : α → α

/-- A type whose values are nodes of one kind. -/
class NodeKind (α : Type) where
  node : α → Node
  erase : α → α

namespace Layered

instance {α : Type} [NodeKind α] : Layered α := ⟨fun a => [NodeKind.node a], NodeKind.erase⟩

instance : NodeKind Node := ⟨fun n => n, Node.erase⟩
instance : NodeKind TypeRef := ⟨.type, TypeRef.erase⟩
instance : NodeKind (Argument Node) := ⟨.argument, Node.eraseArgument⟩
instance : NodeKind (Attribute Node) := ⟨.attribute, Node.eraseAttribute⟩
instance : NodeKind (Param Node) := ⟨.param, Node.eraseParam⟩
instance : NodeKind (VarDeclarator Node) := ⟨.varDeclarator, Node.eraseVar⟩
instance : NodeKind TypeParam := ⟨.typeParam, TypeParam.erase⟩
instance : NodeKind Constraint := ⟨.constraint, Constraint.erase⟩
instance : NodeKind UsingDirective := ⟨.usingDirective, UsingDirective.erase⟩
instance : NodeKind (Method Node) := ⟨.method, Node.eraseMethod⟩
instance : NodeKind (NamespaceDecl Node) := ⟨.namespaceDecl, Node.eraseNamespace⟩
instance : Layered Token := ⟨fun _ => [], Token.erase⟩
instance : Layered Span := ⟨fun _ => [], fun _ => .none⟩
instance : Layered String := ⟨fun _ => [], id⟩
instance : Layered Unit := ⟨fun _ => [], id⟩

instance {α : Type} [Layered α] : Layered (List α) :=
  ⟨fun as => as.flatMap fun a => nodes a, fun as => as.map fun a => erase a⟩

instance {α : Type} [Layered α] : Layered (Option α) :=
  ⟨fun o => o.toList.flatMap fun a => nodes a, fun o => o.map fun a => erase a⟩

instance {α β : Type} [Layered α] [Layered β] : Layered (α × β) :=
  ⟨fun p => nodes p.1 ++ nodes p.2, fun p => (erase p.1, erase p.2)⟩

end Layered

namespace Layouts

variable {ω α β γ : Type} [Layered α] [Layered β] [Layered γ] (L : Layouts ω)

/-- A value whose nodes fit between two indices and that is `b` without layout. -/
structure Laid (j k : Nat) (a : ω → α) (b : α) : Prop where
  fits : ∀ w, ∀ n ∈ Layered.nodes (a w), L.Fits w j k n
  erase : ∀ w, Layered.erase (a w) = b

variable {L} {i j k l : Nat} {a : ω → α} {b : α} {c : ω → β} {d : β}

namespace Laid

/-- A laid value fits in wider bounds. -/
theorem mono (h : L.Laid j k a b) (hij : i ≤ j) (hkl : k ≤ l) : L.Laid i l a b where
  fits w n hn := (h.fits w n hn).mono hij hkl
  erase := h.erase

/-- A pair is laid if both parts are. -/
theorem pair (ha : L.Laid j k a b) (hc : L.Laid j k c d) :
    L.Laid j k (fun w => (a w, c w)) (b, d) where
  fits w n hn := (List.mem_append.mp hn).elim (ha.fits w n) (hc.fits w n)
  erase w := Prod.ext (ha.erase w) (hc.erase w)

/-- Two values that are read one after the other. -/
theorem andThen (ha : L.Laid i k a b) (hc : L.Laid j l c d) (hij : i ≤ j) (hkl : k ≤ l) :
    L.Laid i l (fun w => (a w, c w)) (b, d) :=
  (ha.mono (Nat.le_refl i) hkl).pair (hc.mono hij (Nat.le_refl l))

theorem fst {p : ω → α × β} {q : α × β} (h : L.Laid j k p q) :
    L.Laid j k (fun w => (p w).1) q.1 where
  fits w n hn := h.fits w n (List.mem_append_left _ hn)
  erase w := congrArg Prod.fst (h.erase w)

theorem snd {p : ω → α × β} {q : α × β} (h : L.Laid j k p q) :
    L.Laid j k (fun w => (p w).2) q.2 where
  fits w n hn := h.fits w n (List.mem_append_right _ hn)
  erase w := congrArg Prod.snd (h.erase w)

theorem none : L.Laid j k (fun _ => Option.none) (Option.none : Option α) where
  fits _ _ hn := absurd hn (by simp [Layered.nodes])
  erase _ := rfl

theorem some (h : L.Laid j k a b) : L.Laid j k (fun w => Option.some (a w)) (Option.some b) where
  fits w n hn := h.fits w n (by simpa [Layered.nodes] using hn)
  erase w := congrArg Option.some (h.erase w)

/-- A value that is kept only if a condition does not hold. -/
theorem keptUnless (h : L.Laid j k a b) (c : Prop) [Decidable c] :
    ∃ d, L.Laid j k (fun w => if c then Option.none else Option.some (a w)) d := by
  by_cases hc : c
  · simp only [hc, if_true]
    exact ⟨_, none⟩
  · simp only [hc, if_false]
    exact ⟨_, h.some⟩

theorem nil : L.Laid j k (fun _ => []) ([] : List α) where
  fits _ _ hn := absurd hn (by simp [Layered.nodes])
  erase _ := rfl

/-- A list is laid if its elements are. -/
theorem cons {as : ω → List α} {bs : List α} (h : L.Laid j k a b) (hs : L.Laid j k as bs) :
    L.Laid j k (fun w => a w :: as w) (b :: bs) where
  fits w n hn := (List.mem_append.mp hn).elim (h.fits w n) (hs.fits w n)
  erase w := by
    have h₁ := h.erase w
    have h₂ := hs.erase w
    simp_all [Layered.erase]

/-- A part of a value is laid where the value is. -/
theorem map {f : α → β} (h : L.Laid j k a b)
    (hfits : ∀ w x, (∀ n ∈ Layered.nodes x, L.Fits w j k n) →
      ∀ n ∈ Layered.nodes (f x), L.Fits w j k n)
    (herase : ∀ x, Layered.erase (f x) = f (Layered.erase x)) :
    L.Laid j k (fun w => f (a w)) (f b) where
  fits w := hfits w (a w) (h.fits w)
  erase w := by rw [herase, h.erase]

/-- A map that keeps places keeps a list laid. -/
theorem listMap {f : α → β} {as : ω → List α} {bs : List α} (h : L.Laid j k as bs)
    (hfits : ∀ w x, (∀ n ∈ Layered.nodes x, L.Fits w j k n) →
      ∀ n ∈ Layered.nodes (f x), L.Fits w j k n)
    (herase : ∀ x, Layered.erase (f x) = f (Layered.erase x)) :
    L.Laid j k (fun w => (as w).map f) (bs.map f) := by
  refine h.map (f := List.map f) (fun w xs hxs n hn => ?_) fun xs => ?_
  · simp only [Layered.nodes, List.flatMap_map, List.mem_flatMap] at hn
    obtain ⟨x, hx, hn⟩ := hn
    exact hfits w x (fun m hm => hxs m (List.mem_flatMap.mpr ⟨x, hx, hm⟩)) n hn
  · simp [Layered.erase, Function.comp_def, ← herase]

/-- A list of lists is laid if the lists are. -/
theorem flatten {as : ω → List (List α)} {bs : List (List α)} (h : L.Laid j k as bs) :
    L.Laid j k (fun w => (as w).flatten) bs.flatten := by
  refine h.map (fun w xs hxs n hn => ?_) fun xs => ?_
  · obtain ⟨x, hx, hn⟩ := List.mem_flatMap.mp hn
    obtain ⟨ys, hys, hx⟩ := List.mem_flatten.mp hx
    exact hxs n (List.mem_flatMap.mpr ⟨ys, hys, List.mem_flatMap.mpr ⟨x, hx, hn⟩⟩)
  · simp [Layered.erase, List.map_flatten]

/-- A token is no part of a tree. -/
theorem token (i : Nat) : L.Laid j k (fun w => L.token w i) (L.lexeme i) :=
  ⟨fun _ _ hn => absurd hn List.not_mem_nil, fun w => L.erase_token w i⟩

theorem span (s : ω → Span) : L.Laid j k s .none :=
  ⟨fun _ _ hn => absurd hn List.not_mem_nil, fun _ => rfl⟩

theorem text (s : String) : L.Laid j k (fun _ => s) s :=
  ⟨fun _ _ hn => absurd hn List.not_mem_nil, fun _ => rfl⟩

theorem unit : L.Laid j k (fun _ => ()) () :=
  ⟨fun _ _ hn => absurd hn List.not_mem_nil, fun _ => rfl⟩

end Laid

end Layouts

end CSharpAudit
