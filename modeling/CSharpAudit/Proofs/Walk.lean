import CSharpAudit.Syntax.Walk
import Mathlib.Data.List.Nodup

/-!
# What a walk visits

A walk visits the root, and with a node that hands something down the children of that node. Each
visited node has its own address, and the address leads from the root to the node.

A walk comes to a node before it comes to the nodes below it, and it is done with all that is below
a child before it comes to the next child. So the addresses tell the order of a walk, whatever the
walk hands down: read from the root, they are in the order of a dictionary. All that a walk visits
between two nodes below an address is below that address too.

## Main definitions

* `Node.Visited` — the visits of a walk, built from the root downwards
* `Node.at?` — the node at an address
* `Node.reached` — the nodes of a tree that are reached through nodes that pass a test
* `Address.Before` — a place is visited before another one

## Main results

* `Node.mem_visits_iff` — a walk lists what it visits
* `Node.nodup_addresses` — no two visits have the same address
* `Node.map_node_visits_eq_reached` — where a walk goes on is all that its nodes depend on
* `Node.Visited.at?_eq` — a visited node stands at its address
* `Address.within_of_between` — between two places below an address all places are below it
* `Node.pairwise_before_visits` — a walk visits nodes in the order of their addresses
-/

namespace CSharpAudit

namespace Node

/-- The node at an address, if the tree has one there. -/
def at? (root : Node) : Address → Option Node
  | [] => some root
  | i :: address => (root.at? address).bind fun n => n.children[i]?

variable {σ : Type} {enter : Visit σ → Option σ}

variable (enter) in
/-- A walk visits its root, and the children of each visited node that hands something down. -/
inductive Visited (root : Visit σ) : Visit σ → Prop
  | root : Visited root root
  | child {v : Visit σ} {below : σ} {i : Nat} {c : Node} (hv : Visited root v)
      (henter : enter v = some below) (hc : v.node.children[i]? = some c) :
      Visited root ⟨i :: v.address, below, c⟩

theorem Visited.trans {u v w : Visit σ} (h : Visited enter u v) (h' : Visited enter v w) :
    Visited enter u w := by
  induction h' with
  | root => exact h
  | child _ henter hc ih => exact .child ih henter hc

/-- A visited node stands at its address. -/
theorem Visited.at?_eq {n : Node} {s : σ} {v : Visit σ} (h : Visited enter ⟨[], s, n⟩ v) :
    n.at? v.address = some v.node := by
  induction h with
  | root => rfl
  | child _ _ hc ih => rw [at?, ih, Option.bind_some, hc]

/-- A node below another one has an address that ends in the address of the other. -/
theorem Visited.suffix {u v : Visit σ} (h : Visited enter u v) : u.address <:+ v.address := by
  induction h with
  | root => exact List.suffix_refl _
  | child _ _ _ ih => exact ih.trans (List.suffix_cons _ _)

/-! ### The list of visits -/

theorem visits_eq (n : Node) (s : σ) (address : Address) :
    n.visits enter s address = ⟨address, s, n⟩ :: (enter ⟨address, s, n⟩).elim [] fun below =>
      n.children.zipIdx.flatMap fun c => c.1.visits enter below (c.2 :: address) := by
  have hzip : n.children.zipIdx = n.children.attach.zipIdx.map (Prod.map Subtype.val id) := by
    rw [← List.zipIdx_map, List.attach_map_subtype_val]
  rw [visits]
  cases enter ⟨address, s, n⟩ with
  | none => rfl
  | some below => simp only [Option.elim_some, hzip, List.flatMap_map, Prod.map_fst, Prod.map_snd, id]

theorem mem_visits_self (n : Node) (s : σ) (address : Address) :
    ⟨address, s, n⟩ ∈ n.visits enter s address := by
  rw [visits_eq]
  exact List.mem_cons_self

/-- What is visited from a child is visited from its parent. -/
theorem visits_child_subset {n c : Node} {s below : σ} {i : Nat} {address : Address}
    (henter : enter ⟨address, s, n⟩ = some below) (hc : n.children[i]? = some c) :
    c.visits enter below (i :: address) ⊆ n.visits enter s address := by
  intro v hv
  rw [visits_eq, henter, Option.elim_some]
  exact List.mem_cons_of_mem _
    (List.mem_flatMap.mpr ⟨(c, i), List.mem_zipIdx_iff_getElem?.mpr hc, hv⟩)

theorem mem_visits_cases {n : Node} {s : σ} {address : Address} {v : Visit σ}
    (h : v ∈ n.visits enter s address) : v = ⟨address, s, n⟩ ∨ ∃ (below : σ) (i : Nat) (c : Node),
      enter ⟨address, s, n⟩ = some below ∧ n.children[i]? = some c ∧
        v ∈ c.visits enter below (i :: address) := by
  rw [visits_eq] at h
  rcases List.mem_cons.mp h with h | h
  · exact .inl h
  · cases henter : enter ⟨address, s, n⟩ with
    | none => simp [henter] at h
    | some below =>
      rw [henter, Option.elim_some] at h
      obtain ⟨⟨c, i⟩, hc, hv⟩ := List.mem_flatMap.mp h
      exact .inr ⟨below, i, c, rfl, List.mem_zipIdx_iff_getElem?.mp hc, hv⟩

theorem visited_of_mem_visits {n : Node} : ∀ {s : σ} {address : Address} {v : Visit σ},
    v ∈ n.visits enter s address → Visited enter ⟨address, s, n⟩ v := by
  induction n using induction_on_children with
  | step n ih =>
    intro s address v hv
    rcases mem_visits_cases hv with rfl | ⟨below, i, c, henter, hc, hv⟩
    · exact .root
    · exact (Visited.child .root henter hc).trans (ih c (List.mem_of_getElem? hc) hv)

/-- The visits that start at a visited node are all listed. -/
theorem visits_subset {n : Node} : ∀ {s : σ} {address : Address} {v : Visit σ},
    v ∈ n.visits enter s address →
      v.node.visits enter v.inherited v.address ⊆ n.visits enter s address := by
  induction n using induction_on_children with
  | step n ih =>
    intro s address v hv
    rcases mem_visits_cases hv with rfl | ⟨below, i, c, henter, hc, hv⟩
    · exact List.Subset.refl _
    · exact List.Subset.trans (ih c (List.mem_of_getElem? hc) hv) (visits_child_subset henter hc)

/-- A walk lists what it visits. -/
theorem mem_visits_iff {n : Node} {s : σ} {address : Address} {v : Visit σ} :
    v ∈ n.visits enter s address ↔ Visited enter ⟨address, s, n⟩ v := by
  refine ⟨visited_of_mem_visits, fun h => ?_⟩
  induction h with
  | root => exact mem_visits_self n s address
  | child hv henter hc ih =>
    exact visits_subset ih (visits_child_subset henter hc (mem_visits_self _ _ _))

/-- Different visits have different addresses. -/
theorem nodup_addresses (n : Node) (s : σ) (address : Address) :
    ((n.visits enter s address).map (·.address)).Nodup := by
  induction n using induction_on_children generalizing s address with
  | step n ih =>
    -- all that is visited from a child has an address that ends in that of the child
    have hsuffix {c : Node} {below : σ} {i : Nat} {a : Address}
        (ha : a ∈ (c.visits enter below (i :: address)).map (·.address)) : i :: address <:+ a := by
      obtain ⟨v, hv, rfl⟩ := List.mem_map.mp ha
      exact (visited_of_mem_visits hv).suffix
    rw [visits_eq, List.map_cons]
    cases enter ⟨address, s, n⟩ with
    | none => simp
    | some below =>
      rw [Option.elim_some, List.map_flatMap, List.nodup_cons, List.nodup_flatMap]
      refine ⟨fun h => ?_, fun c hc => ?_, ?_⟩
      · obtain ⟨c, -, ha⟩ := List.mem_flatMap.mp h
        exact Nat.not_succ_le_self _ (hsuffix ha).length_le
      · exact ih c.1 (List.fst_mem_of_mem_zipIdx hc) below (c.2 :: address)
      · have hne : n.children.zipIdx.Pairwise fun c d => c.2 ≠ d.2 := by
          rw [← List.pairwise_map (R := (· ≠ ·)), List.zipIdx_map_snd]
          exact List.nodup_range'
        refine hne.imp fun hcd => List.disjoint_left.mpr fun a hc hd => hcd ?_
        have hwithin := List.suffix_of_suffix_length_le (hsuffix hc) (hsuffix hd) (Nat.le_refl _)
        exact (List.cons.inj (hwithin.eq_of_length rfl)).1

/-! ### The nodes of a walk -/

/-- The nodes of a tree that are reached through nodes that pass a test. -/
def reached (through : Node → Bool) (n : Node) : List Node :=
  n.fold fun n below => n :: if through n then below.flatten else []

theorem reached_eq (through : Node → Bool) (n : Node) : n.reached through =
    n :: if through n then n.children.flatMap (reached through) else [] := by
  rw [reached, fold_eq]
  rfl

/-- A walk lists the nodes that are reached through those behind which it goes on. -/
theorem map_node_visits_eq_reached (through : Node → Bool)
    (henter : ∀ v, (enter v).isSome = through v.node) (n : Node) (s : σ) (address : Address) :
    (n.visits enter s address).map (·.node) = n.reached through := by
  -- along the tree; below a node along its children, each with what is handed down to it
  induction n using induction_on_children generalizing s address with
  | step n ih =>
    have hchildren : ∀ (cs : List Node), (∀ c ∈ cs, c ∈ n.children) → ∀ (t : σ) (i : Nat),
        ((cs.zipIdx i).flatMap fun c => c.1.visits enter t (c.2 :: address)).map (·.node) =
          cs.flatMap (reached through) := by
      intro cs hcs
      induction cs with
      | nil => intro t i; rfl
      | cons c cs ihcs =>
        intro t i
        rw [List.zipIdx_cons, List.flatMap_cons, List.map_append, List.flatMap_cons,
          ih c (hcs c List.mem_cons_self),
          ihcs (fun d hd => hcs d (List.mem_cons_of_mem c hd))]
    rw [visits_eq, reached_eq, List.map_cons, ← henter ⟨address, s, n⟩]
    cases enter ⟨address, s, n⟩ with
    | none => rfl
    | some below =>
      rw [Option.elim_some, hchildren _ fun _ hc => hc]
      rfl

end Node

/-! ### The order of a walk -/

namespace Address

variable {a b c root : Address} {i j : Nat}

/-- A place is visited before another one. -/
def Before (a b : Address) : Prop := a.reverse < b.reverse

instance : DecidableRel Before := fun a b => inferInstanceAs (Decidable (a.reverse < b.reverse))

theorem not_before_self : ¬Before a a := List.lt_irrefl _

theorem Before.trans (h : Before a b) (h' : Before b c) : Before a c := List.lt_trans h h'

theorem Before.not_before (h : Before a b) : ¬Before b a := fun h' => not_before_self (h.trans h')

theorem before_trichotomy (a b : Address) : Before a b ∨ a = b ∨ Before b a := by
  rcases Std.lt_trichotomy a.reverse b.reverse with h | h | h
  · exact .inl h
  · exact .inr (.inl (List.reverse_inj.mp h))
  · exact .inr (.inr h)

/-- A place comes before those below it. -/
theorem before_of_suffix (h : a <:+ b) (hne : a ≠ b) : Before a b := by
  obtain ⟨l, rfl⟩ := h
  have hl : l.reverse ≠ [] := by
    rintro hnil
    exact hne (by rw [List.reverse_eq_nil_iff.mp hnil, List.nil_append])
  obtain ⟨i, l', hcons⟩ := List.exists_cons_of_ne_nil hl
  rw [Before, List.reverse_append, hcons]
  exact (List.append_nil a.reverse ▸ List.append_left_lt (List.nil_lt_cons i l') :)

/-- What is below a child comes before what is below a later one. -/
theorem before_of_children (hij : i < j) (ha : i :: root <:+ a) (hb : j :: root <:+ b) :
    Before a b := by
  obtain ⟨l, rfl⟩ := ha
  obtain ⟨l', rfl⟩ := hb
  simp only [Before, List.reverse_append, List.reverse_cons, List.append_assoc]
  refine List.append_left_lt ?_
  exact List.cons_lt_cons_iff.mpr (.inl hij)

theorem pairwise_zipIdx {α : Type} (l : List α) : l.zipIdx.Pairwise fun c d => c.2 < d.2 := by
  rw [← List.pairwise_map (R := (· < ·)), List.zipIdx_map_snd]
  exact List.pairwise_lt_range'

/-- What lies in the order of a dictionary between two continuations of a list continues it. -/
theorem prefix_of_between {p s t x : List Nat} (h : p ++ s < x) (h' : x < p ++ t) : p <+: x := by
  induction p generalizing x with
  | nil => exact List.nil_prefix
  | cons i p ih =>
    cases x with
    | nil => exact absurd h (List.not_lt_nil _)
    | cons j x =>
      rw [List.cons_append, List.cons_lt_cons_iff] at h h'
      -- neither comparison is decided by the first numbers, so they agree
      obtain ⟨rfl, hx⟩ : i = j ∧ p ++ s < x := by
        rcases h with hij | h
        · rcases h' with hji | ⟨rfl, -⟩ <;> omega
        · exact h
      have hx' : x < p ++ t := by
        rcases h' with hji | h'
        · omega
        · exact h'.2
      exact List.cons_prefix_cons.mpr ⟨rfl, ih hx hx'⟩

/-- Between two places below an address all places are below it. -/
theorem within_of_between (ha : root <:+ a) (hc : root <:+ c) (hab : Before a b)
    (hbc : Before b c) : root <:+ b := by
  obtain ⟨l, rfl⟩ := ha
  obtain ⟨l', rfl⟩ := hc
  rw [Before, List.reverse_append] at hab hbc
  exact List.reverse_prefix.mp (prefix_of_between hab hbc)

end Address

namespace Node

open Address (Before)

variable {σ : Type} {enter : Visit σ → Option σ} {n : Node} {s : σ} {address : Address}
  {front back : List (Visit σ)} {v w : Visit σ}

variable (enter) in
/-- A walk visits nodes in the order of their addresses. -/
theorem pairwise_before_visits (n : Node) (s : σ) (address : Address) :
    (n.visits enter s address).Pairwise fun v w => Before v.address w.address := by
  induction n using induction_on_children generalizing s address with
  | step n ih =>
    have hbelow {c : Node} {below : σ} {i : Nat} {v : Visit σ}
        (hv : v ∈ c.visits enter below (i :: address)) : i :: address <:+ v.address :=
      (visited_of_mem_visits hv).suffix
    rw [visits_eq, List.pairwise_cons]
    cases enter ⟨address, s, n⟩ with
    | none => simp
    | some below =>
      -- the node comes before what is below it, each child is in order by itself, and the places
      -- below two children are told apart by the indices of the children
      rw [Option.elim_some, List.pairwise_flatMap]
      refine ⟨fun v hv => ?_, fun c hc => ih c.1 (List.fst_mem_of_mem_zipIdx hc) below _, ?_⟩
      · obtain ⟨c, -, hv⟩ := List.mem_flatMap.mp hv
        have hsuffix := hbelow hv
        refine Address.before_of_suffix ((List.suffix_cons c.2 address).trans hsuffix) ?_
        rintro rfl
        exact absurd hsuffix.length_le (by simp)
      · exact (Address.pairwise_zipIdx n.children).imp fun hcd v hv w hw =>
          Address.before_of_children hcd (hbelow hv) (hbelow hw)

/-- A walk over a node visits the node, all from the children in front of a child, all from this
child, and all from the children behind it. -/
theorem visits_eq_of_children {c : Node} {l r : List Node} {below : σ}
    (hc : n.children = l ++ c :: r) (henter : enter ⟨address, s, n⟩ = some below) :
    n.visits enter s address =
      (⟨address, s, n⟩ :: l.zipIdx.flatMap fun d => d.1.visits enter below (d.2 :: address)) ++
        (c.visits enter below (l.length :: address) ++
          (r.zipIdx (l.length + 1)).flatMap fun d => d.1.visits enter below (d.2 :: address)) := by
  rw [visits_eq, henter, Option.elim_some, hc, List.zipIdx_append, Nat.zero_add, List.zipIdx_cons,
    List.flatMap_append, List.flatMap_cons, List.cons_append]

/-- A walk that pays no heed to addresses visits the same nodes wherever it begins. -/
theorem visits_below (henter : ∀ v a, enter { v with address := a } = enter v) (n : Node) (s : σ)
    (root address : Address) : n.visits enter s (address ++ root) =
      (n.visits enter s address).map fun v => { v with address := v.address ++ root } := by
  induction n using induction_on_children generalizing s address with
  | step n ih =>
    have hbelow : enter ⟨address ++ root, s, n⟩ = enter ⟨address, s, n⟩ :=
      henter ⟨address, s, n⟩ (address ++ root)
    rw [visits_eq, visits_eq, hbelow, List.map_cons]
    cases enter ⟨address, s, n⟩ with
    | none => rfl
    | some below =>
      rw [Option.elim_some, Option.elim_some, List.map_flatMap]
      refine congrArg _ (List.flatMap_congr fun c hc => ?_)
      rw [← List.cons_append]
      exact ih c.1 (List.fst_mem_of_mem_zipIdx hc) below _

/-- An address stands at one place of a walk. -/
theorem eq_of_visits_eq {front' back' : List (Visit σ)} {v' : Visit σ}
    (h : n.visits enter s address = front ++ v :: back)
    (h' : n.visits enter s address = front' ++ v' :: back') (haddress : v.address = v'.address) :
    front = front' ∧ v = v' ∧ back = back' := by
  have hnodup : ((front ++ v :: back).map (·.address)).Nodup :=
    h ▸ nodup_addresses n s address
  -- both splits are at the index of the address, which occurs only once
  have hlength : front.length = front'.length := by
    refine (List.getElem?_inj (by simp) hnodup).mp ?_
    have hplace : ((front ++ v :: back).map (·.address))[front.length]? = some v.address := by simp
    have hplace' : ((front' ++ v' :: back').map (·.address))[front'.length]? = some v'.address := by
      simp
    rw [hplace, h.symm.trans h', hplace', haddress]
  obtain ⟨hfront, hcons⟩ := List.append_inj (h.symm.trans h') hlength
  exact ⟨hfront, List.cons.inj hcons⟩

end Node

end CSharpAudit
