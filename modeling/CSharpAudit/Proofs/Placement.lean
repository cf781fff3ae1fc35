import CSharpAudit.Proofs.Cursors
import CSharpAudit.Proofs.Nesting
import CSharpAudit.Syntax.Member
import Mathlib.Data.List.Perm.Subperm

/-!
# Where members start

Two declarations of a file may share a name, but not the place where they start. A local function
may stand in the argument of an attribute, in a default value or in a body, so all members of a tree
are looked at, the local ones included, when it is asked who else starts where a declaration does.

Nodes that stand side by side in a text are *placed* between two offsets: their members start
there, no two of them where a declaration with a body does, and no two such declarations have their
names at one place. What is read first is placed in front of what is read later, so placed nodes
may be put together, in any order.

## Main definitions

* `Node.memberStarts` — where the members of a tree start, local functions included
* `Node.bodied` — the declarations of a tree that have a body
* `Node.Leads` — a declaration starts in front of all that is written below it
* `Node.Placed` — nodes that are placed between two offsets

## Main results

* `Node.memberStarts_within` — in a tree with nested spans members start inside the tree
* `Node.Placed.append` — nodes are placed if those in front are placed, and those behind
* `Node.Placed.of_leads`, `Node.Placed.of_holds` — a member, and a namespace or type, is placed
-/

namespace CSharpAudit

namespace Node

variable {n c d : Node} {ns ms : List Node} {lo mid mid' hi s : Nat}

/-! ### Members and bodies -/

/-- Where the members of a tree start, local functions included. -/
def memberStarts (n : Node) : List Nat := (n.nodes.filter (·.isMember)).map (·.span.start)

/-- The declarations of a tree that have a body. They are looked for below namespaces and types. -/
def bodied (n : Node) : List Node :=
  n.fold fun n below =>
    if n.holdsDeclarations then below.flatten else if n.bodies.isEmpty then [] else [n]

theorem memberStarts_eq (n : Node) : n.memberStarts =
    (if n.isMember then [n.span.start] else []) ++ n.children.flatMap memberStarts := by
  have hbelow : ((n.children.flatMap nodes).filter (·.isMember)).map (·.span.start) =
      n.children.flatMap memberStarts := by
    rw [List.filter_flatMap, List.map_flatMap]
    rfl
  rw [memberStarts, nodes_eq, List.filter_cons]
  split
  · rw [List.map_cons, hbelow, List.singleton_append]
  · rw [hbelow, List.nil_append]

theorem memberStarts_of_not_isMember (h : n.isMember = false) :
    n.memberStarts = n.children.flatMap memberStarts := by
  rw [memberStarts_eq, h]
  rfl

theorem bodied_of_holds (h : n.holdsDeclarations = true) :
    n.bodied = n.children.flatMap bodied := by
  rw [bodied, fold_eq, if_pos h]
  rfl

theorem bodied_of_not_holds (h : n.holdsDeclarations = false) :
    n.bodied = if n.bodies.isEmpty then [] else [n] := by
  rw [bodied, fold_eq, if_neg (Bool.eq_false_iff.mp h)]

/-- Only members have bodies. -/
theorem isMember_of_bodies (h : n.bodies ≠ []) : n.isMember = true := by
  cases n <;> first | rfl | exact absurd rfl h

theorem holdsDeclarations_of_isMember (h : n.isMember = true) : n.holdsDeclarations = false := by
  by_contra hholds
  rw [isMember_of_holdsDeclarations (by simpa using hholds)] at h
  cases h

/-- A declaration with a body is listed by itself. -/
theorem bodied_of_bodies (h : n.bodies ≠ []) : n.bodied = [n] := by
  rw [bodied_of_not_holds (holdsDeclarations_of_isMember (isMember_of_bodies h)), if_neg]
  simpa using h

/-- A declaration with a body is one of the members of the tree. -/
theorem start_mem_memberStarts (h : d ∈ n.bodied) : d.span.start ∈ n.memberStarts := by
  induction n using induction_on_children with
  | step n ih =>
    cases hholds : n.holdsDeclarations with
    | true =>
      rw [bodied_of_holds hholds] at h
      obtain ⟨c, hc, hd⟩ := List.mem_flatMap.mp h
      rw [memberStarts_of_not_isMember (isMember_of_holdsDeclarations hholds)]
      exact List.mem_flatMap.mpr ⟨c, hc, ih c hc hd⟩
    | false =>
      rw [bodied_of_not_holds hholds] at h
      by_cases hbodies : n.bodies = []
      · simp [hbodies] at h
      · obtain rfl : d = n := by simpa [hbodies] using h
        rw [memberStarts_eq, isMember_of_bodies hbodies]
        exact List.mem_append_left _ List.mem_cons_self

theorem starts_subset (h : d ∈ ns.flatMap bodied) : d.span.start ∈ ns.flatMap memberStarts := by
  obtain ⟨n, hn, hd⟩ := List.mem_flatMap.mp h
  exact List.mem_flatMap.mpr ⟨n, hn, start_mem_memberStarts hd⟩

/-- Nodes that are neither members nor hold declarations declare nothing with a body. -/
theorem flatMap_bodied_eq_nil (h : ∀ n ∈ ns, n.holdsDeclarations = false ∧ n.bodies = []) :
    ns.flatMap bodied = [] := by
  refine List.flatMap_eq_nil_iff.mpr fun n hn => ?_
  obtain ⟨hholds, hbodies⟩ := h n hn
  rw [bodied_of_not_holds hholds, hbodies]
  rfl

/-! ### Nested trees -/

/-- Below a type there are types only. -/
theorem memberStarts_type (t : TypeRef) : (type t).memberStarts = [] := by
  suffices h : ∀ n : Node, (∃ t, n = type t) → n.memberStarts = [] from h _ ⟨t, rfl⟩
  intro n
  induction n using induction_on_children with
  | step n ih =>
    rintro ⟨t, rfl⟩
    rw [memberStarts_of_not_isMember rfl]
    refine List.flatMap_eq_nil_iff.mpr fun c hc => ih c hc ?_
    obtain ⟨a, -, rfl⟩ := List.mem_map.mp hc
    exact ⟨a, rfl⟩

/-- What is not written in the text is a type. -/
theorem Synthesises.exists_type (h : n.Synthesises c) : ∃ t, c = type t := by
  unfold Synthesises at h
  split at h
  all_goals first | exact h.elim | exact ⟨_, h⟩ | exact ⟨_, h.2⟩

/-- In a tree with nested spans all members start inside the tree. -/
theorem memberStarts_within (h : n.Nested) (hspan : n.span.start < n.span.stop)
    (hs : s ∈ n.memberStarts) : n.span.start ≤ s ∧ s < n.span.stop := by
  induction n using induction_on_children with
  | step n ih =>
    rw [memberStarts_eq] at hs
    rcases List.mem_append.mp hs with hs | hs
    · have : s = n.span.start := by
        split at hs
        · exact List.mem_singleton.mp hs
        · exact absurd hs List.not_mem_nil
      omega
    · obtain ⟨c, hc, hs⟩ := List.mem_flatMap.mp hs
      cases h with
      | intro inside chained below =>
        have hpart : c ∈ n.nodesBelow := List.mem_append_left _ hc
        rcases inside c hpart with htype | ⟨hlt, hstart, hstop⟩
        · obtain ⟨t, rfl⟩ := htype.exists_type
          rw [memberStarts_type] at hs
          exact absurd hs List.not_mem_nil
        · have := ih c hc (below c hpart) hlt hs
          omega

/-! ### Placed nodes -/

/-- Nodes whose members start between two offsets. No two members start where a declaration with a
body does, and the names of these declarations stand at different places between the offsets. -/
structure Placed (lo hi : Nat) (ns : List Node) : Prop where
  within : ∀ s ∈ ns.flatMap memberStarts, lo ≤ s ∧ s < hi
  single : ∀ d ∈ ns.flatMap bodied, (ns.flatMap memberStarts).count d.span.start ≤ 1
  named : ∀ d ∈ ns.flatMap bodied, lo ≤ d.nameSpan.start ∧ d.nameSpan.start < hi
  nodup : ((ns.flatMap bodied).map (·.nameSpan.start)).Nodup

namespace Placed

/-- Placed nodes stay placed when some of them are lost and the others reordered. -/
theorem of_subperm (h : Placed lo hi ns)
    (hstarts : (ms.flatMap memberStarts).Subperm (ns.flatMap memberStarts))
    (hbodied : (ms.flatMap bodied).Subperm (ns.flatMap bodied)) : Placed lo hi ms where
  within s hs := h.within s (hstarts.subset hs)
  single d hd := Nat.le_trans (hstarts.count_le _) (h.single d (hbodied.subset hd))
  named d hd := h.named d (hbodied.subset hd)
  nodup := by
    obtain ⟨ds, hperm, hsub⟩ := hbodied
    have hds : (ds.map (·.nameSpan.start)).Nodup := h.nodup.sublist (hsub.map _)
    exact (hperm.map _).nodup_iff.mp hds

theorem mono (h : Placed lo hi ns) {lo' hi' : Nat} (hlo : lo' ≤ lo) (hhi : hi ≤ hi') :
    Placed lo' hi' ns where
  within s hs := by
    have := h.within s hs
    omega
  single := h.single
  named d hd := by
    have := h.named d hd
    omega
  nodup := h.nodup

/-- Where a declaration with a body starts, no member starts that is placed elsewhere. -/
theorem count_start_eq_zero (hns : Placed lo mid ns) (hms : Placed mid' hi ms)
    (hapart : mid ≤ mid' ∨ hi ≤ lo) (hd : d ∈ ns.flatMap bodied) :
    (ms.flatMap memberStarts).count d.span.start = 0 := by
  refine List.count_eq_zero.mpr fun hs => ?_
  have hstart := hns.within _ (starts_subset hd)
  have hstart' := hms.within _ hs
  omega

/-- What is read first is placed in front of what is read later. -/
theorem append (hns : Placed lo mid ns) (hms : Placed mid' hi ms) (hlo : lo ≤ mid')
    (hmid : mid ≤ mid') (hhi : mid ≤ hi) : Placed lo hi (ns ++ ms) := by
  constructor
  · intro s hs
    rw [List.flatMap_append] at hs
    rcases List.mem_append.mp hs with hs | hs
    · have := hns.within s hs
      omega
    · have := hms.within s hs
      omega
  · intro d hd
    rw [List.flatMap_append] at hd
    rw [List.flatMap_append, List.count_append]
    rcases List.mem_append.mp hd with hd | hd
    -- A declaration of the front does not start in the part behind it, nor the other way round.
    · rw [hns.count_start_eq_zero hms (.inl hmid) hd]
      exact hns.single d hd
    · rw [hms.count_start_eq_zero hns (.inr hmid) hd, Nat.zero_add]
      exact hms.single d hd
  · intro d hd
    rw [List.flatMap_append] at hd
    rcases List.mem_append.mp hd with hd | hd
    · have := hns.named d hd
      omega
    · have := hms.named d hd
      omega
  · rw [List.flatMap_append, List.map_append]
    refine List.Nodup.append hns.nodup hms.nodup ?_
    intro s hs hs'
    obtain ⟨d, hd, rfl⟩ := List.mem_map.mp hs
    obtain ⟨e, he, heq⟩ := List.mem_map.mp hs'
    have := hns.named d hd
    have := hms.named e he
    omega

theorem nil : Placed lo hi [] := ⟨by simp, by simp, by simp, by simp⟩

/-- Nodes that declare nothing with a body are placed where they stand. -/
theorem of_nested (hns : ∀ n ∈ ns, n.Nested ∧ n.span.start < n.span.stop ∧ lo ≤ n.span.start ∧
    n.span.stop ≤ hi) (hbodied : ns.flatMap bodied = []) : Placed lo hi ns where
  within s hs := by
    obtain ⟨n, hn, hs⟩ := List.mem_flatMap.mp hs
    obtain ⟨hnested, hspan, hlo, hhi⟩ := hns n hn
    have := memberStarts_within hnested hspan hs
    omega
  single d hd := by simp [hbodied] at hd
  named d hd := by simp [hbodied] at hd
  nodup := by simp [hbodied]

/-- A namespace or a type is placed if all below it is. -/
theorem of_holds (hn : n.holdsDeclarations = true) (h : Placed lo hi n.children) :
    Placed lo hi [n] := by
  have hstarts : [n].flatMap memberStarts = n.children.flatMap memberStarts := by
    rw [List.flatMap_singleton, memberStarts_of_not_isMember (isMember_of_holdsDeclarations hn)]
  have hbodied : [n].flatMap bodied = n.children.flatMap bodied := by
    rw [List.flatMap_singleton, bodied_of_holds hn]
  exact h.of_subperm (hstarts ▸ List.Subperm.refl _) (hbodied ▸ List.Subperm.refl _)

end Placed

/-- A member starts in front of all that is written below it, its type aside, and its name stands
inside it. -/
structure Leads (n : Node) : Prop where
  isMember : n.isMember = true
  later : ∀ c ∈ n.children, (∃ t, c = type t) ∨ n.span.start < c.span.start
  name : n.span.start ≤ n.nameSpan.start ∧ n.nameSpan.start < n.span.stop

/-- The name of a member stands inside it if that is so for the place noted for the name. -/
theorem Leads.intro {name : Span} (hmember : n.isMember = true) (hspan : n.span = ⟨lo, hi⟩)
    (hlt : lo < hi) (hnameSpan : n.nameSpan = if name.length == 0 then n.span else name)
    (hname : lo ≤ name.start ∧ name.start < hi)
    (hlater : ∀ c ∈ n.children, (∃ t, c = type t) ∨ lo < c.span.start) : n.Leads where
  isMember := hmember
  later := by
    rw [hspan]
    exact hlater
  name := by
    rw [hnameSpan, hspan]
    split
    · exact ⟨Nat.le_refl lo, hlt⟩
    · exact hname

/-- No member below a declaration starts where the declaration does. -/
theorem Leads.start_lt (h : n.Leads) (hn : n.Nested) (hs : s ∈ n.children.flatMap memberStarts) :
    n.span.start < s := by
  obtain ⟨c, hc, hs⟩ := List.mem_flatMap.mp hs
  have hnotype : ∀ t, c ≠ type t := by
    rintro t rfl
    rw [memberStarts_type] at hs
    exact absurd hs List.not_mem_nil
  have hlater : n.span.start < c.span.start :=
    (h.later c hc).resolve_left fun ⟨t, ht⟩ => hnotype t ht
  cases hn with
  | intro inside chained below =>
    have hpart : c ∈ n.nodesBelow := List.mem_append_left _ hc
    rcases inside c hpart with htype | ⟨hlt, -, -⟩
    · obtain ⟨t, ht⟩ := htype.exists_type
      exact absurd ht (hnotype t)
    · have := memberStarts_within (below c hpart) hlt hs
      omega

/-- A member that starts in front of all below it is placed where it stands, and so is a member
without a body. -/
theorem Placed.of_leads (hn : n.Nested) (hspan : n.span.start < n.span.stop)
    (h : n.Leads ∨ n.isMember = true ∧ n.bodies = []) :
    Placed n.span.start n.span.stop [n] := by
  -- Without a body nothing else is listed; with one it starts in front of all below.
  by_cases hbodies : n.bodies = []
  · have hmember : n.isMember = true := h.elim Leads.isMember And.left
    refine of_nested (fun m hm => ?_) ?_
    · rw [List.mem_singleton.mp hm]
      exact ⟨hn, hspan, Nat.le_refl _, Nat.le_refl _⟩
    · rw [List.flatMap_singleton, bodied_of_not_holds (holdsDeclarations_of_isMember hmember),
        hbodies]
      rfl
  · have hleads := h.resolve_right fun h => hbodies h.2
    have hbodied : [n].flatMap bodied = [n] := by
      rw [List.flatMap_singleton, bodied_of_bodies hbodies]
    constructor
    · intro s hs
      rw [List.flatMap_singleton] at hs
      exact memberStarts_within hn hspan hs
    · intro d hd
      rw [hbodied, List.mem_singleton] at hd
      rw [hd, List.flatMap_singleton, memberStarts_eq, hleads.isMember, if_pos rfl,
        List.count_append, List.count_singleton_self]
      have hbelow : (n.children.flatMap memberStarts).count n.span.start = 0 :=
        List.count_eq_zero.mpr fun hs => Nat.lt_irrefl _ (hleads.start_lt hn hs)
      omega
    · intro d hd
      rw [hbodied, List.mem_singleton] at hd
      rw [hd]
      exact hleads.name
    · rw [hbodied]
      exact List.nodup_singleton _

end Node

end CSharpAudit
