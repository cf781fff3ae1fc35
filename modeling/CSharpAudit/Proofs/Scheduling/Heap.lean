import CSharpAudit.Pipeline.Schedule
import Mathlib.Data.Fin.Basic
import Mathlib.Data.List.Basic

/-!
# The heap of the scheduler

In a heap no number is less than the one right above it, so the least one is at the top. A number
that is put in rises, and the one that comes to the top when a number is taken out sinks. On its way
it is the only number out of place: changing places with a neighbour moves this place along, and
puts the rest in order.

## Main definitions

* `IndexHeap.Ordered` — no number is less than the one right above it
* `IndexHeap.RisesAt`, `IndexHeap.SinksAt` — only the number at one place may be out of order

## Main results

* `IndexHeap.perm_push`, `IndexHeap.ordered_push` — what putting a number in does
* `IndexHeap.pop?_eq_some` — the number that is taken out is the least one
-/

namespace CSharpAudit

namespace IndexHeap

variable {n : Nat} {items : Array (Fin n)} {heap rest : IndexHeap n} {i j k : Nat}

/-! ### Numbers that are out of place -/

/-- The number at one place is not greater than the one at another place. -/
def LeAt (items : Array (Fin n)) (i k : Nat) : Prop :=
  ∀ (hi : i < items.size) (hk : k < items.size), items[i] ≤ items[k]

/-- No number is less than the one right above it. -/
def Ordered (items : Array (Fin n)) : Prop := ∀ k, LeAt items ((k - 1) / 2) k

/-- The numbers would be ordered if the one at `j` were not less than the one right above it. -/
structure RisesAt (items : Array (Fin n)) (j : Nat) : Prop where
  leAt : ∀ k, k ≠ j → LeAt items ((k - 1) / 2) k
  leAt_below : ∀ k, (k - 1) / 2 = j → LeAt items ((j - 1) / 2) k

/-- The numbers would be ordered if the one at `i` were not greater than those right below it. -/
structure SinksAt (items : Array (Fin n)) (i : Nat) : Prop where
  leAt : ∀ k, (k - 1) / 2 ≠ i → LeAt items ((k - 1) / 2) k
  leAt_below : ∀ k, 0 < i → (k - 1) / 2 = i → LeAt items ((i - 1) / 2) k

/-- A number that changes places with the one above it may still be less than the next one. -/
theorem RisesAt.swap (hj : j < items.size) (hup : (j - 1) / 2 < items.size) (h : RisesAt items j)
    (hlt : items[j] < items[(j - 1) / 2]) :
    RisesAt (items.swap ((j - 1) / 2) j) ((j - 1) / 2) where
  leAt k hk := by
    have h1 := h.leAt k
    have h2 := h.leAt_below k
    unfold LeAt at *
    grind
  leAt_below k hk := by
    have h1 := h.leAt k
    have h2 := h.leAt ((j - 1) / 2)
    unfold LeAt at *
    grind

theorem RisesAt.ordered (hj : j < items.size) (hup : (j - 1) / 2 < items.size)
    (h : RisesAt items j)
    (hle : ¬ items[j] < items[(j - 1) / 2]) : Ordered items := by
  intro k
  by_cases hk : k = j
  · subst hk
    exact fun _ _ => Fin.not_lt.mp hle
  · exact h.leAt k hk

/-- A number that rises as far as it can leaves the heap in order. -/
theorem RisesAt.ordered_up {j : Nat} (hj : j < items.size) (h : RisesAt items j) :
    Ordered (up items j hj) := by
  fun_induction up items j hj with
  | case1 items j hj hlt ih => exact ih (h.swap hj _ hlt)
  | case2 items j hj hle => exact h.ordered hj _ hle

/-- The lesser of two neighbours is not greater than either. -/
theorem leAt_lesser (j : Fin items.size) (hk : k = j ∨ k = j + 1) :
    LeAt items (lesser items j) k := by
  unfold lesser LeAt
  grind

theorem lesser_eq_or (j : Fin items.size) :
    (lesser items j).val = j ∨ (lesser items j).val = j + 1 := by
  unfold lesser
  grind

/-- A number that changes places with the lesser one below it may still be greater than the next
ones. -/
theorem SinksAt.swap (hi : i < items.size) (hj : j < items.size) (h : SinksAt items i)
    (hbelow : j = 2 * i + 1 ∨ j = 2 * i + 2)
    (hlesser : ∀ k, k = 2 * i + 1 ∨ k = 2 * i + 2 → LeAt items j k)
    (hlt : items[j] < items[i]) : SinksAt (items.swap i j) j where
  leAt k hk := by
    have h1 := h.leAt k
    have h2 := h.leAt_below j
    have h3 := hlesser k
    unfold LeAt at *
    grind
  leAt_below k hk hpar := by
    have h1 := h.leAt k
    unfold LeAt at *
    grind

theorem SinksAt.ordered (h : SinksAt items i)
    (hle : ∀ k, k = 2 * i + 1 ∨ k = 2 * i + 2 → LeAt items i k) : Ordered items := by
  intro k
  by_cases hk : (k - 1) / 2 = i
  · rcases Nat.eq_zero_or_pos k with rfl | hpos
    · exact fun _ _ => Fin.le_refl _
    · exact hk ▸ hle k (by omega)
  · exact h.leAt k hk

/-- A number that sinks as far as it can leaves the heap in order. -/
theorem SinksAt.ordered_down {i : Nat} (h : SinksAt items i) : Ordered (down items i) := by
  fun_induction down items i with
  | case1 items i hlt hless ih =>
    have hplace := lesser_eq_or ⟨2 * i + 1, hlt⟩
    exact ih (h.swap _ _ hplace (fun k hk => leAt_lesser _ hk) hless)
  | case2 items i hlt hle =>
    refine h.ordered fun k hk hi hk' => ?_
    exact Fin.le_trans (Fin.not_lt.mp hle) (leAt_lesser ⟨2 * i + 1, hlt⟩ hk _ hk')
  | case3 items i hnone => exact h.ordered fun k hk hi hk' => by omega

/-- No number is less than the one at the top. -/
theorem Ordered.leAt_zero (h : Ordered items) (k : Nat) : LeAt items 0 k := by
  induction k using Nat.strongRecOn with
  | ind k ih =>
    rcases Nat.eq_zero_or_pos k with rfl | hpos
    · exact fun _ _ => Fin.le_refl _
    · intro hi hk
      exact Fin.le_trans (ih ((k - 1) / 2) (by omega) hi (by omega)) (h k (by omega) hk)

/-! ### Putting numbers in and taking them out -/

theorem perm_up (hj : j < items.size) : (up items j hj).Perm items := by
  fun_induction up items j hj with
  | case1 items j hj _ ih => exact ih.trans (Array.swap_perm ..)
  | case2 => exact .refl _

theorem perm_down (i : Nat) : (down items i).Perm items := by
  fun_induction down items i with
  | case1 items i h _ ih => exact ih.trans (Array.swap_perm ..)
  | case2 => exact .refl _
  | case3 => exact .refl _

theorem ordered_push (h : Ordered heap.items) (i : Fin n) : Ordered (heap.push i).items := by
  refine RisesAt.ordered_up _ ⟨fun k hk => ?_, fun k hk => ?_⟩
  all_goals
    have h1 := h k
    unfold LeAt at *
    grind

theorem perm_push (heap : IndexHeap n) (i : Fin n) :
    (heap.push i).items.toList.Perm (i :: heap.items.toList) := by
  have hperm : (heap.push i).items.Perm (heap.items.push i) := perm_up ..
  exact hperm.toList.trans (by simp)

theorem pop?_eq_none_iff : heap.pop? = none ↔ heap.items.toList = [] := by
  simp [pop?]

/-- The number that comes to the top leaves all others but the one that was there before. -/
theorem perm_cons_pop_swap (h : 0 < items.size) :
    items.toList.Perm (items[0] :: (items.swap 0 (items.size - 1)).pop.toList) := by
  have hlast : (items.swap 0 (items.size - 1)).pop.push items[0] =
      items.swap 0 (items.size - 1) := by grind
  have hswap : items.Perm (items.swap 0 (items.size - 1)) := (Array.swap_perm ..).symm
  rw [← hlast] at hswap
  refine hswap.toList.trans ?_
  rw [Array.toList_push]
  exact List.perm_append_singleton ..

/-- A number that is taken out of a heap is the least one, and the others stay. -/
theorem pop?_eq_some {i : Fin n} (h : Ordered heap.items) (hpop : heap.pop? = some (i, rest)) :
    heap.items.toList.Perm (i :: rest.items.toList) ∧ (∀ k ∈ heap.items.toList, i ≤ k) ∧
      Ordered rest.items := by
  unfold pop? at hpop
  split at hpop
  · rename_i hpos
    obtain ⟨rfl, rfl⟩ := Prod.mk.inj (Option.some.inj hpop)
    refine ⟨?_, ?_, ?_⟩
    · exact (perm_cons_pop_swap hpos).trans ((perm_down 0).toList.symm.cons _)
    · intro k hk
      obtain ⟨j, hj, rfl⟩ := List.getElem_of_mem hk
      exact h.leAt_zero j hpos hj
    · refine SinksAt.ordered_down ⟨fun k hk => ?_, fun k hk => absurd hk (lt_irrefl 0)⟩
      have h1 := h k
      unfold LeAt at *
      grind
  · cases hpop

end IndexHeap

end CSharpAudit
