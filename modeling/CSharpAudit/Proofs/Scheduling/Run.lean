import CSharpAudit.Pipeline.Schedule
import Mathlib.Data.Fintype.Card
import Mathlib.Data.Fintype.EquivFin
import Mathlib.Data.List.FinRange
import Mathlib.Data.List.Pairwise
import Mathlib.Logic.Relation
import Mathlib.Order.WellFounded

/-!
# Runs of the scheduler

Tasks are known by their numbers, in the order of registration. One task feeds another if it writes
an artifact that the other reads; what a task reads of its own does not count. The scheduler runs
the first task that is fed by those done again and again, so of all orders in which every task comes
after those that feed it, it finds the one that is least as a list of numbers. What is left over
when no task is fed any more are the tasks that cycles feed.

## Main definitions

* `Schedule.Feeds` — one task writes what a different one reads
* `Schedule.Consistent`, `Schedule.Schedulable` — what tasks must fulfil to be put in order
* `Schedule.IsOrder` — the orders in which every artifact is written before others read it
* `Schedule.Fed` — all that a task reads of others has been written
* `Schedule.Run` — a run of the scheduler, task by task

## Main results

* `Schedule.Run.eq_or_lex` — the tasks taken come before any other order in which all can be taken
* `Schedule.Run.taken_eq_waiting` — tasks that are fed in their turn are taken as they wait
* `Schedule.Run.mem_stuck_iff` — the tasks left over are those that a cycle feeds
-/

namespace CSharpAudit

open Relation

universe v

namespace Schedule

/-! ### What a schedule has to respect -/

section Requirements

variable {κ : Type} {n : Nat} (tasks : Fin n → Task κ)

/-- A task writes an artifact that a different task reads. -/
def Feeds (i j : Fin n) : Prop :=
  i ≠ j ∧ ∃ k ∈ (tasks i).writes, k ∈ (tasks j).reads

/-- Every task goes by a name of its own, and every artifact that is read has one origin. -/
structure Consistent : Prop where
  ids_injective : Function.Injective fun i => (tasks i).id
  /-- No artifact is written twice, be it by one task or by two. -/
  writes_nodup : ((List.finRange n).flatMap fun i => (tasks i).writes).Nodup
  reads_written : ∀ i, ∀ k ∈ (tasks i).reads, ∃ w, k ∈ (tasks w).writes

/-- Consistent tasks of which none feeds itself through others. -/
structure Schedulable : Prop extends Consistent tasks where
  acyclic : ∀ i, ¬ TransGen (Feeds tasks) i i

/-- All tasks, each behind those that feed it. -/
structure IsOrder (order : List (Fin n)) : Prop where
  perm : order.Perm (List.finRange n)
  idxOf_lt : ∀ i j, Feeds tasks i j → order.idxOf i < order.idxOf j

/-- All tasks that feed a task are done. -/
def Fed (done : List (Fin n)) (j : Fin n) : Prop := ∀ i, Feeds tasks i j → i ∈ done

/-- Each of some tasks is behind those that feed it. -/
def InTurn (order : List (Fin n)) : Prop :=
  ∀ before j after, order = before ++ j :: after → Fed tasks before j

end Requirements

section Orders

variable {κ : Type} {n : Nat} {tasks : Fin n → Task κ} {order : List (Fin n)} {i j : Fin n}

/-- A kind has one writer. -/
theorem Consistent.writer_unique (h : Consistent tasks) {k : κ}
    (hi : k ∈ (tasks i).writes) (hj : k ∈ (tasks j).writes) : i = j := by
  by_contra hne
  have hdisjoint := (List.nodup_flatMap.mp h.writes_nodup).2
  have : Std.Symm (Function.onFun List.Disjoint fun i => (tasks i).writes) :=
    ⟨fun _ _ hab => hab.symm⟩
  exact hdisjoint.forall (List.mem_finRange i) (List.mem_finRange j) hne hi hj

/-- In turn, a task stands behind those that feed it. -/
theorem InTurn.idxOf_lt (h : InTurn tasks order) (hnodup : order.Nodup) (hij : Feeds tasks i j)
    (hj : j ∈ order) : i ∈ order ∧ order.idxOf i < order.idxOf j := by
  obtain ⟨before, after, rfl⟩ := List.append_of_mem hj
  have hi : i ∈ before := h before j after rfl i hij
  have hj' : j ∉ before := fun hmem =>
    (List.nodup_append.mp hnodup).2.2 j hmem j (List.mem_cons_self ..) rfl
  refine ⟨List.mem_append_left _ hi, ?_⟩
  rw [List.idxOf_append_of_mem hi, List.idxOf_append_of_notMem hj', List.idxOf_cons_self]
  exact List.idxOf_lt_length_of_mem hi

/-- Also behind those that feed it through others. -/
theorem InTurn.idxOf_lt_of_transGen (h : InTurn tasks order) (hnodup : order.Nodup)
    (hij : TransGen (Feeds tasks) i j) (hj : j ∈ order) :
    i ∈ order ∧ order.idxOf i < order.idxOf j := by
  induction hij with
  | single hstep => exact h.idxOf_lt hnodup hstep hj
  | tail _ hstep ih =>
    have hmid := h.idxOf_lt hnodup hstep hj
    exact ⟨(ih hmid.1).1, (ih hmid.1).2.trans hmid.2⟩

/-- An order lists each task once, in turn. -/
theorem isOrder_iff : IsOrder tasks order ↔ order.Perm (List.finRange n) ∧ InTurn tasks order := by
  constructor
  · refine fun h => ⟨h.perm, ?_⟩
    rintro before j after rfl i hij
    by_contra hi
    have hlt := h.idxOf_lt i j hij
    have hj : List.idxOf j (before ++ j :: after) ≤ before.length := by
      by_cases hmem : j ∈ before
      · rw [List.idxOf_append_of_mem hmem]
        exact List.idxOf_le_length
      · rw [List.idxOf_append_of_notMem hmem, List.idxOf_cons_self, Nat.add_zero]
    rw [List.idxOf_append_of_notMem hi] at hlt
    omega
  · rintro ⟨hperm, hturn⟩
    have hnodup : order.Nodup := hperm.nodup_iff.mpr (List.nodup_finRange n)
    exact ⟨hperm, fun i j hij =>
      (hturn.idxOf_lt hnodup hij (hperm.mem_iff.mpr (List.mem_finRange j))).2⟩

end Orders

/-! ### Runs of the scheduler -/

section Runs

variable {κ : Type} {n : Nat} (tasks : Fin n → Task κ)

/-- A run of the scheduler that begins after the tasks `done`: of those that wait, some are taken
one after the other and the rest is stuck. -/
inductive Run : List (Fin n) → List (Fin n) → List (Fin n) → List (Fin n) → Prop
  | stop {done waiting : List (Fin n)} (hblocked : ∀ x ∈ waiting, ¬ Fed tasks done x) :
      Run done waiting [] waiting
  | take {done before : List (Fin n)} {e : Fin n} {after taken stuck : List (Fin n)}
      (hbefore : ∀ x ∈ before, ¬ Fed tasks done x) (he : Fed tasks done e)
      (hrun : Run (done ++ [e]) (before ++ after) taken stuck) :
      Run done (before ++ e :: after) (e :: taken) stuck

namespace Run

variable {tasks} {done waiting taken stuck : List (Fin n)}

/-- A run takes or leaves each task once. -/
theorem perm (h : Run tasks done waiting taken stuck) : (taken ++ stuck).Perm waiting := by
  induction h with
  | stop _ => exact .refl _
  | take _ _ _ ih => exact (ih.cons _).trans List.perm_middle.symm

theorem stuck_sublist (h : Run tasks done waiting taken stuck) : stuck.Sublist waiting := by
  induction h with
  | stop _ => exact .refl _
  | take _ _ _ ih => exact ih.trans ((List.sublist_cons_self ..).append_left _)

/-- What is left waits for something that is left. -/
theorem not_fed (h : Run tasks done waiting taken stuck) :
    ∀ x ∈ stuck, ¬ Fed tasks (done ++ taken) x := by
  induction h with
  | stop hblocked => simpa using hblocked
  | take _ _ _ ih => simpa using ih

/-- What is taken waits for nothing any more. -/
theorem fed_of_eq (h : Run tasks done waiting taken stuck) {before after : List (Fin n)} {x : Fin n}
    (heq : taken = before ++ x :: after) : Fed tasks (done ++ before) x := by
  induction h generalizing before with
  | stop _ => simp at heq
  | take _ he _ ih =>
    cases before with
    | nil =>
      obtain ⟨rfl, -⟩ := List.cons.inj heq
      simpa using he
    | cons b before =>
      obtain ⟨rfl, htaken⟩ := List.cons.inj heq
      simpa using ih htaken

/-- The tasks taken come before any other order in which all waiting tasks can be taken: the
scheduler takes the first task that is fed, and a task that comes first in another order is fed as
well. -/
theorem eq_or_lex (h : Run tasks done waiting taken stuck) (hstuck : stuck = [])
    (hsorted : waiting.Pairwise (· < ·)) {other : List (Fin n)} (hperm : other.Perm waiting)
    (hother : ∀ before x after, other = before ++ x :: after →
      Fed tasks (done ++ before) x) : other = taken ∨ List.Lex (· < ·) taken other := by
  induction h generalizing other with
  | stop _ =>
    subst hstuck
    exact .inl (List.perm_nil.mp hperm)
  | @take done before e after taken stuck hbefore he _ ih =>
    cases other with
    | nil => simpa using hperm.length_eq
    | cons x rest =>
      have hx : Fed tasks done x := by simpa using hother [] x rest rfl
      have hmem : x ∈ before ++ e :: after := hperm.mem_iff.mp (List.mem_cons_self ..)
      have hnot : x ∉ before := fun hin => hbefore x hin hx
      -- a task in front of the one taken is not fed, so the other order cannot start with it
      have hafter : x = e ∨ e < x := by
        have hsorted' := (List.pairwise_append.mp hsorted).2.1
        rcases List.mem_cons.mp ((List.mem_append.mp hmem).resolve_left hnot) with rfl | hin
        · exact .inl rfl
        · exact .inr (List.rel_of_pairwise_cons hsorted' hin)
      rcases hafter with rfl | hlt
      · have hrest : rest = taken ∨ List.Lex (· < ·) taken rest :=
          ih hstuck (hsorted.sublist ((List.sublist_cons_self ..).append_left _))
            (hperm.trans List.perm_middle).cons_inv fun before' y after' heq => by
              simpa using hother (x :: before') y after' (by rw [heq]; rfl)
        exact hrest.imp (congrArg (x :: ·)) .cons
      · exact .inr (.rel hlt)

/-- Tasks of which each is fed in its turn are taken as they wait. -/
theorem taken_eq_waiting (h : Run tasks done waiting taken stuck)
    (hwaiting : ∀ before x after, waiting = before ++ x :: after →
      Fed tasks (done ++ before) x) : taken = waiting := by
  induction h with
  | @stop done waiting hblocked =>
    cases waiting with
    | nil => rfl
    | cons x rest =>
      have hx : Fed tasks done x := by simpa using hwaiting [] x rest rfl
      exact absurd hx (hblocked x (List.mem_cons_self ..))
  | @take done before e after taken stuck hbefore he _ ih =>
    cases before with
    | nil =>
      refine congrArg (e :: ·) (ih fun before' y after' heq => ?_)
      simpa using hwaiting (e :: before') y after' (by rw [List.nil_append] at heq ⊢; rw [heq]; rfl)
    | cons x rest =>
      have hx : Fed tasks done x := by
        simpa using hwaiting [] x (rest ++ e :: after) rfl
      exact absurd hx (hbefore x (List.mem_cons_self ..))

end Run

end Runs

/-! ### What is left over -/

section Stuck

/-- In a finite set in which everything has a predecessor, every element is reached from a cycle. -/
theorem exists_cycle_of_pred {β : Type v} [Finite β] {r : β → β → Prop} {s : β → Prop}
    (hpred : ∀ j, s j → ∃ i, s i ∧ r i j) {j : β} (hj : s j) :
    ∃ c, TransGen r c c ∧ ReflTransGen r c j := by
  -- Without a cycle above, going back from predecessor to predecessor would be well-founded.
  by_contra hnone
  let bad : Type v := { j // s j ∧ ¬ ∃ c, TransGen r c c ∧ ReflTransGen r c j }
  let back : bad → bad → Prop := fun a b => TransGen r a.1 b.1
  have : IsTrans bad back := ⟨fun _ _ _ hab hbc => TransGen.trans hab hbc⟩
  have : Std.Irrefl back := ⟨fun a haa => a.2.2 ⟨a.1, haa, .refl⟩⟩
  have hwf : WellFounded back := Finite.wellFounded_of_trans_of_irrefl back
  refine hwf.induction (C := fun _ => False) ⟨j, hj, hnone⟩ fun b ih => ?_
  obtain ⟨i, hi, hib⟩ := hpred b.1 b.2.1
  refine ih ⟨i, hi, ?_⟩ (.single hib)
  rintro ⟨c, hcc, hci⟩
  exact b.2.2 ⟨c, hcc, hci.tail hib⟩

variable {κ : Type} {n : Nat} {tasks : Fin n → Task κ} {taken stuck done : List (Fin n)} {j : Fin n}

namespace Run

variable (h : Run tasks [] (List.finRange n) taken stuck)
include h

theorem nodup_taken : taken.Nodup :=
  (List.nodup_append.mp (h.perm.nodup_iff.mpr (List.nodup_finRange n))).1

theorem mem_taken_or_stuck (i : Fin n) : i ∈ taken ∨ i ∈ stuck :=
  List.mem_append.mp (h.perm.mem_iff.mpr (List.mem_finRange i))

/-- A run takes the tasks in turn. -/
theorem inTurn : InTurn tasks taken := fun before _ _ heq => by
  simpa using h.fed_of_eq heq

/-- What keeps a task from being taken is a task that is not taken either. -/
theorem exists_stuck_feeds (hj : j ∈ stuck) : ∃ i, i ∈ stuck ∧ Feeds tasks i j := by
  have hblocked : ¬ Fed tasks taken j := by simpa using h.not_fed j hj
  unfold Fed at hblocked
  push Not at hblocked
  obtain ⟨i, hij, hi⟩ := hblocked
  exact ⟨i, (h.mem_taken_or_stuck i).resolve_left hi, hij⟩

/-- The tasks left over are those that lie on a cycle or are fed, through others, by one. -/
theorem mem_stuck_iff : j ∈ stuck ↔
    ∃ c, TransGen (Feeds tasks) c c ∧ ReflTransGen (Feeds tasks) c j := by
  refine ⟨exists_cycle_of_pred fun _ => h.exists_stuck_feeds, ?_⟩
  rintro ⟨c, hcycle, hreach⟩
  by_contra hj
  have htaken : j ∈ taken := (h.mem_taken_or_stuck j).resolve_right hj
  -- all that feeds a taken task is taken before it, and a task on a cycle feeds itself
  have hcycle' : TransGen (Feeds tasks) c j := TransGen.trans_left hcycle hreach
  have hmem := h.inTurn.idxOf_lt_of_transGen h.nodup_taken hcycle' htaken
  have hself := h.inTurn.idxOf_lt_of_transGen h.nodup_taken hcycle hmem.1
  exact lt_irrefl _ hself.2

/-- Nothing is left if no task feeds itself through others. -/
theorem stuck_eq_nil_iff :
    stuck = [] ↔ ∀ i, ¬ TransGen (Feeds tasks) i i := by
  rw [List.eq_nil_iff_forall_not_mem]
  constructor
  · exact fun hnone i hcycle => hnone i (h.mem_stuck_iff.mpr ⟨i, hcycle, .refl⟩)
  · rintro hacyclic j hj
    obtain ⟨c, hcycle, -⟩ := h.mem_stuck_iff.mp hj
    exact hacyclic c hcycle

end Run

end Stuck

end Schedule

end CSharpAudit
