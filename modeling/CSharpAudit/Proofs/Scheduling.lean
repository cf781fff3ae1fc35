import CSharpAudit.Proofs.Scheduling.Kahn

/-!
# Which schedules there are, and which one is chosen

The scheduler refuses entries that contradict each other and puts all others in order. Only their
numbers matter for this: entries with the same numbers, names, reads and writes are scheduled alike.

## Main definitions

* `Schedule.numbered` — what the schedule needs to know of the entry with each number

## Main results

* `Schedule.exists_order_iff` — which tasks can be put in order
* `Schedule.Run.eq_or_lex_of_isOrder` — the order found is the least one
* `schedule_least_or_stuck` — when there is a schedule, which one it is, and what a cycle blocks
-/

namespace CSharpAudit

open Relation

universe u

namespace Schedule

/-! ### Numbered tasks -/

section Outcomes

variable {κ : Type} [DecidableEq κ] {n : Nat} {tasks : Fin n → Task κ}

theorem order_eq_ok {found : List (Fin n)} (h : order tasks = .ok found) :
    Consistent tasks ∧ Run tasks [] (List.finRange n) found [] := by
  by_cases hc : Consistent tasks
  · obtain ⟨taken, stuck, hrun, heq⟩ := order_of_consistent hc
    rw [heq] at h
    split at h
    · rename_i hstuck
      obtain rfl := Except.ok.inj h
      exact ⟨hc, hstuck ▸ hrun⟩
    · cases h
  · obtain ⟨e, he, -⟩ := order_of_not_consistent hc
    rw [he] at h
    cases h

theorem order_eq_cycle {ids : List String} (h : order tasks = .error (.cycle ids)) :
    ∃ taken stuck, Run tasks [] (List.finRange n) taken stuck ∧
      ids = stuck.map fun i => (tasks i).id := by
  by_cases hc : Consistent tasks
  · obtain ⟨taken, stuck, hrun, heq⟩ := order_of_consistent hc
    rw [heq] at h
    split at h
    · cases h
    · obtain rfl := ScheduleError.cycle.inj (Except.error.inj h)
      exact ⟨taken, stuck, hrun, rfl⟩
  · obtain ⟨e, he, hne⟩ := order_of_not_consistent hc
    rw [he] at h
    exact absurd (Except.error.inj h) (hne ids)

/-- Tasks can be put in order exactly if they do not contradict each other and none feeds itself
through others. -/
theorem exists_order_iff : (∃ found, order tasks = .ok found) ↔ Schedulable tasks := by
  constructor
  · rintro ⟨found, hfound⟩
    obtain ⟨hc, hrun⟩ := order_eq_ok hfound
    exact ⟨hc, hrun.stuck_eq_nil_iff.mp rfl⟩
  · intro h
    obtain ⟨taken, stuck, hrun, heq⟩ := order_of_consistent h.toConsistent
    rw [if_pos (hrun.stuck_eq_nil_iff.mpr h.acyclic)] at heq
    exact ⟨taken, heq⟩

omit [DecidableEq κ] in
theorem Run.isOrder {taken : List (Fin n)} (h : Run tasks [] (List.finRange n) taken []) :
    IsOrder tasks taken :=
  isOrder_iff.mpr ⟨by simpa using h.perm, h.inTurn⟩

omit [DecidableEq κ] in
/-- Of all orders that respect what is read, the scheduler finds the least. -/
theorem Run.eq_or_lex_of_isOrder {taken other : List (Fin n)}
    (h : Run tasks [] (List.finRange n) taken []) (hother : IsOrder tasks other) :
    other = taken ∨ List.Lex (· < ·) taken other :=
  h.eq_or_lex rfl (List.pairwise_lt_finRange n) hother.perm (isOrder_iff.mp hother).2

/-- An order of registration that respects what is read is kept. -/
theorem order_of_isOrder_finRange (hc : Consistent tasks) (h : IsOrder tasks (List.finRange n)) :
    order tasks = .ok (List.finRange n) := by
  obtain ⟨taken, stuck, hrun, heq⟩ := order_of_consistent hc
  have htaken := hrun.taken_eq_waiting (isOrder_iff.mp h).2
  have hstuck : stuck = [] := by simpa [htaken] using hrun.perm.length_eq
  rw [heq, if_pos hstuck, htaken]

end Outcomes

/-- What the schedule needs to know of the entry with each number. -/
def numbered {α : Type u} {κ : Type} (task : α → Task κ) (entries : List α) :
    Fin entries.length → Task κ :=
  task ∘ entries.get

theorem schedule_eq_map_order {α : Type u} {κ : Type} [DecidableEq κ] (task : α → Task κ)
    (entries : List α) :
    schedule task entries = (order (numbered task entries)).map (List.map entries.get) :=
  rfl

/-- Entries that are registered behind those that they read of are scheduled as they are
registered. -/
theorem schedule_of_pairwise {α : Type u} {κ : Type} [DecidableEq κ] {task : α → Task κ}
    {entries : List α} (hids : (entries.map fun e => (task e).id).Nodup)
    (hwrites : (entries.flatMap fun e => (task e).writes).Nodup)
    (hreads : ∀ e ∈ entries, ∀ k ∈ (task e).reads, ∃ d ∈ entries, k ∈ (task d).writes)
    (hturn : entries.Pairwise fun e d => ∀ k ∈ (task d).writes, k ∉ (task e).reads) :
    schedule task entries = .ok entries := by
  have hentries := List.map_get_finRange entries
  have hconsistent : Consistent (numbered task entries) := by
    refine ⟨fun i j hij => ?_, ?_, fun i k hk => ?_⟩
    · exact List.nodup_iff_injective_get.mp (List.Nodup.of_map _ hids) (List.inj_on_of_nodup_map hids
        (List.get_mem ..) (List.get_mem ..) hij)
    · rw [← hentries, List.flatMap_map] at hwrites
      exact hwrites
    · obtain ⟨d, hd, hk'⟩ := hreads _ (List.get_mem entries i) k hk
      obtain ⟨w, rfl⟩ := List.get_of_mem hd
      exact ⟨w, hk'⟩
  -- Whoever is fed stands behind, so the order of registration is one that counts as an order.
  have hless (i j : Fin entries.length) (hij : Feeds (numbered task entries) i j) : i < j := by
    obtain ⟨hne, k, hk, hk'⟩ := hij
    refine lt_of_le_of_ne (not_lt.mp fun hlt => ?_) hne
    exact List.pairwise_iff_get.mp hturn j i hlt k hk hk'
  have horder : IsOrder (numbered task entries) (List.finRange entries.length) :=
    ⟨.refl _, fun i j hij => by simpa using hless i j hij⟩
  rw [schedule_eq_map_order, order_of_isOrder_finRange hconsistent horder]
  exact congrArg Except.ok hentries

end Schedule

open Schedule in
/-- Entries can be scheduled exactly if their names differ, nothing is written twice, all that is
read is written, and no entry feeds itself through others. The schedule then lists all entries, each
behind those that write for it, and is the least such list by the numbers of registration; an order
of registration that is fine is kept. If a cycle is reported, then with the names of the entries
that lie on one or are fed by one, in the order of registration. -/
theorem schedule_least_or_stuck {α : Type u} {κ : Type} [DecidableEq κ] (task : α → Task κ)
    (entries : List α) :
    ((∃ out, schedule task entries = .ok out) ↔ Schedulable (numbered task entries)) ∧
    (∀ out, schedule task entries = .ok out → out.Perm entries ∧
      ∃ order, out = order.map entries.get ∧ IsOrder (numbered task entries) order ∧
        ∀ other, IsOrder (numbered task entries) other →
          other = order ∨ List.Lex (· < ·) order other) ∧
    (Consistent (numbered task entries) →
      IsOrder (numbered task entries) (List.finRange entries.length) →
      schedule task entries = .ok entries) ∧
    ∀ ids, schedule task entries = .error (.cycle ids) →
      ∃ stuck : List (Fin entries.length), stuck.Pairwise (· < ·) ∧
        ids = stuck.map (fun i => (task entries[i]).id) ∧
        ∀ i, i ∈ stuck ↔ ∃ c, TransGen (Feeds (numbered task entries)) c c ∧
          ReflTransGen (Feeds (numbered task entries)) c i := by
  have hentries := List.map_get_finRange entries
  rw [schedule_eq_map_order]
  refine ⟨?_, fun out hout => ?_, fun hc hvalid => ?_, fun ids hids => ?_⟩
  · rw [← exists_order_iff]
    cases order (numbered task entries) <;> simp [Except.map]
  · cases hfound : order (numbered task entries) with
    | error e => simp [hfound, Except.map] at hout
    | ok found =>
      have hout : found.map entries.get = out := by simpa [hfound, Except.map] using hout
      -- What the loop takes is a run, and runs give the least order.
      obtain ⟨-, hrun⟩ := order_eq_ok hfound
      have hvalid := hrun.isOrder
      refine ⟨?_, found, hout.symm, hvalid, fun other => hrun.eq_or_lex_of_isOrder⟩
      rw [← hout]
      exact (hvalid.perm.map entries.get).trans (.of_eq hentries)
  · rw [order_of_isOrder_finRange hc hvalid]
    exact congrArg Except.ok hentries
  · cases hfound : order (numbered task entries) with
    | ok found => simp [hfound, Except.map] at hids
    | error e =>
      have he : e = .cycle ids := by simpa [hfound, Except.map] using hids
      obtain ⟨taken, stuck, hrun, hstuck⟩ := order_eq_cycle (he ▸ hfound)
      exact ⟨stuck, (List.pairwise_lt_finRange _).sublist hrun.stuck_sublist, hstuck,
        fun i => hrun.mem_stuck_iff⟩

/-- A task that reads two artifacts of another one, one of them twice, comes behind it. -/
example : schedule id [({ id := "a", reads := [0, -1, 0] } : Task Int),
    { id := "b", reads := [5], writes := [0, 5, -1] }, { id := "c" }] =
      .ok [{ id := "b", reads := [5], writes := [0, 5, -1] }, { id := "a", reads := [0, -1, 0] },
        { id := "c" }] := by
  decide +kernel

open Schedule in
/-- Of tasks that feed each other, one that reads two artifacts of them, and one that reads only of
itself, the last one is no part of the cycle that is reported. Kinds of artifacts are numbers
here. -/
theorem schedule_blocked_by_cycle :
    let tasks : List (Task Int) := [{ id := "a", reads := [7], writes := [0, -1] },
      { id := "b", reads := [0], writes := [7] }, { id := "c", reads := [0, -1, 0] },
      { id := "d", reads := [3], writes := [3] }]
    schedule id tasks = .error (.cycle ["a", "b", "c"]) ∧
      ∃ stuck : List (Fin tasks.length), stuck.Pairwise (· < ·) ∧
        ["a", "b", "c"] = stuck.map (fun i => tasks[i].id) ∧
        ∀ i, i ∈ stuck ↔ ∃ c, TransGen (Feeds (numbered id tasks)) c c ∧
          ReflTransGen (Feeds (numbered id tasks)) c i := by
  intro tasks
  have hcycle : schedule id tasks = .error (.cycle ["a", "b", "c"]) := by decide +kernel
  exact ⟨hcycle, (schedule_least_or_stuck id tasks).2.2.2 _ hcycle⟩

end CSharpAudit
