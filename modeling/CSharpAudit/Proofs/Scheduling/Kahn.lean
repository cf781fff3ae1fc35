import CSharpAudit.Proofs.Scheduling.Heap
import CSharpAudit.Proofs.Scheduling.Run

/-!
# The scheduler runs

The checks of the scheduler refuse tasks that contradict each other. For all others they list, for
each artifact that is read, an edge from the task that writes it to the one that reads it. Between
two turns of the loop, each task counts the edges from tasks that have not been taken, and the heap
holds those tasks of which this count is zero. The least of them is the first waiting task that is
fed, so each turn of the loop is a step of a run.

## Main definitions

* `Schedule.Checks` — when a computation succeeds, and with which value
* `Schedule.edges` — who reads of whom, artifact by artifact
* `Schedule.Stands` — what holds between two turns of the loop

## Main results

* `Schedule.register_checks`, `Schedule.connect_checks` — what the checks let pass
* `Schedule.Stands.finish` — the loop is a run of the scheduler
* `Schedule.order_of_consistent` — consistent tasks are put in order by a run
-/

namespace CSharpAudit

namespace Schedule

/-! ### Tasks that contradict each other -/

section Checks

variable {κ β γ : Type} {p q : Prop}

/-- A computation succeeds exactly if something holds, with a value that is known in advance.
Otherwise it is refused, and not because of a cycle. -/
structure Checks (x : Except (ScheduleError κ) β) (p : Prop) (b : β) : Prop where
  ok : p → x = .ok b
  refused : ¬ p → ∃ e, x = .error e ∧ ∀ ids, e ≠ .cycle ids

namespace Checks

variable {x : Except (ScheduleError κ) β} {b : β}

/-- A check that fails with any other fault than a cycle. -/
theorem of_error {e : ScheduleError κ} (hp : ¬ p) (he : ∀ ids, e ≠ .cycle ids) :
    Checks (.error e) p b :=
  ⟨fun h => absurd h hp, fun _ => ⟨e, rfl, he⟩⟩

/-- A check that succeeds. -/
theorem of_ok (hp : p) : Checks (.ok b : Except (ScheduleError κ) β) p b :=
  ⟨fun _ => rfl, fun h => absurd hp h⟩

theorem congr (h : Checks x p b) (hiff : p ↔ q) : Checks x q b :=
  ⟨fun hq => h.ok (hiff.mpr hq), fun hq => h.refused (mt hiff.mp hq)⟩

/-- Two checks in a row check both. -/
theorem bind {f : β → Except (ScheduleError κ) γ} {c : γ} (h : Checks x p b)
    (hf : p → Checks (f b) q c) : Checks (x >>= f) (p ∧ q) c := by
  constructor
  · rintro ⟨hp, hq⟩
    rw [h.ok hp]
    exact (hf hp).ok hq
  · intro hnot
    by_cases hp : p
    · rw [h.ok hp]
      exact (hf hp).refused fun hq => hnot ⟨hp, hq⟩
    · obtain ⟨e, rfl, he⟩ := h.refused hp
      exact ⟨e, rfl, he⟩

end Checks

end Checks

section Tasks

variable {κ : Type} [DecidableEq κ] {n : Nat} {tasks : Fin n → Task κ} {i j w : Fin n}

theorem lookup_eq_none_iff {l : List (κ × Fin n)} {k : κ} :
    l.lookup k = none ↔ k ∉ l.map (·.1) := by
  simp only [List.lookup_eq_none_iff, List.mem_map, not_exists, not_and, bne_iff_ne, ne_eq]
  exact forall₂_congr fun _ _ => not_congr eq_comm

/-- The writer map takes a kind unless it has a writer. -/
theorem addWrites_checks {r : Register κ n} {ks : List κ} (h : (r.writers.map (·.1)).Nodup) :
    Checks (ks.foldlM (Register.addWrite tasks i) r) (r.writers.map (·.1) ++ ks).Nodup
      ⟨r.ids, r.writers ++ ks.map (·, i)⟩ := by
  induction ks generalizing r with
  | nil =>
    rw [List.append_nil, List.map_nil, List.append_nil]
    exact .of_ok h
  | cons k ks ih =>
    rw [List.foldlM_cons, Register.addWrite]
    cases hk : r.writers.lookup k with
    | some prev =>
      refine .of_error (fun hnodup => ?_) (by simp)
      -- A kind that has a writer would stand in the list twice.
      have hmem : k ∈ r.writers.map (·.1) := by
        by_contra hnot
        simp [lookup_eq_none_iff.mpr hnot] at hk
      exact (List.nodup_append'.mp hnodup).2.2 hmem (List.mem_cons_self ..)
    | none =>
      have hnot := lookup_eq_none_iff.mp hk
      have hnext : ((r.writers ++ [(k, i)]).map (·.1)).Nodup := by
        simpa [List.nodup_append', h] using hnot
      -- The invariant holds behind this kind too, so the others are taken as long as they differ.
      have hrest := @ih ⟨r.ids, r.writers ++ [(k, i)]⟩ hnext
      rw [List.map_append, List.append_assoc, List.append_assoc] at hrest
      exact hrest

/-- The tasks that are registered have names of their own and write nothing twice. -/
theorem addTasks_checks {r : Register κ n} {is : List (Fin n)} (hids : r.ids.Nodup)
    (hwrites : (r.writers.map (·.1)).Nodup) :
    Checks (is.foldlM (Register.addTask tasks) r)
      ((r.ids ++ is.map fun i => (tasks i).id).Nodup ∧
        (r.writers.map (·.1) ++ is.flatMap fun i => (tasks i).writes).Nodup)
      ⟨r.ids ++ is.map (fun i => (tasks i).id),
        r.writers ++ is.flatMap fun i => (tasks i).writes.map (·, i)⟩ := by
  induction is generalizing r with
  | nil =>
    simp only [List.map_nil, List.flatMap_nil, List.append_nil]
    exact .of_ok ⟨hids, hwrites⟩
  | cons i is ih =>
    rw [List.foldlM_cons, Register.addTask]
    split
    -- A name that is known would stand in the list twice.
    · rename_i hid
      refine .of_error (fun hnodup => ?_) (by simp)
      exact (List.nodup_append'.mp hnodup.1).2.2 hid (List.mem_cons_self ..)
    · rename_i hid
      have hids' : (r.ids ++ [(tasks i).id]).Nodup := by
        simpa [List.nodup_append', hids] using hid
      have hkinds : (r.writers ++ (tasks i).writes.map (·, i)).map (·.1) =
          r.writers.map (·.1) ++ (tasks i).writes := by simp [Function.comp_def]
      -- All that the task writes has to be new before the next one is looked at.
      have hwrite := @addWrites_checks _ _ _ tasks i ⟨r.ids ++ [(tasks i).id], r.writers⟩
        (tasks i).writes hwrites
      have hall := hwrite.bind (f := fun r => is.foldlM (Register.addTask tasks) r) fun hnext =>
        ih hids' (hkinds ▸ hnext)
      simp only [hkinds, List.append_assoc, List.singleton_append] at hall
      refine hall.congr ⟨And.right, fun h => ⟨?_, h⟩⟩
      rw [List.flatMap_cons, ← List.append_assoc] at h
      exact h.2.sublist (List.sublist_append_left ..)

/-- What is known of all tasks once they are registered. -/
def registered (tasks : Fin n → Task κ) : Register κ n where
  ids := (List.finRange n).map fun i => (tasks i).id
  writers := (List.finRange n).flatMap fun i => (tasks i).writes.map (·, i)

/-- Tasks are registered unless two have the same id or write the same kind. -/
theorem register_checks : Checks (register tasks)
    (((List.finRange n).map fun i => (tasks i).id).Nodup ∧
      ((List.finRange n).flatMap fun i => (tasks i).writes).Nodup) (registered tasks) := by
  have h := @addTasks_checks _ _ _ tasks {} (List.finRange n) .nil .nil
  simp only [List.map_nil, List.nil_append] at h
  exact h

/-- In a list without clashes, the task that writes an artifact is found. -/
theorem lookup_eq_some_iff {l : List (κ × Fin n)} {k : κ} (h : (l.map (·.1)).Nodup) :
    l.lookup k = some i ↔ (k, i) ∈ l := by
  induction l with
  | nil => simp
  | cons entry l ih =>
    obtain ⟨k', i'⟩ := entry
    obtain ⟨hnot, hnodup⟩ := List.nodup_cons.mp h
    rw [List.lookup_cons, List.mem_cons, Prod.mk.injEq]
    by_cases hk : k = k'
    · subst hk
      have hmem : (k, i) ∉ l := fun hmem => hnot (List.mem_map_of_mem (f := (·.1)) hmem)
      simp [hmem, eq_comm]
    · have hk' : (k == k') = false := beq_false_of_ne hk
      simp [hk, hk', ih hnodup]

/-! ### Who waits for whom -/

/-- The edge for an artifact that a task reads, unless it writes it itself. -/
def edge? (writers : List (κ × Fin n)) (i : Fin n) (k : κ) : Option (Fin n × Fin n) :=
  (writers.lookup k).bind fun w => if w = i then none else some (w, i)

/-- Who reads of whom, as often as it reads an artifact of it. -/
def edges (tasks : Fin n → Task κ) (writers : List (κ × Fin n)) : List (Fin n × Fin n) :=
  (List.finRange n).flatMap fun i => (tasks i).reads.filterMap (edge? writers i)

/-- Links with more edges. -/
def Links.addAll (links : Links n) (es : List (Fin n × Fin n)) : Links n :=
  es.foldl (fun links e => links.add e.1 e.2) links

theorem addReads_checks {writers : List (κ × Fin n)} {links : Links n} {ks : List κ} :
    Checks (ks.foldlM (Links.addRead tasks writers i) links) (∀ k ∈ ks, k ∈ writers.map (·.1))
      (links.addAll (ks.filterMap (edge? writers i))) := by
  induction ks generalizing links with
  | nil => exact .of_ok (by simp)
  | cons k ks ih =>
    rw [List.foldlM_cons, List.forall_mem_cons, List.filterMap_cons]
    cases hk : writers.lookup k with
    | none =>
      rw [Links.addRead, hk]
      exact .of_error (fun h => lookup_eq_none_iff.mp hk h.1) (by simp)
    | some w =>
      have hmem : k ∈ writers.map (·.1) := by
        by_contra hnot
        simp [lookup_eq_none_iff.mpr hnot] at hk
      refine Checks.congr ?_ (and_iff_right hmem).symm
      -- A task that reads what it writes itself does not wait for it.
      by_cases hself : w = i
      · have hstep : Links.addRead tasks writers i links k = .ok links := by
          simp [Links.addRead, hk, hself]
        have hedge : edge? writers i k = none := by simp [edge?, hk, hself]
        rw [hstep, hedge]
        exact ih
      · have hstep : Links.addRead tasks writers i links k = .ok (links.add w i) := by
          simp [Links.addRead, hk, hself]
        have hedge : edge? writers i k = some (w, i) := by simp [edge?, hk, hself]
        rw [hstep, hedge]
        exact ih

/-- The tasks that are linked read only what is written. -/
theorem addReadsOf_checks {writers : List (κ × Fin n)} {links : Links n} {is : List (Fin n)} :
    Checks (is.foldlM (fun links i => (tasks i).reads.foldlM (Links.addRead tasks writers i) links)
      links) (∀ i ∈ is, ∀ k ∈ (tasks i).reads, k ∈ writers.map (·.1))
      (links.addAll (is.flatMap fun i => (tasks i).reads.filterMap (edge? writers i))) := by
  induction is generalizing links with
  | nil => exact .of_ok (by simp)
  | cons i is ih =>
    rw [List.foldlM_cons, List.forall_mem_cons, List.flatMap_cons, Links.addAll, List.foldl_append]
    exact addReads_checks.bind fun _ => ih

/-- Tasks are linked unless one reads a kind that nobody writes. -/
theorem connect_checks {writers : List (κ × Fin n)} : Checks (connect tasks writers)
    (∀ i, ∀ k ∈ (tasks i).reads, k ∈ writers.map (·.1))
    (Links.addAll {} (edges tasks writers)) :=
  addReadsOf_checks.congr (by simp)

end Tasks

section Edges

variable {n : Nat} {es : List (Fin n × Fin n)} {v w : Fin n}

theorem succ_empty (w : Fin n) : ({} : Links n).succ.get w = [] :=
  Vector.getElem_replicate _

theorem indegree_empty (j : Fin n) : ({} : Links n).indegree.get j = 0 :=
  Vector.getElem_replicate _

@[simp] theorem succ_add_self (links : Links n) (w i : Fin n) :
    (links.add w i).succ.get w = links.succ.get w ++ [i] :=
  Vector.getElem_set_self _

theorem succ_add_of_ne (links : Links n) (i : Fin n) (h : w ≠ v) :
    (links.add w i).succ.get v = links.succ.get v :=
  Vector.getElem_set_ne w.isLt v.isLt fun heq => h (Fin.ext heq)

@[simp] theorem indegree_add_self (links : Links n) (w i : Fin n) :
    (links.add w i).indegree.get i = links.indegree.get i + 1 :=
  Vector.getElem_set_self _

theorem indegree_add_of_ne (links : Links n) (i : Fin n) (h : w ≠ v) :
    (links.add i w).indegree.get v = links.indegree.get v :=
  Vector.getElem_set_ne w.isLt v.isLt fun heq => h (Fin.ext heq)

/-- A task is followed by the targets of its edges. -/
theorem succ_addAll (links : Links n) (w : Fin n) : (links.addAll es).succ.get w =
    links.succ.get w ++ (es.filter (·.1 = w)).map (·.2) := by
  induction es generalizing links with
  | nil => simp [Links.addAll]
  | cons e es ih =>
    rw [show links.addAll (e :: es) = (links.add e.1 e.2).addAll es from rfl, ih]
    by_cases hw : e.1 = w
    · subst hw
      simp
    · rw [succ_add_of_ne links e.2 hw]
      simp [hw]

/-- The counter of a task counts the edges into it, several between two tasks included. -/
theorem indegree_addAll (links : Links n) (j : Fin n) : (links.addAll es).indegree.get j =
    links.indegree.get j + es.countP (·.2 = j) := by
  induction es generalizing links with
  | nil => simp [Links.addAll]
  | cons e es ih =>
    rw [show links.addAll (e :: es) = (links.add e.1 e.2).addAll es from rfl, ih]
    by_cases hj : e.2 = j
    · subst hj
      simp
      omega
    · rw [indegree_add_of_ne links e.1 hj]
      simp [hj]

end Edges

/-! ### Between two turns of the loop -/

section Loop

variable {n : Nat} {es : List (Fin n × Fin n)} {done left : List (Fin n)} {i j : Fin n}
  {p : Progress n}

/-- How many edges lead to a task from tasks that have not been taken. -/
def pending (es : List (Fin n × Fin n)) (done : List (Fin n)) (j : Fin n) : Nat :=
  es.countP fun e => e.2 = j ∧ e.1 ∉ done

/-- Nothing is pending when all sources are done. -/
theorem pending_eq_zero_iff : pending es done j = 0 ↔ ∀ i, (i, j) ∈ es → i ∈ done := by
  simp only [pending, List.countP_eq_zero, decide_eq_true_eq, not_and, not_not, Prod.forall]
  exact ⟨fun h i hi => h i j hi rfl, fun h i j' hi hj => h i (hj ▸ hi)⟩

/-- A task that is taken no longer counts for those that it leads to. -/
theorem pending_concat (hi : i ∉ done) : pending es done j =
    pending es (done ++ [i]) j + ((es.filter (·.1 = i)).map (·.2)).count j := by
  rw [pending, List.countP_eq_countP_filter_add es _ (·.1 = i), Nat.add_comm, pending,
    List.count, List.countP_map, List.countP_filter, List.countP_filter, List.countP_filter]
  congr 1
  · refine List.countP_congr fun e _ => ?_
    simp [and_assoc]
  · refine List.countP_congr fun e _ => ?_
    simp +contextual [hi]

/-- What holds when some tasks have been taken, and those in `left` still count the task that was
taken last. -/
structure Stands (es : List (Fin n × Fin n)) (left : List (Fin n)) (p : Progress n) : Prop where
  ordered_ready : IndexHeap.Ordered p.ready.items
  nodup : (p.ordered ++ p.ready.items.toList).Nodup
  indegree_eq : ∀ j, p.indegree.get j = pending es p.ordered j + left.count j
  /-- Tasks are in the heap, or have been taken from it, if they wait for nothing. -/
  mem_iff : ∀ j, j ∈ p.ordered ++ p.ready.items.toList ↔ p.indegree.get j = 0

/-- A release takes one off the counter. -/
theorem indegree_release_self (p : Progress n) (j : Fin n) :
    (p.release j).indegree.get j = p.indegree.get j - 1 :=
  Vector.getElem_set_self _

theorem indegree_release_of_ne (p : Progress n) (h : i ≠ j) :
    (p.release j).indegree.get i = p.indegree.get i :=
  Vector.getElem_set_ne j.isLt i.isLt fun heq => h (Fin.ext heq.symm)

/-- A turn of the loop appends one task. -/
theorem ordered_take (succ : Vector (List (Fin n)) n) (p : Progress n) (i : Fin n)
    (ready : IndexHeap n) : (p.take succ i ready).ordered = p.ordered ++ [i] := by
  suffices h : ∀ (js : List (Fin n)) (q : Progress n),
      (js.foldl Progress.release q).ordered = q.ordered from h succ[i] _
  intro js
  induction js with
  | nil => exact fun _ => rfl
  | cons j js ih => exact fun q => ih (q.release j)

namespace Stands

/-- Between two releases the counter also counts the edges that are left. -/
theorem indegree_release (h : Stands es (j :: left) p) (i : Fin n) :
    (p.release j).indegree.get i = pending es p.ordered i + left.count i := by
  have hi := h.indegree_eq i
  by_cases hij : i = j
  · subst hij
    rw [List.count_cons_self] at hi
    rw [indegree_release_self]
    omega
  · rw [List.count_cons_of_ne (Ne.symm hij)] at hi
    rw [indegree_release_of_ne p hij, hi]

/-- Letting one more task wait for less leaves one less that counts the task taken last. -/
theorem release (h : Stands es (j :: left) p) : Stands es left (p.release j) := by
  -- It still waits for the task taken last, so it is neither in the heap nor taken.
  have hnot : j ∉ p.ordered ++ p.ready.items.toList := fun hmem => by
    have hj := h.indegree_eq j
    rw [(h.mem_iff j).mp hmem, List.count_cons_self] at hj
    omega
  have hmem (i : Fin n) (hi : i ≠ j) :
      i ∈ p.ordered ++ p.ready.items.toList ↔ (p.release j).indegree.get i = 0 := by
    rw [indegree_release_of_ne p hi, h.mem_iff]
  -- It enters the heap if this was all it waited for.
  by_cases hzero : p.indegree.get j - 1 = 0
  · have hready : (p.release j).ready = p.ready.push j := if_pos hzero
    have hperm : (p.ordered ++ (p.ready.push j).items.toList).Perm
        (j :: (p.ordered ++ p.ready.items.toList)) :=
      ((p.ready.perm_push j).append_left _).trans List.perm_middle
    refine ⟨?_, ?_, h.indegree_release, fun i => ?_⟩
    · rw [hready]
      exact IndexHeap.ordered_push h.ordered_ready j
    · rw [hready]
      exact hperm.nodup_iff.mpr (List.nodup_cons.mpr ⟨hnot, h.nodup⟩)
    · rw [hready]
      refine hperm.mem_iff.trans ?_
      by_cases hi : i = j
      · subst hi
        rw [indegree_release_self]
        simpa using hzero
      · rw [List.mem_cons, or_iff_right hi, hmem i hi]
  · have hready : (p.release j).ready = p.ready := if_neg hzero
    refine ⟨hready ▸ h.ordered_ready, hready ▸ h.nodup, h.indegree_release, fun i => ?_⟩
    rw [hready]
    by_cases hi : i = j
    · subst hi
      rw [indegree_release_self]
      exact iff_of_false hnot hzero
    · exact hmem i hi

/-- Behind a turn the counters are those of the tasks that are done. -/
theorem releaseAll (h : Stands es left p) : Stands es [] (left.foldl Progress.release p) := by
  induction left generalizing p with
  | nil => exact h
  | cons j left ih => exact ih h.release

/-- A turn of the loop: the task that is taken is the least of those in the heap. -/
theorem take {succ : Vector (List (Fin n)) n} {rest : IndexHeap n} (h : Stands es [] p)
    (hsucc : ∀ w, succ.get w = (es.filter (·.1 = w)).map (·.2))
    (hpop : p.ready.pop? = some (i, rest)) : Stands es [] (p.take succ i rest) := by
  obtain ⟨hperm, -, hrest⟩ := IndexHeap.pop?_eq_some h.ordered_ready hpop
  have hall : (p.ordered ++ p.ready.items.toList).Perm ((p.ordered ++ [i]) ++ rest.items.toList) := by
    simpa using hperm.append_left p.ordered
  have hnodup := hall.nodup_iff.mp h.nodup
  have hi : i ∉ p.ordered := fun hmem =>
    (List.nodup_append'.mp (List.nodup_append'.mp hnodup).1).2.2 hmem (List.mem_singleton_self i)
  refine releaseAll ⟨hrest, hnodup, fun j => ?_, fun j => ?_⟩
  · rw [show succ[i] = _ from hsucc i, h.indegree_eq, pending_concat hi]
    simp
  · rw [← hall.mem_iff, h.mem_iff]

end Stands

/-- The tasks that have not been taken, in the order of registration. -/
def waiting (done : List (Fin n)) : List (Fin n) := (List.finRange n).filter (· ∉ done)

theorem mem_waiting : i ∈ waiting done ↔ i ∉ done := by simp [waiting]

theorem waiting_concat {before after : List (Fin n)} (h : waiting done = before ++ i :: after) :
    waiting (done ++ [i]) = before ++ after := by
  have hnodup : (waiting done).Nodup := (List.nodup_finRange n).filter _
  rw [h, List.nodup_append'] at hnodup
  have hfilter : waiting (done ++ [i]) = (waiting done).filter (· ≠ i) := by
    simp [waiting, List.filter_filter, Bool.and_comm]
  have hbefore : ∀ x ∈ before, x ≠ i := fun x hx hxi =>
    hnodup.2.2 hx (hxi ▸ List.mem_cons_self ..)
  have hafter : ∀ x ∈ after, x ≠ i := fun x hx hxi =>
    (List.nodup_cons.mp hnodup.2.1).1 (hxi ▸ hx)
  rw [hfilter, h, List.filter_append, List.filter_cons_of_neg (by simp),
    List.filter_eq_self.mpr (by simpa using hbefore),
    List.filter_eq_self.mpr (by simpa using hafter)]

namespace Stands

variable {κ : Type} {tasks : Fin n → Task κ} {succ : Vector (List (Fin n)) n}

/-- The heap holds the tasks whose sources are done. -/
theorem mem_ready_iff (h : Stands es [] p) (hes : ∀ i j, (i, j) ∈ es ↔ Feeds tasks i j)
    (hj : j ∉ p.ordered) : j ∈ p.ready.items.toList ↔ Fed tasks p.ordered j := by
  have hmem := h.mem_iff j
  rw [h.indegree_eq, List.mem_append, or_iff_right hj] at hmem
  rw [hmem, Fed]
  simp only [← hes, ← pending_eq_zero_iff]
  simp

/-- The task at the top of the heap is the first one waiting that is fed. -/
theorem exists_waiting_eq {rest : IndexHeap n} (h : Stands es [] p)
    (hes : ∀ i j, (i, j) ∈ es ↔ Feeds tasks i j) (hpop : p.ready.pop? = some (i, rest)) :
    ∃ before after, waiting p.ordered = before ++ i :: after ∧
      (∀ x ∈ before, ¬ Fed tasks p.ordered x) ∧ Fed tasks p.ordered i := by
  obtain ⟨hperm, hleast, -⟩ := IndexHeap.pop?_eq_some h.ordered_ready hpop
  have hready : i ∈ p.ready.items.toList := hperm.mem_iff.mpr (List.mem_cons_self ..)
  have hi : i ∉ p.ordered := fun hmem => (List.nodup_append'.mp h.nodup).2.2 hmem hready
  obtain ⟨before, after, hsplit⟩ := List.append_of_mem (mem_waiting.mpr hi)
  refine ⟨before, after, hsplit, fun x hx hfed => ?_, (h.mem_ready_iff hes hi).mp hready⟩
  have hsorted : (waiting p.ordered).Pairwise (· < ·) := (List.pairwise_lt_finRange n).filter _
  have hx' : x ∉ p.ordered := mem_waiting.mp (hsplit ▸ List.mem_append_left _ hx)
  rw [hsplit] at hsorted
  have hlt := (List.pairwise_append.mp hsorted).2.2 x hx i (List.mem_cons_self ..)
  exact absurd (hleast x ((h.mem_ready_iff hes hx').mpr hfed)) (not_le.mpr hlt)

/-- The loop goes on until the heap is empty, and is a run of the scheduler. -/
theorem finish (h : Stands es [] p) (hes : ∀ i j, (i, j) ∈ es ↔ Feeds tasks i j)
    (hsucc : ∀ w, succ.get w = (es.filter (·.1 = w)).map (·.2)) :
    Stands es [] (p.finish succ) ∧ (p.finish succ).ready.items.toList = [] ∧
      ∃ taken, (p.finish succ).ordered = p.ordered ++ taken ∧
        Run tasks p.ordered (waiting p.ordered) taken (waiting (p.finish succ).ordered) := by
  fun_induction p.finish succ with
  | case1 p hpop =>
    have hempty := IndexHeap.pop?_eq_none_iff.mp hpop
    refine ⟨h, hempty, [], (List.append_nil _).symm, .stop fun x hx => ?_⟩
    rw [← h.mem_ready_iff hes (mem_waiting.mp hx), hempty]
    exact List.not_mem_nil
  | case2 p i rest hpop ih =>
    obtain ⟨before, after, hsplit, hbefore, hi⟩ := h.exists_waiting_eq hes hpop
    obtain ⟨hend, hempty, taken, htaken, hrun⟩ := ih (h.take hsucc hpop)
    rw [ordered_take] at htaken hrun
    rw [waiting_concat hsplit] at hrun
    refine ⟨hend, hempty, i :: taken, by simpa using htaken, ?_⟩
    rw [hsplit]
    exact .take hbefore hi hrun

/-- The tasks that still count others when the loop has ended are those it has not taken. -/
theorem blocked_eq (h : Stands es [] p) (hempty : p.ready.items.toList = []) :
    p.blocked = waiting p.ordered := by
  refine List.filter_congr fun i _ => decide_eq_decide.mpr ?_
  have hi := h.mem_iff i
  rw [hempty, List.append_nil, h.indegree_eq] at hi
  rw [hi, show p.indegree[i] = _ from h.indegree_eq i]
  omega

end Stands

end Loop

section Beginning

variable {n : Nat} {es : List (Fin n × Fin n)} {js : List (Fin n)} {heap : IndexHeap n}

/-- Pushing keeps a heap in order and adds what is pushed. -/
theorem pushAll_ordered_perm (h : IndexHeap.Ordered heap.items) :
    IndexHeap.Ordered (js.foldl IndexHeap.push heap).items ∧
      (js.foldl IndexHeap.push heap).items.toList.Perm (js ++ heap.items.toList) := by
  induction js generalizing heap with
  | nil => exact ⟨h, .refl _⟩
  | cons j js ih =>
    obtain ⟨hordered, hperm⟩ := ih (IndexHeap.ordered_push h j)
    exact ⟨hordered, hperm.trans (((heap.perm_push j).append_left js).trans List.perm_middle)⟩

/-- In the beginning the heap holds the tasks that no edge leads to. -/
theorem stands_start : Stands es [] (Progress.start (Links.addAll {} es).indegree) := by
  let links : Links n := Links.addAll {} es
  let sources := (List.finRange n).filter fun i : Fin n => links.indegree[i] = 0
  have hready : (Progress.start links.indegree).ready = sources.foldl IndexHeap.push {} := by
    simp [Progress.start, sources, List.foldl_filter]
  have hempty : IndexHeap.Ordered (n := n) #[] := fun k hi => absurd hi (Nat.not_lt_zero _)
  have hpush := @pushAll_ordered_perm n sources {} hempty
  rw [← hready, List.append_nil] at hpush
  have hnodup : sources.Nodup := (List.nodup_finRange n).filter _
  refine ⟨hpush.1, hpush.2.nodup_iff.mpr hnodup, fun j => ?_, fun j => ?_⟩
  · refine (indegree_addAll {} j).trans ?_
    rw [indegree_empty]
    simp [pending, Progress.start]
  · refine hpush.2.mem_iff.trans ?_
    simp [sources]
    rfl

/-- From the beginning on, the loop is a run over all tasks, and leaves those it has not taken
waiting. -/
theorem run_finish {κ : Type} {tasks : Fin n → Task κ}
    (hes : ∀ i j, (i, j) ∈ es ↔ Feeds tasks i j) {final : Progress n}
    (hfinal : final = (Progress.start (Links.addAll {} es).indegree).finish
      (Links.addAll {} es).succ) :
    Run tasks [] (List.finRange n) final.ordered (waiting final.ordered) ∧
      final.blocked = waiting final.ordered := by
  have hsucc (w : Fin n) : (Links.addAll {} es).succ.get w = (es.filter (·.1 = w)).map (·.2) := by
    rw [succ_addAll, succ_empty, List.nil_append]
  obtain ⟨hend, hempty, taken, htaken, hrun⟩ := stands_start.finish hes hsucc
  rw [← hfinal] at hend hempty htaken hrun
  have hordered : final.ordered = taken := htaken
  have hwaiting : waiting [] = List.finRange n := by simp [waiting]
  refine ⟨?_, hend.blocked_eq hempty⟩
  rw [← hwaiting]
  nth_rewrite 1 [hordered]
  exact hrun

end Beginning

/-! ### All of it -/

section Order

variable {κ : Type} [DecidableEq κ] {n : Nat} {tasks : Fin n → Task κ} {i j : Fin n} {k : κ}

omit [DecidableEq κ] in
theorem keys_registered (tasks : Fin n → Task κ) : (registered tasks).writers.map (·.1) =
    (List.finRange n).flatMap fun i => (tasks i).writes := by
  simp [registered, List.map_flatMap, Function.comp_def]

omit [DecidableEq κ] in
/-- The writer map tells who writes a kind. -/
theorem mem_registered_iff : (k, i) ∈ (registered tasks).writers ↔ k ∈ (tasks i).writes := by
  simp [registered]

omit [DecidableEq κ] in
/-- Tasks are consistent if both checks succeed. -/
theorem consistent_iff : Consistent tasks ↔
    (((List.finRange n).map fun i => (tasks i).id).Nodup ∧
      ((List.finRange n).flatMap fun i => (tasks i).writes).Nodup) ∧
    ∀ i, ∀ k ∈ (tasks i).reads, k ∈ (registered tasks).writers.map (·.1) := by
  simp only [keys_registered, List.mem_flatMap, List.mem_finRange, true_and]
  constructor
  · exact fun h => ⟨⟨(List.nodup_finRange n).map h.ids_injective, h.writes_nodup⟩, h.reads_written⟩
  · rintro ⟨⟨hids, hwrites⟩, hreads⟩
    refine ⟨fun i j hij => ?_, hwrites, hreads⟩
    exact List.inj_on_of_nodup_map hids (List.mem_finRange i) (List.mem_finRange j) hij

/-- An edge leads from a writer to a reader. -/
theorem mem_edges_iff (h : Consistent tasks) (i j : Fin n) :
    (i, j) ∈ edges tasks (registered tasks).writers ↔ Feeds tasks i j := by
  have hnodup : ((registered tasks).writers.map (·.1)).Nodup :=
    (keys_registered tasks).symm ▸ h.writes_nodup
  simp only [edges, List.mem_flatMap, List.mem_finRange, true_and, List.mem_filterMap, edge?,
    Option.bind_eq_some_iff, lookup_eq_some_iff hnodup, mem_registered_iff]
  constructor
  · rintro ⟨j', k, hreads, w, hwrites, hedge⟩
    split at hedge
    · cases hedge
    · rename_i hne
      obtain ⟨rfl, rfl⟩ := Prod.mk.inj (Option.some.inj hedge)
      exact ⟨hne, k, hwrites, hreads⟩
  · rintro ⟨hne, k, hwrites, hreads⟩
    exact ⟨j, k, hreads, i, hwrites, if_neg hne⟩

/-- Registering and linking tasks succeeds exactly if they do not contradict each other. -/
theorem links_checks (tasks : Fin n → Task κ) :
    Checks (register tasks >>= fun r => connect tasks r.writers) (Consistent tasks)
      (Links.addAll {} (edges tasks (registered tasks).writers)) :=
  (register_checks.bind fun _ => connect_checks).congr consistent_iff.symm

/-- The scheduler registers, connects and then runs its loop. -/
theorem order_eq (tasks : Fin n → Task κ) : order tasks =
    (register tasks >>= fun r => connect tasks r.writers) >>= fun links =>
      let final := (Progress.start links.indegree).finish links.succ
      if final.ordered.length = n then .ok final.ordered
      else .error (.cycle (final.blocked.map fun i => (tasks i).id)) := by
  rw [bind_assoc]
  rfl

/-- Tasks that contradict each other are refused, and not because of a cycle. -/
theorem order_of_not_consistent (h : ¬ Consistent tasks) :
    ∃ e, order tasks = .error e ∧ ∀ ids, e ≠ .cycle ids := by
  obtain ⟨e, he, hne⟩ := (links_checks tasks).refused h
  exact ⟨e, by rw [order_eq, he]; rfl, hne⟩

/-- Tasks that do not contradict each other are put in order by a run, unless some are left over. -/
theorem order_of_consistent (h : Consistent tasks) :
    ∃ taken stuck, Run tasks [] (List.finRange n) taken stuck ∧ order tasks =
      if stuck = [] then .ok taken else .error (.cycle (stuck.map fun i => (tasks i).id)) := by
  let links : Links n := Links.addAll {} (edges tasks (registered tasks).writers)
  let final := (Progress.start links.indegree).finish links.succ
  have hfinal : final = (Progress.start links.indegree).finish links.succ := rfl
  obtain ⟨hrun, hblocked⟩ := run_finish (mem_edges_iff h) hfinal
  have hlength : final.ordered.length = n ↔ waiting final.ordered = [] := by
    have hall := hrun.perm.length_eq
    rw [List.length_append, List.length_finRange] at hall
    rw [← List.length_eq_zero_iff]
    omega
  refine ⟨final.ordered, waiting final.ordered, hrun, ?_⟩
  rw [order_eq, (links_checks tasks).ok h]
  exact if_congr hlength rfl (by rw [hblocked])

end Order

end Schedule

end CSharpAudit
