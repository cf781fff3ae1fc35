import CSharpAudit.Pipeline.Session

/-!
# Schedules

Every pass and every rule set reads some artifacts and writes others. A schedule puts them in an
order in which each artifact is written before it is read; of several that could come next, the one
registered first comes next.

Tasks go by their numbers, in the order of registration. Each task counts what it reads of others,
and those that read nothing of others stand in a heap. The least of them is taken out and comes
next, and for each artifact that a task reads of it, this task waits for one less; a task that waits
for nothing any more enters the heap. Tasks that still wait when the heap is empty are on a cycle or
behind one.

## Main definitions

* `Task` — the name of a pass or rule set, and the artifacts it reads and writes
* `ScheduleError` — why there is no schedule
* `IndexHeap` — a binary heap, of which the least number is taken out first
* `Schedule.register` — which task writes which artifact
* `Schedule.connect` — which task waits for which other ones
* `Schedule.Progress.finish` — takes tasks out of the heap until it is empty
* `schedule` — the order in which tasks are run
-/

namespace CSharpAudit

/-- What the schedule needs to know of a pass or rule set. Artifacts may be of any kinds that can be
told apart. -/
structure Task (κ : Type := ArtifactKind) where
  id : String
  reads : List κ := []
  writes : List κ := []
  deriving DecidableEq, Repr, Inhabited

/-- Why tasks cannot be put in order. -/
inductive ScheduleError (κ : Type := ArtifactKind) where
  | cycle (ids : List String)
  | unsatisfiedRead (id : String) (kind : κ)
  | duplicateWriter (first second : String) (kind : κ)
  | duplicateId (id : String)
  deriving DecidableEq, Repr, Inhabited

namespace ScheduleError

variable {κ : Type}

/-- The tasks that a message names. -/
def ids : ScheduleError κ → List String
  | cycle ids => ids
  | unsatisfiedRead id _ => [id]
  | duplicateWriter first second _ => [first, second]
  | duplicateId id => [id]

/-- The wording of an error. -/
def message [ToString κ] : ScheduleError κ → String
  | cycle ids => "registry: dependency cycle among " ++ ", ".intercalate ids
  | unsatisfiedRead id kind => "registry: " ++ id ++ " reads " ++ toString kind
      ++ " but nothing writes it"
  | duplicateWriter first second kind => "registry: " ++ toString kind ++ " is written by both "
      ++ first ++ " and " ++ second
  | duplicateId id => "registry: duplicate id " ++ id

end ScheduleError

/-! ### Heaps of numbers -/

/-- A binary heap of numbers. Right below the number at `i` are those at `2 * i + 1` and
`2 * i + 2`. -/
structure IndexHeap (n : Nat) where
  items : Array (Fin n) := #[]

namespace IndexHeap

variable {n : Nat}

/-- Lets the number at `j` change places with the one right above it, as long as it is less. -/
def up (items : Array (Fin n)) (j : Nat) (hj : j < items.size) : Array (Fin n) :=
  if _hlt : items[j] < items[(j - 1) / 2] then
    up (items.swap ((j - 1) / 2) j) ((j - 1) / 2) (by rw [Array.size_swap]; omega)
  else items
termination_by j
decreasing_by
  have hne : (j - 1) / 2 ≠ j := fun heq => by simp [heq] at _hlt
  omega

/-- Where the lesser one of two neighbours is, the first of them if there is no second one. -/
def lesser (items : Array (Fin n)) (j : Fin items.size) : Fin items.size :=
  if h : j.val + 1 < items.size then
    if items[j.val + 1] < items[j] then ⟨j.val + 1, h⟩ else j
  else j

theorem le_lesser (items : Array (Fin n)) (j : Fin items.size) : j.val ≤ (lesser items j).val := by
  unfold lesser
  split <;> try split
  all_goals simp

/-- Lets the number at `i` change places with the lesser one of those right below it, as long as
that one is less. -/
def down (items : Array (Fin n)) (i : Nat) : Array (Fin n) :=
  if h : 2 * i + 1 < items.size then
    if items[lesser items ⟨2 * i + 1, h⟩] < items[i] then
      down (items.swap i (lesser items ⟨2 * i + 1, h⟩)) (lesser items ⟨2 * i + 1, h⟩)
    else items
  else items
termination_by items.size - i
decreasing_by
  have hle : 2 * i + 1 ≤ (lesser items ⟨2 * i + 1, h⟩).val := le_lesser items ⟨2 * i + 1, h⟩
  rw [Array.size_swap]
  exact Nat.sub_lt_sub_left (by omega) (by omega)

/-- Puts a number into a heap. -/
def push (heap : IndexHeap n) (i : Fin n) : IndexHeap n where
  items := up (heap.items.push i) heap.items.size (by simp)

/-- Takes the number at the top out of a heap. The last number comes to the top in its place, and
then goes down. -/
def pop? (heap : IndexHeap n) : Option (Fin n × IndexHeap n) :=
  if h : 0 < heap.items.size then
    some (heap.items[0], ⟨down (heap.items.swap 0 (heap.items.size - 1)).pop 0⟩)
  else none

theorem size_up (items : Array (Fin n)) (j : Nat) (hj : j < items.size) :
    (up items j hj).size = items.size := by
  fun_induction up items j hj with
  | case1 items j hj hlt ih => rw [ih, Array.size_swap]
  | case2 => rfl

theorem size_down (items : Array (Fin n)) (i : Nat) : (down items i).size = items.size := by
  fun_induction down items i with
  | case1 items i h hlt ih => rw [ih, Array.size_swap]
  | case2 => rfl
  | case3 => rfl

@[simp] theorem size_push (heap : IndexHeap n) (i : Fin n) :
    (heap.push i).items.size = heap.items.size + 1 := by
  simp [push, size_up]

theorem size_pop? {heap rest : IndexHeap n} {i : Fin n} (h : heap.pop? = some (i, rest)) :
    rest.items.size + 1 = heap.items.size := by
  unfold pop? at h
  split at h
  · obtain ⟨-, rfl⟩ := Prod.mk.inj (Option.some.inj h)
    simp only [size_down, Array.size_pop, Array.size_swap]
    omega
  · cases h

end IndexHeap

namespace Schedule

variable {κ : Type} [DecidableEq κ] {n : Nat} (tasks : Fin n → Task κ)

/-! ### Who writes what -/

/-- The names of the tasks that have been met, and the artifacts that they write. -/
structure Register (κ : Type) (n : Nat) where
  ids : List String := []
  writers : List (κ × Fin n) := []

/-- Notes that a task writes an artifact. -/
def Register.addWrite (i : Fin n) (r : Register κ n) (k : κ) :
    Except (ScheduleError κ) (Register κ n) :=
  match r.writers.lookup k with
  | some prev => .error (.duplicateWriter (tasks prev).id (tasks i).id k)
  | none => .ok { r with writers := r.writers ++ [(k, i)] }

/-- Notes the name of a task and all that it writes. -/
def Register.addTask (r : Register κ n) (i : Fin n) : Except (ScheduleError κ) (Register κ n) :=
  if (tasks i).id ∈ r.ids then .error (.duplicateId (tasks i).id)
  else (tasks i).writes.foldlM (Register.addWrite tasks i)
    { r with ids := r.ids ++ [(tasks i).id] }

/-- Notes the names of all tasks and what they write. -/
def register : Except (ScheduleError κ) (Register κ n) :=
  (List.finRange n).foldlM (Register.addTask tasks) {}

/-! ### Who waits for whom -/

/-- Which tasks read of each task, one of them as often as it reads an artifact of it, and how many
artifacts of others each task reads. -/
structure Links (n : Nat) where
  succ : Vector (List (Fin n)) n := Vector.replicate n []
  indegree : Vector Int n := Vector.replicate n 0

/-- Lets a task wait for another one. -/
def Links.add (links : Links n) (w i : Fin n) : Links n where
  succ := links.succ.set w (links.succ[w] ++ [i])
  indegree := links.indegree.set i (links.indegree[i] + 1)

/-- Lets a task wait for the one that writes an artifact, unless that is the task itself. -/
def Links.addRead (writers : List (κ × Fin n)) (i : Fin n) (links : Links n) (k : κ) :
    Except (ScheduleError κ) (Links n) :=
  match writers.lookup k with
  | none => .error (.unsatisfiedRead (tasks i).id k)
  | some w => .ok (if w = i then links else links.add w i)

/-- Lets each task wait for those that write what it reads. -/
def connect (writers : List (κ × Fin n)) : Except (ScheduleError κ) (Links n) :=
  (List.finRange n).foldlM
    (fun links i => (tasks i).reads.foldlM (Links.addRead tasks writers i) links) {}

/-! ### Taking the first task that waits for nothing -/

/-- How far the tasks have been put in order: those that wait for nothing, what the others wait for,
and those that have been taken. -/
structure Progress (n : Nat) where
  ready : IndexHeap n := {}
  indegree : Vector Int n
  ordered : List (Fin n) := []

namespace Progress

/-- The beginning, with the tasks in the heap that wait for nothing. -/
def start (indegree : Vector Int n) : Progress n where
  ready := (List.finRange n).foldl
    (fun ready i => if indegree[i] = 0 then ready.push i else ready) {}
  indegree := indegree

/-- Lets a task wait for one artifact less. -/
def release (p : Progress n) (j : Fin n) : Progress n where
  ready := if p.indegree[j] - 1 = 0 then p.ready.push j else p.ready
  indegree := p.indegree.set j (p.indegree[j] - 1)
  ordered := p.ordered

/-- Takes a task, so that those that read of it wait for less. -/
def take (succ : Vector (List (Fin n)) n) (p : Progress n) (i : Fin n) (ready : IndexHeap n) :
    Progress n :=
  succ[i].foldl release { p with ready, ordered := p.ordered ++ [i] }

/-- How many tasks are in the heap or may still enter it. -/
def remaining (p : Progress n) : Nat := p.ready.items.size + p.indegree.countP (0 < ·)

theorem remaining_release (p : Progress n) (j : Fin n) :
    (p.release j).remaining = p.remaining := by
  have hmem : p.indegree[j] ∈ p.indegree := Vector.getElem_mem j.isLt
  have hcount : 0 < p.indegree[j] → 0 < p.indegree.countP (0 < ·) := fun hpos =>
    Vector.countP_pos_iff.mpr ⟨p.indegree[j], hmem, by simpa using hpos⟩
  simp only [remaining, release, Vector.countP_set, Fin.getElem_fin, decide_eq_true_eq] at *
  generalize p.indegree[j.val] = d at *
  by_cases hone : d - 1 = 0
  · obtain rfl : d = 1 := by omega
    have hpos := hcount (by omega)
    rw [if_pos hone, if_pos (Int.zero_lt_one), if_neg (by omega), IndexHeap.size_push]
    omega
  · by_cases hpos : 0 < d
    · have hpos' := hcount hpos
      rw [if_neg hone, if_pos hpos, if_pos (show 0 < d - 1 by omega)]
      omega
    · rw [if_neg hone, if_neg hpos, if_neg (show ¬ 0 < d - 1 by omega)]
      omega

theorem remaining_take (succ : Vector (List (Fin n)) n) (p : Progress n) (i : Fin n)
    (ready : IndexHeap n) : (p.take succ i ready).remaining =
      ready.items.size + p.indegree.countP (0 < ·) := by
  suffices h : ∀ (js : List (Fin n)) (q : Progress n),
      (js.foldl release q).remaining = q.remaining from h succ[i] _
  intro js
  induction js with
  | nil => exact fun _ => rfl
  | cons j js ih => exact fun q => (ih (q.release j)).trans (remaining_release q j)

/-- Takes tasks out of the heap until it is empty. -/
def finish (succ : Vector (List (Fin n)) n) (p : Progress n) : Progress n :=
  match _h : p.ready.pop? with
  | none => p
  | some (i, ready) => finish succ (p.take succ i ready)
termination_by p.remaining
decreasing_by
  have hsize := IndexHeap.size_pop? _h
  rw [remaining_take, remaining]
  omega

/-- The tasks that still wait for others. -/
def blocked (p : Progress n) : List (Fin n) := (List.finRange n).filter fun i => 0 < p.indegree[i]

end Progress

/-- Puts numbered tasks in order. -/
def order : Except (ScheduleError κ) (List (Fin n)) := do
  let r ← register tasks
  let links ← connect tasks r.writers
  let final := (Progress.start links.indegree).finish links.succ
  if final.ordered.length = n then return final.ordered
  else throw (.cycle (final.blocked.map fun i => (tasks i).id))

end Schedule

universe u

/-- Puts entries in an order in which every artifact is written before it is read. -/
def schedule {α : Type u} {κ : Type} [DecidableEq κ] (task : α → Task κ) (entries : List α) :
    Except (ScheduleError κ) (List α) :=
  (Schedule.order (task ∘ entries.get)).map (List.map entries.get)

end CSharpAudit
