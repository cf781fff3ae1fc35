import CSharpAudit.Proofs.SharedWalks

/-!
# Statements that are never reached

Control does not come to the statement behind a terminating one, unless that is a label; local
functions may stand between the two. In a list with several such dead statements the first one is to
be reported.

The rule looks at the first terminating statement of a list and at no other one. So it reports the
first dead statement, unless a label follows the first terminating statement: behind the label there
may be dead statements again, of which nothing is told.

## Main definitions

* `Node.statementList?` — the lists that the rule looks at
* `Stops` — a terminating statement and the one that follows it
* `FirstDead` — the first statement of a list that is never reached
* `StopsAtLabel` — a label follows the first terminating statement

## Main results

* `Rules.firstUnreachable?_eq_some_iff` — the statement that is told of a list
* `unreachable_found_iff` — what is found in a file
-/

namespace CSharpAudit

/-- The statements of a block or of a section of a `switch`. -/
def Node.statementList? : Node → Option (List Node)
  | .block _ stmts => some stmts
  | .switchSection _ _ stmts => some stmts
  | _ => none

/-- Whether a statement is labelled. -/
def Node.isLabeled : Node → Bool
  | .labeledStmt .. => true
  | _ => false

/-- The statement at `i` terminates with some words and is followed by the one at `j`: only local
functions stand between the two. -/
structure Stops (stmts : List Node) (i j : Nat) (word : String) : Prop where
  lt : i < j
  terminates : ∃ t, stmts[i]? = some t ∧ t.terminatorWord? = some word
  hoisted : ∀ k, i < k → k < j → ∃ f, stmts[k]? = some f ∧ f.isLocalFunc = true
  follows : ∃ st, stmts[j]? = some st ∧ st.isLocalFunc = false

/-- The statement at `j` is never reached, since it follows one that terminates and is no label. -/
structure IsDead (stmts : List Node) (j : Nat) (word : String) (st : Node) : Prop where
  behind : ∃ i, Stops stmts i j word
  at_eq : stmts[j]? = some st
  isLabeled_eq : st.isLabeled = false

/-- The first statement of a list that is never reached. -/
def FirstDead (stmts : List Node) (word : String) (st : Node) : Prop :=
  ∃ j, IsDead stmts j word st ∧ ∀ j' word' st', IsDead stmts j' word' st' → j ≤ j'

/-- The first statement of a list that terminates, with the one that follows it. -/
structure FirstStop (stmts : List Node) (i j : Nat) (word : String) : Prop
    extends Stops stmts i j word where
  first : ∀ k < i, ∀ b, stmts[k]? = some b → b.terminatorWord? = none

/-- A label follows the first statement that terminates. -/
def StopsAtLabel (stmts : List Node) : Prop :=
  ∃ i j word label, FirstStop stmts i j word ∧ stmts[j]? = some label ∧ label.isLabeled = true

section Lists

variable {stmts : List Node} {i j i' j' : Nat} {word word' : String} {s st st' : Node}

theorem Node.terminatorWord?_of_isLocalFunc {n : Node} (h : n.isLocalFunc = true) :
    n.terminatorWord? = none := by
  cases n <;> first | rfl | exact absurd h Bool.false_ne_true

/-- Of two terminating statements the first one is followed first. -/
theorem Stops.le (h : Stops stmts i j word) (h' : Stops stmts i' j' word') (hle : i ≤ i') :
    j ≤ j' := by
  by_contra! hlt
  -- what follows the second one would be a local function
  obtain ⟨f, hf, hlocal⟩ := h.hoisted j' (hle.trans_lt h'.lt) hlt
  obtain ⟨st, hst, hfree⟩ := h'.follows
  obtain rfl := Option.some.inj (hf.symm.trans hst)
  exact absurd hlocal (Bool.eq_false_iff.mp hfree)

/-- A statement follows one terminating statement at most. -/
theorem Stops.not_lt (h : Stops stmts i j word) (h' : Stops stmts i' j word') : ¬i < i' := by
  intro hlt
  obtain ⟨f, hf, hlocal⟩ := h.hoisted i' hlt h'.lt
  obtain ⟨t, ht, hword⟩ := h'.terminates
  obtain rfl := Option.some.inj (hf.symm.trans ht)
  rw [Node.terminatorWord?_of_isLocalFunc hlocal] at hword
  cases hword

theorem Stops.word_eq (h : Stops stmts i j word) (h' : Stops stmts i' j word') : word = word' := by
  obtain rfl : i = i' := by
    have hle := h.not_lt h'
    have hge := h'.not_lt h
    omega
  obtain ⟨t, ht, hword⟩ := h.terminates
  obtain ⟨t', ht', hword'⟩ := h'.terminates
  obtain rfl := Option.some.inj (ht.symm.trans ht')
  exact Option.some.inj (hword.symm.trans hword')

theorem FirstStop.le (h : FirstStop stmts i j word) (h' : Stops stmts i' j' word') : j ≤ j' := by
  refine h.toStops.le h' (Nat.le_of_not_lt fun hlt => ?_)
  obtain ⟨t, ht, hword⟩ := h'.terminates
  exact Option.some_ne_none _ (hword.symm.trans (h.first i' hlt t ht))

/-- If a statement follows one that terminates, so it is with the first one that terminates. -/
theorem Stops.exists_firstStop (h : Stops stmts i j word) :
    ∃ i' j' word', FirstStop stmts i' j' word' := by
  classical
  let terminates (k : Nat) : Prop := ∃ t word, stmts[k]? = some t ∧ t.terminatorWord? = some word
  have hterminates : ∃ k, terminates k := by
    obtain ⟨t, ht, hword⟩ := h.terminates
    exact ⟨i, t, word, ht, hword⟩
  let first := Nat.find hterminates
  obtain ⟨t, word', ht, hword'⟩ := Nat.find_spec hterminates
  have hle : first ≤ i := Nat.find_le (by
    obtain ⟨t, ht, hword⟩ := h.terminates
    exact ⟨t, word, ht, hword⟩)
  -- behind it the first statement that is no local function
  let free (k : Nat) : Prop := first < k ∧ ∃ st, stmts[k]? = some st ∧ st.isLocalFunc = false
  have hfree : ∃ k, free k := ⟨j, hle.trans_lt h.lt, h.follows⟩
  obtain ⟨hlt, hfollows⟩ := Nat.find_spec hfree
  refine ⟨first, Nat.find hfree, word', ⟨hlt, ⟨t, ht, hword'⟩, fun k hk hbefore => ?_, hfollows⟩,
    fun k hk b hb => ?_⟩
  · obtain ⟨st, hst, -⟩ := hfollows
    have hlength : k < stmts.length :=
      hbefore.trans (List.getElem?_eq_some_iff.mp hst).1
    refine ⟨stmts[k], List.getElem?_eq_getElem hlength, ?_⟩
    by_contra hlocal
    exact Nat.find_min hfree hbefore
      ⟨hk, _, List.getElem?_eq_getElem hlength, Bool.eq_false_iff.mpr hlocal⟩
  · refine Option.eq_none_iff_forall_ne_some.mpr fun word hword => ?_
    exact Nat.find_min hterminates hk ⟨b, word, hb, hword⟩

theorem IsDead.of_firstStop (h : FirstStop stmts i j word) (hat : stmts[j]? = some st)
    (hlabel : st.isLabeled = false) : IsDead stmts j word st :=
  ⟨⟨i, h.toStops⟩, hat, hlabel⟩

/-- What follows the first terminating statement is the first statement that is never reached,
unless it is a label. -/
theorem firstDead_and_not_stopsAtLabel_iff :
    FirstDead stmts word st ∧ ¬StopsAtLabel stmts ↔
      ∃ i j, FirstStop stmts i j word ∧ stmts[j]? = some st ∧ st.isLabeled = false := by
  constructor
  · rintro ⟨⟨j, hdead, hfirst⟩, hlabel⟩
    obtain ⟨i, hstops⟩ := hdead.behind
    -- What ends the list first ends it in front of `j`, and without a label `j` follows it.
    obtain ⟨i', j', word', hstop⟩ := hstops.exists_firstStop
    obtain ⟨st', hat', -⟩ := hstop.follows
    have hfree : st'.isLabeled = false := by
      by_contra htrue
      exact hlabel ⟨i', j', word', st', hstop, hat', by simpa using htrue⟩
    obtain rfl : j = j' :=
      (hfirst j' word' st' (.of_firstStop hstop hat' hfree)).antisymm (hstop.le hstops)
    obtain rfl := hstops.word_eq hstop.toStops
    exact ⟨i', j, hstop, hdead.at_eq, hdead.isLabeled_eq⟩
  · rintro ⟨i, j, hstop, hat, hfree⟩
    -- Any other dead statement stands behind a stop, so behind this first one.
    refine ⟨⟨j, .of_firstStop hstop hat hfree, ?_⟩, ?_⟩
    · rintro j' word' st' ⟨⟨i', hstops⟩, -, -⟩
      exact hstop.le hstops
    · rintro ⟨i', j', word', label, hstop', hlabel, htrue⟩
      obtain rfl : j = j' := (hstop.le hstop'.toStops).antisymm (hstop'.le hstop.toStops)
      obtain rfl := Option.some.inj (hat.symm.trans hlabel)
      exact absurd htrue (Bool.eq_false_iff.mp hfree)

theorem stops_cons : Stops (s :: stmts) (i + 1) (j + 1) word ↔ Stops stmts i j word := by
  constructor
  · rintro ⟨hlt, hterminates, hhoisted, hfollows⟩
    refine ⟨by omega, by simpa using hterminates, fun k hik hkj => ?_, by simpa using hfollows⟩
    simpa using hhoisted (k + 1) (by omega) (by omega)
  · rintro ⟨hlt, hterminates, hhoisted, hfollows⟩
    refine ⟨by omega, by simpa using hterminates, fun k hik hkj => ?_, by simpa using hfollows⟩
    obtain ⟨k, rfl⟩ := Nat.exists_eq_add_one_of_ne_zero (n := k) (by omega)
    simpa using hhoisted k (by omega) (by omega)

/-- In front of the first terminating statement there may be others. -/
theorem firstStop_cons (hs : s.terminatorWord? = none) :
    FirstStop (s :: stmts) (i + 1) (j + 1) word ↔ FirstStop stmts i j word := by
  constructor
  · rintro ⟨hstops, hfirst⟩
    exact ⟨stops_cons.mp hstops, fun k hk b hb => hfirst (k + 1) (by omega) b (by simpa using hb)⟩
  · rintro ⟨hstops, hfirst⟩
    refine ⟨stops_cons.mpr hstops, fun k hk b hb => ?_⟩
    cases k with
    | zero => exact Option.some.inj hb ▸ hs
    | succ k => exact hfirst k (by omega) b (by simpa using hb)

end Lists

namespace Rules

variable {stmts : List Node} {word word' : String} {st : Node}

theorem next?_cons (s : Node) (stmts : List Node) :
    firstUnreachable?.next? word (s :: stmts) =
      if s.isLocalFunc then firstUnreachable?.next? word stmts
      else if s.isLabeled then none else some (word, s) := by
  cases s <;> rfl

/-- Behind a terminating statement the first one is told of that is no local function. -/
theorem next?_eq_some_iff :
    firstUnreachable?.next? word stmts = some (word', st) ↔ word = word' ∧ ∃ j : Nat,
      (∀ k < j, ∃ f : Node, stmts[k]? = some f ∧ f.isLocalFunc = true) ∧ stmts[j]? = some st ∧
        st.isLocalFunc = false ∧ st.isLabeled = false := by
  induction stmts with
  | nil => simp [firstUnreachable?.next?]
  | cons s stmts ih =>
    rw [next?_cons]
    split
    next hlocal =>
      rw [ih]
      refine and_congr_right fun _ => ⟨?_, ?_⟩
      · rintro ⟨j, hhoisted, hat, hfree⟩
        refine ⟨j + 1, fun k hk => ?_, by simpa using hat, hfree⟩
        cases k with
        | zero => exact ⟨s, rfl, hlocal⟩
        | succ k => simpa using hhoisted k (by omega)
      · rintro ⟨j, hhoisted, hat, hfree⟩
        cases j with
        | zero =>
          obtain rfl := Option.some.inj hat
          exact absurd hlocal (Bool.eq_false_iff.mp hfree.1)
        | succ j =>
          exact ⟨j, fun k hk => by simpa using hhoisted (k + 1) (by omega), by simpa using hat, hfree⟩
    next hlocal =>
      -- no local function stands in front, so it is this one or none
      have hzero {j : Nat} (h : ∀ k < j, ∃ f : Node, (s :: stmts)[k]? = some f ∧
          f.isLocalFunc = true) : j = 0 := by
        by_contra hj
        obtain ⟨f, hf, htrue⟩ := h 0 (Nat.pos_of_ne_zero hj)
        exact hlocal (Option.some.inj hf ▸ htrue)
      split
      next hlabel =>
        refine iff_of_false (Option.some_ne_none _).symm ?_
        rintro ⟨-, j, hhoisted, hat, -, hfree⟩
        obtain rfl := hzero hhoisted
        obtain rfl := Option.some.inj hat
        exact absurd hlabel (Bool.eq_false_iff.mp hfree)
      next hlabel =>
        rw [Option.some_inj, Prod.mk.injEq]
        refine and_congr_right fun _ => ⟨?_, ?_⟩
        · rintro rfl
          exact ⟨0, by simp, rfl, Bool.eq_false_iff.mpr hlocal, Bool.eq_false_iff.mpr hlabel⟩
        · rintro ⟨j, hhoisted, hat, -⟩
          obtain rfl := hzero hhoisted
          exact Option.some.inj hat

/-- Of a list that statement is told that follows the first terminating one and is no label. -/
theorem firstUnreachable?_eq_some_iff :
    firstUnreachable? stmts = some (word, st) ↔ ∃ i j, FirstStop stmts i j word ∧
      stmts[j]? = some st ∧ st.isLabeled = false := by
  induction stmts with
  | nil =>
    refine iff_of_false (Option.some_ne_none _).symm ?_
    rintro ⟨i, j, -, hat, -⟩
    simp at hat
  | cons s stmts ih =>
    rw [firstUnreachable?]
    split
    next hs =>
      -- the head does not terminate: what holds of the tail holds one place further on
      rw [ih]
      constructor
      · rintro ⟨i, j, hstop, hat, hfree⟩
        exact ⟨i + 1, j + 1, (firstStop_cons hs).mpr hstop, by simpa using hat, hfree⟩
      · rintro ⟨i, j, hstop, hat, hfree⟩
        obtain ⟨t, ht, hword⟩ := hstop.terminates
        obtain ⟨i, rfl⟩ : ∃ i', i = i' + 1 := by
          refine Nat.exists_eq_add_one_of_ne_zero ?_
          rintro rfl
          obtain rfl := Option.some.inj ht
          cases hs.symm.trans hword
        obtain ⟨j, rfl⟩ := Nat.exists_eq_add_one_of_ne_zero (Nat.ne_zero_of_lt hstop.lt)
        exact ⟨i, j, (firstStop_cons hs).mp hstop, by simpa using hat, hfree⟩
    next word' hs =>
      -- the head terminates, so no later statement is the first one that does
      rw [next?_eq_some_iff]
      constructor
      · rintro ⟨rfl, j, hhoisted, hat, hlocal, hfree⟩
        refine ⟨0, j + 1, ⟨⟨by omega, ⟨s, rfl, hs⟩, fun k hk hkj => ?_, st, by simpa using hat, hlocal⟩,
          by simp⟩, by simpa using hat, hfree⟩
        obtain ⟨k, rfl⟩ := Nat.exists_eq_add_one_of_ne_zero (Nat.ne_zero_of_lt hk)
        simpa using hhoisted k (by omega)
      · rintro ⟨i, j, hstop, hat, hfree⟩
        obtain rfl : i = 0 := by
          by_contra hi
          cases hs.symm.trans (hstop.first 0 (Nat.pos_of_ne_zero hi) s rfl)
        obtain ⟨t, ht, hword⟩ := hstop.terminates
        obtain rfl := Option.some.inj ht
        obtain ⟨st', hst', hlocal⟩ := hstop.follows
        obtain rfl := Option.some.inj (hat.symm.trans hst')
        obtain ⟨j, rfl⟩ := Nat.exists_eq_add_one_of_ne_zero (Nat.ne_zero_of_lt hstop.lt)
        exact ⟨Option.some.inj (hs.symm.trans hword), j,
          fun k hk => by simpa using hstop.hoisted (k + 1) (by omega) (by omega),
          by simpa using hat, hlocal, hfree⟩

theorem firstUnreachable?_eq_some_iff_firstDead :
    firstUnreachable? stmts = some (word, st) ↔ FirstDead stmts word st ∧ ¬StopsAtLabel stmts :=
  firstUnreachable?_eq_some_iff.trans firstDead_and_not_stopsAtLabel_iff.symm

/-- What the rule finds at a node, from the statements that the node lists. -/
theorem visit_unreachable (s : Session) (c : Cursor) :
    (unreachable.visit s unreachable.start c).2 =
      (c.node.statementList?.bind firstUnreachable?).toList.map fun (word, st) =>
        s.finding .unreachable st.span s!"Unreachable code after '{word}' statement" := by
  simp only [unreachable, Rule.stateless]
  cases c.node <;> rfl

theorem mem_visit_unreachable_iff {s : Session} {c : Cursor} {d : Diagnostic} :
    d ∈ (unreachable.visit s unreachable.start c).2 ↔ ∃ stmts word st,
      c.node.statementList? = some stmts ∧ FirstDead stmts word st ∧ ¬StopsAtLabel stmts ∧
        d = s.finding .unreachable st.span s!"Unreachable code after '{word}' statement" := by
  rw [visit_unreachable]
  constructor
  · intro hd
    obtain ⟨⟨word, st⟩, hmem, rfl⟩ := List.mem_map.mp hd
    obtain ⟨stmts, hstmts, hfound⟩ := Option.bind_eq_some_iff.mp (Option.mem_toList.mp hmem)
    obtain ⟨hdead, hlabel⟩ := firstUnreachable?_eq_some_iff_firstDead.mp hfound
    exact ⟨stmts, word, st, hstmts, hdead, hlabel, rfl⟩
  · rintro ⟨stmts, word, st, hstmts, hdead, hlabel, rfl⟩
    refine List.mem_map.mpr ⟨(word, st), Option.mem_toList.mpr ?_, rfl⟩
    exact Option.bind_eq_some_iff.mpr
      ⟨stmts, hstmts, firstUnreachable?_eq_some_iff_firstDead.mpr ⟨hdead, hlabel⟩⟩

/-- The rule tells of one statement of a list at most. -/
theorem length_visit_unreachable_le (s : Session) (c : Cursor) :
    (unreachable.visit s unreachable.start c).2.length ≤ 1 := by
  rw [visit_unreachable, List.length_map]
  cases c.node.statementList?.bind firstUnreachable? <;> simp

end Rules

section Findings

variable (u : CompilationUnit Node) (s : Session)

theorem emits_of_mem_tail_flowRules {r : Rule} (hr : r ∈ Passes.flowRules.tail) :
    r.Emits [.emptyBlock, .stringConcatLoop, .allocationInLoop, .collectionUsage] := by
  intro s state c
  simp only [Passes.flowRules, List.tail_cons, List.mem_cons, List.not_mem_nil, or_false] at hr
  rcases hr with rfl | rfl | rfl | rfl | rfl | rfl
  · exact (Rules.emits_emptyBlock s state c).mono (by decide)
  · exact (Rules.emits_stringConcat s state c).mono (by decide)
  · exact (Rules.emits_allocation s state c).mono (by decide)
  · exact (Rules.emits_linearSearch s state c).mono (by decide)
  · exact (Rules.emits_nestedSearch s state c).mono (by decide)
  · exact (Rules.emits_collectionGrowth s state c).mono (by decide)

/-- No other rule finds statements that are never reached, and this one looks at each node by
itself. -/
theorem filter_findings_unreachable :
    (Passes.flow.findings u s).filter (·.code == .unreachable) =
      u.cursors.flatMap fun c => (Rules.unreachable.visit s Rules.unreachable.start c).2 := by
  have hlocals : (s.artifacts.scopes.toList.flatMap (Passes.unusedLocals s)).filter
      (·.code == .unreachable) = [] := by
    have hemits : Emits [.unusedVariable] (s.artifacts.scopes.toList.flatMap
        (Passes.unusedLocals s)) := by simp [Passes.unusedLocals]
    exact hemits.filter_eq_nil (by decide)
  have hothers : (runRules u s Passes.flowRules.tail).filter (·.code == .unreachable) = [] :=
    (emits_runRules u s fun _ => emits_of_mem_tail_flowRules).filter_eq_nil (by decide)
  have hnone : ∀ r ∈ Passes.flowRules.tail, ¬r.MayEmit .unreachable := fun r hr h =>
    absurd ((emits_of_mem_tail_flowRules hr).mem_of_mayEmit h) (by decide)
  have hown : runRules u s [Rules.unreachable] =
      u.cursors.flatMap fun c => (Rules.unreachable.visit s Rules.unreachable.start c).2 := by
    rw [runRules_eq_flatMap u fun r hr c => by obtain rfl := List.mem_singleton.mp hr; rfl]
    simp only [List.flatMap_singleton]
  have hsplit : Passes.flowRules = [Rules.unreachable] ++ Passes.flowRules.tail := rfl
  rw [Entry.findings_of_report (e := Passes.flow) rfl rfl, List.filter_append, hlocals,
    List.nil_append, hsplit, filter_runRules_append u s (.inr hnone), hothers, List.append_nil, hown]
  refine Emits.filter_eq_self (emits_flatMap.mpr fun c _ => ?_)
  exact Rules.emits_unreachable s _ c

/-- The findings on statements that are never reached are those of the lists of a file. Of a list
one statement is found at most: the first one that is never reached, unless a label follows the
first terminating statement of the list. -/
theorem unreachable_found_iff :
    (Passes.flow.findings u s).filter (·.code == .unreachable) =
      (u.cursors.flatMap fun c => (Rules.unreachable.visit s Rules.unreachable.start c).2) ∧
    ∀ c, (Rules.unreachable.visit s Rules.unreachable.start c).2.length ≤ 1 ∧
      ∀ d, d ∈ (Rules.unreachable.visit s Rules.unreachable.start c).2 ↔ ∃ stmts word st,
        c.node.statementList? = some stmts ∧ FirstDead stmts word st ∧ ¬StopsAtLabel stmts ∧
          d = s.finding .unreachable st.span s!"Unreachable code after '{word}' statement" :=
  ⟨filter_findings_unreachable u s, fun c =>
    ⟨Rules.length_visit_unreachable_le s c, fun _ => Rules.mem_visit_unreachable_iff⟩⟩

end Findings

/-- What the rule looks at in a statement. -/
def Node.reachTraits (n : Node) : Option String × Bool × Bool :=
  (n.terminatorWord?, n.isLocalFunc, n.isLabeled)

/-- Whether a list consists of a `return`, a label, a `return` and another statement. -/
def isResumed (stmts : List Node) : Bool :=
  stmts.map Node.reachTraits == [(some "return", false, false), (none, false, true),
    (some "return", false, false), (none, false, false)]

/-- In such a list the last statement is the first one that is never reached. -/
theorem exists_firstDead_of_isResumed {stmts : List Node} (h : isResumed stmts = true) :
    ∃ st, FirstDead stmts "return" st := by
  obtain ⟨stop, label, stop', st, rfl⟩ : ∃ a b c d, stmts = [a, b, c, d] := by
    match stmts, (congrArg List.length (eq_of_beq h)) with
    | [a, b, c, d], _ => exact ⟨a, b, c, d, rfl⟩
  simp only [isResumed, List.map_cons, List.map_nil, Node.reachTraits, beq_iff_eq,
    List.cons.injEq, Prod.mk.injEq, and_true] at h
  obtain ⟨-, ⟨hlabelWord, hlabelLocal, hlabel⟩, ⟨hword, -, -⟩, -, hlocal, hfree⟩ := h
  refine ⟨st, 3, ⟨⟨2, ⟨by decide, ⟨stop', rfl, hword⟩, fun k _ _ => by omega, st, rfl, hlocal⟩⟩, rfl,
    hfree⟩, fun j word' st' hdead => ?_⟩
  obtain ⟨i, hstops⟩ := hdead.behind
  obtain ⟨t, ht, hword'⟩ := hstops.terminates
  by_contra! hlt
  have hle := hstops.lt
  -- behind the first statement stands the label, and the label terminates nothing
  obtain ⟨rfl, rfl⟩ | ⟨rfl, rfl⟩ | ⟨rfl, rfl⟩ :
      i = 0 ∧ j = 1 ∨ i = 0 ∧ j = 2 ∨ i = 1 ∧ j = 2 := by omega
  · obtain rfl := Option.some.inj hdead.at_eq
    cases hlabel.symm.trans hdead.isLabeled_eq
  · obtain ⟨f, hf, htrue⟩ := hstops.hoisted 1 (by decide) (by decide)
    obtain rfl := Option.some.inj hf
    cases hlabelLocal.symm.trans htrue
  · obtain rfl := Option.some.inj ht
    cases hlabelWord.symm.trans hword'

/-- A method whose body is such a list. -/
def resumedText : List UInt8 :=
  "class C\x7bvoid M()\x7breturn;L:F();return;G();\x7d\x7d".toList.map Lexer.ascii

theorem resumedText_firstUnreachable : (parse resumedText).toOption.any (fun u =>
    (u.cursors.any fun c => c.node.statementList?.any isResumed) &&
      u.cursors.all fun c => (c.node.statementList?.bind Rules.firstUnreachable?).isNone) = true := by
  rw [show resumedText = _ from Lexer.ascii_ofList _]
  decide +kernel

/-- Nothing is found in it, though its last statement is never reached. -/
theorem dead_behind_label_not_found : ∃ u, parse resumedText = .ok u ∧
    (∃ c ∈ u.cursors, ∃ stmts st,
      c.node.statementList? = some stmts ∧ FirstDead stmts "return" st) ∧
    ∀ s, (Passes.flow.findings u s).filter (·.code == .unreachable) = [] := by
  obtain ⟨u, hparse, hfacts⟩ := exists_parse_of_any resumedText_firstUnreachable
  obtain ⟨hdead, hnone⟩ := Bool.and_eq_true_iff.mp hfacts
  obtain ⟨c, hc, hlist⟩ := List.any_eq_true.mp hdead
  obtain ⟨stmts, hstmts, hresumed⟩ := (Option.any_eq_true _ _).mp hlist
  obtain ⟨st, hst⟩ := exists_firstDead_of_isResumed hresumed
  refine ⟨u, hparse, ⟨c, hc, stmts, st, hstmts, hst⟩, fun s => ?_⟩
  rw [filter_findings_unreachable]
  refine List.flatMap_eq_nil_iff.mpr fun c hc => ?_
  rw [Rules.visit_unreachable, Option.isNone_iff_eq_none.mp (List.all_eq_true.mp hnone c hc)]
  rfl

end CSharpAudit
