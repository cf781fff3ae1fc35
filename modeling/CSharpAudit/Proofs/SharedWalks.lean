import CSharpAudit.Proofs.Codes
import CSharpAudit.Proofs.FinalForm

/-!
# Shared walks

Rules that share a walk are offered each node in turn. As long as none of them looks at the findings
of others, each is offered the same nodes and finds the same as on a walk of its own; what differs
is only how the findings of different rules lie among each other.

Nothing of that is left in a report. Findings are sorted with their codes, and of findings that are
tied the order is kept; so if rule sets that share a walk have no code in common, the report is the
same as if each of them had a walk to itself.

## Main definitions

* `Rule.Private` — a rule looks at no findings
* `Offering`, `Offering.shared`, `Offering.separate` — what rules are offered and find on one walk,
  or on one for each set
* `Entry.Additive` — an entry adds to the findings and looks at none
* `Session.Interleaved` — sessions differ only in how findings of different codes are interleaved

## Main results

* `Offering.filter_separate` — each rule is offered and finds the same
* `Session.Interleaved.run` — sharing walks interleaves findings of different codes
* `Passes.finalDiagnostics_congr` — the final form of findings does not depend on that
* `shared_walks_sound` — both together
-/

namespace CSharpAudit

/-- A session without its findings. -/
def Session.fresh (s : Session) : Session := { s with diagnostics := [] }

/-- A rule keeps to its own state: what others have found does not matter to it. -/
def Rule.Private (r : Rule) : Prop := ∀ s, r.visit s = r.visit s.fresh

theorem Rule.Private.visit_congr {r : Rule} (hr : r.Private) {s t : Session}
    (h : s.fresh = t.fresh) : r.visit s = r.visit t := by
  rw [hr s, h, ← hr t]

/-! ### What rules are offered -/

/-- A node that a rule is offered on a walk, and what it finds there. The rules are numbered. -/
structure Offering where
  rule : Nat
  cursor : Cursor
  found : List Diagnostic

namespace Offering

/-- A rule in the middle of a walk, with its number. -/
abbrev NumberedRule := Nat × RunningRule

/-- Offers a node to every rule, in order. -/
def stepAll (s : Session) (rs : List NumberedRule) (c : Cursor) :
    List NumberedRule × List Offering :=
  let results := rs.map fun r => (r.1, r.2.step s c)
  (results.map fun r => (r.1, r.2.1), results.map fun r => ⟨r.1, c, r.2.2⟩)

/-- Offers nodes to the rules, one by one. -/
def walk (s : Session) : List NumberedRule → List Cursor → List Offering
  | _, [] => []
  | rs, c :: cs =>
    let (rs, offers) := stepAll s rs c
    offers ++ walk s rs cs

/-- Rules before the walk, numbered from some number on. -/
def numbered : Nat → List Rule → List NumberedRule
  | _, [] => []
  | k, r :: rules => (k, .ofRule r) :: numbered (k + 1) rules

/-- What rules are offered and find on one walk over a file. -/
def shared (u : CompilationUnit Node) (s : Session) (k : Nat) (rules : List Rule) : List Offering :=
  walk s (numbered k rules) u.cursors

/-- What sets of rules are offered and find if each has a walk of its own. The findings of one walk
are in the session of the next. -/
def separate (u : CompilationUnit Node) : Session → Nat → List (List Rule) → List Offering
  | _, _, [] => []
  | s, k, rules :: sets =>
    shared u s k rules ++
      separate u (s.report ((shared u s k rules).flatMap (·.found))) (k + rules.length) sets

variable {s t : Session} {rs : List NumberedRule} {u : CompilationUnit Node} {rules : List Rule}
  {sets : List (List Rule)}

/-! ### Walks -/

theorem flatMap_found_stepAll (s : Session) (rs : List NumberedRule) (c : Cursor) :
    ((stepAll s rs c).1.map (·.2), (stepAll s rs c).2.flatMap (·.found)) =
      RunningRule.stepAll s (rs.map (·.2)) c := by
  simp [stepAll, RunningRule.stepAll, List.flatMap_map, Function.comp_def]

/-- What is found on the offers of a walk is what the walk finds. -/
theorem flatMap_found_walk (cs : List Cursor) :
    (walk s rs cs).flatMap (·.found) = RunningRule.walk s (rs.map (·.2)) cs := by
  induction cs generalizing rs with
  | nil => rfl
  | cons c cs ih =>
    have hstep := Prod.mk.inj (flatMap_found_stepAll s rs c)
    simp only [walk, RunningRule.walk, List.flatMap_append, ih, hstep.1, hstep.2]
    rfl

theorem filter_stepAll (s : Session) (rs : List NumberedRule) (i : Nat) (c : Cursor) :
    ((stepAll s rs c).1.filter (·.1 == i), (stepAll s rs c).2.filter (·.rule == i)) =
      stepAll s (rs.filter (·.1 == i)) c := by
  simp only [stepAll, List.filter_map, Function.comp_def]

/-- On a shared walk a rule is offered and finds what it is offered and finds on its own. -/
theorem filter_walk (i : Nat) (cs : List Cursor) :
    (walk s rs cs).filter (·.rule == i) = walk s (rs.filter (·.1 == i)) cs := by
  induction cs generalizing rs with
  | nil => rfl
  | cons c cs ih =>
    have hstep := Prod.mk.inj (filter_stepAll s rs i c)
    simp only [walk, List.filter_append, ih, hstep.1, hstep.2]
    rfl

theorem walk_nil (s : Session) (cs : List Cursor) : walk s [] cs = [] := by
  induction cs with
  | nil => rfl
  | cons c cs ih => exact ih

/-- A single rule is offered all nodes, in order. -/
theorem map_cursor_walk_singleton (r : NumberedRule) (cs : List Cursor) :
    (walk s [r] cs).map (·.cursor) = cs := by
  induction cs generalizing r with
  | nil => rfl
  | cons c cs ih => exact congrArg (c :: ·) (ih _)

theorem walk_congr (cs : List Cursor) (h : ∀ r ∈ rs, r.2.rule.visit s = r.2.rule.visit t) :
    walk s rs cs = walk t rs cs := by
  induction cs generalizing rs with
  | nil => rfl
  | cons c cs ih =>
    have hresults : rs.map (fun r => (r.1, r.2.step s c)) = rs.map fun r => (r.1, r.2.step t c) :=
      List.map_congr_left fun r hr => by rw [RunningRule.step, RunningRule.step, h r hr]
    have hstep : stepAll s rs c = stepAll t rs c := by rw [stepAll, stepAll, hresults]
    have hrules : ∀ r ∈ (stepAll t rs c).1, r.2.rule.visit s = r.2.rule.visit t := by
      intro r hr
      simp only [stepAll, List.map_map] at hr
      obtain ⟨r', hr', rfl⟩ := List.mem_map.mp hr
      exact h r' hr'
    simp only [walk, hstep, ih hrules]

/-! ### Numbers -/

theorem map_snd_numbered (k : Nat) (rules : List Rule) :
    (numbered k rules).map (·.2) = rules.map .ofRule := by
  induction rules generalizing k with
  | nil => rfl
  | cons r rules ih => rw [numbered, List.map_cons, ih, List.map_cons]

theorem numbered_append (k : Nat) (rules rules' : List Rule) :
    numbered k (rules ++ rules') = numbered k rules ++ numbered (k + rules.length) rules' := by
  induction rules generalizing k with
  | nil => rfl
  | cons r rules ih =>
    rw [List.cons_append, numbered, ih, numbered, List.cons_append, List.length_cons,
      Nat.add_right_comm, Nat.add_assoc]

/-- The rules in front of a number do not bear it. -/
theorem filter_numbered_of_lt {k i : Nat} (h : i < k) (rules : List Rule) :
    (numbered k rules).filter (·.1 == i) = [] := by
  induction rules generalizing k with
  | nil => rfl
  | cons r rules ih =>
    rw [numbered, List.filter_cons_of_neg (by simpa using Nat.ne_of_gt h),
      ih (Nat.lt_succ_of_lt h)]

/-- A number is that of one rule. -/
theorem filter_numbered (k i : Nat) (rules : List Rule) :
    (numbered k rules).filter (·.1 == k + i) = numbered (k + i) rules[i]?.toList := by
  induction rules generalizing k i with
  | nil => rfl
  | cons r rules ih =>
    cases i with
    | zero =>
      rw [Nat.add_zero, numbered, List.filter_cons_of_pos (by simp),
        filter_numbered_of_lt (Nat.lt_succ_self k)]
      rfl
    | succ i =>
      have hnext : k + (i + 1) = k + 1 + i := by omega
      rw [numbered, List.filter_cons_of_neg (by simp), hnext, ih, List.getElem?_cons_succ]

/-! ### One walk, or one for each set -/

/-- What is found on the offers of a walk over a file is what the rules find. -/
theorem flatMap_found_shared (u : CompilationUnit Node) (s : Session) (k : Nat)
    (rules : List Rule) : (shared u s k rules).flatMap (·.found) = runRules u s rules := by
  rw [shared, flatMap_found_walk, map_snd_numbered, runRules]

/-- On a shared walk each rule is offered and finds what it would on a walk of its own. -/
theorem filter_shared (u : CompilationUnit Node) (s : Session) (k i : Nat) (rules : List Rule) :
    (shared u s k rules).filter (·.rule == k + i) = shared u s (k + i) rules[i]?.toList := by
  rw [shared, filter_walk, filter_numbered, shared]

/-- A rule is offered each node of a file, in the order of the walk. -/
theorem map_cursor_shared_singleton (u : CompilationUnit Node) (s : Session) (k : Nat) (r : Rule) :
    (shared u s k [r]).map (·.cursor) = u.cursors :=
  map_cursor_walk_singleton _ _

theorem shared_congr (k : Nat) (hrules : ∀ r ∈ rules, r.Private) (h : s.fresh = t.fresh) :
    shared u s k rules = shared u t k rules := by
  refine walk_congr _ fun r hr => ?_
  have hmem : r.2 ∈ rules.map .ofRule := map_snd_numbered k rules ▸ List.mem_map_of_mem hr
  obtain ⟨r', hr', hof⟩ := List.mem_map.mp hmem
  rw [← hof]
  exact (hrules r' hr').visit_congr h

theorem filter_shared_append (k i : Nat) (rules' : List Rule) :
    (shared u s k (rules ++ rules')).filter (·.rule == i) =
      (shared u s k rules).filter (·.rule == i) ++
        (shared u s (k + rules.length) rules').filter (·.rule == i) := by
  simp only [shared, filter_walk, numbered_append, List.filter_append]
  -- the number is that of rules in one of the two lists only
  by_cases h : i < k + rules.length
  · rw [filter_numbered_of_lt h, List.append_nil, walk_nil, List.append_nil]
  · have hnone : (numbered k rules).filter (·.1 == i) = [] := by
      obtain ⟨j, rfl⟩ := Nat.exists_eq_add_of_le (Nat.le_of_not_lt h)
      rw [Nat.add_assoc, filter_numbered, List.getElem?_eq_none (Nat.le_add_right _ _)]
      rfl
    rw [hnone, List.nil_append, walk_nil, List.nil_append]

/-- Whether sets of rules share one walk or have a walk each, a rule is offered the same nodes and
finds the same there. -/
theorem filter_separate (hsets : ∀ rules ∈ sets, ∀ r ∈ rules, r.Private) (h : s.fresh = t.fresh)
    (k i : Nat) : (separate u t k sets).filter (·.rule == i) =
      (shared u s k sets.flatten).filter (·.rule == i) := by
  induction sets generalizing t k with
  | nil =>
    rw [separate, List.flatten_nil, shared, numbered, walk_nil]
  | cons rules sets ih =>
    obtain ⟨hrules, hsets⟩ := List.forall_mem_cons.mp hsets
    have hbehind : s.fresh = (t.report ((shared u t k rules).flatMap (·.found))).fresh := h
    rw [separate, List.filter_append, ih hsets hbehind, List.flatten_cons, filter_shared_append,
      shared_congr k hrules h]

/-- The findings of separate walks are put into the session one walk after the other. -/
theorem foldl_report_eq (u : CompilationUnit Node) (s : Session) (k : Nat)
    (sets : List (List Rule)) :
    sets.foldl (fun s rules => s.report (runRules u s rules)) s =
      s.report ((separate u s k sets).flatMap (·.found)) := by
  induction sets generalizing s k with
  | nil => exact congrArg (Session.mk _ _ _ _) (List.append_nil _).symm
  | cons rules sets ih =>
    rw [List.foldl_cons, ih _ (k + rules.length), separate, List.flatMap_append,
      flatMap_found_shared]
    exact congrArg (Session.mk _ _ _ _) (List.append_assoc _ _ _)

/-- Offers are the same up to their order if they are the same for each rule. -/
theorem perm_of_filter_eq {offers offers' : List Offering}
    (h : ∀ i, offers.filter (·.rule == i) = offers'.filter (·.rule == i)) :
    offers.Perm offers' := by
  classical
  refine List.perm_iff_count.mpr fun o => ?_
  have hcount (offers : List Offering) :
      (offers.filter (·.rule == o.rule)).count o = offers.count o := List.count_filter BEq.rfl
  rw [← hcount offers, h, hcount]

end Offering

/-! ### Findings of a code -/

/-- A rule may find something that bears a code. -/
def Rule.MayEmit (r : Rule) (code : Code) : Prop :=
  ∃ s state c, ∃ d ∈ (r.visit s state c).2, d.code = code

theorem Rule.Emits.mem_of_mayEmit {r : Rule} {codes : List Code} {code : Code} (hr : r.Emits codes)
    (h : r.MayEmit code) : code ∈ codes := by
  obtain ⟨s, state, c, d, hd, rfl⟩ := h
  exact hr s state c d hd

namespace RunningRule

variable {s : Session} {rs rs' : List RunningRule} {code : Code}

open Classical in
theorem filter_stepAll_mayEmit (s : Session) (rs : List RunningRule) (code : Code) (c : Cursor) :
    ((stepAll s rs c).1.filter (·.rule.MayEmit code),
      (stepAll s rs c).2.filter (·.code == code)) =
    ((stepAll s (rs.filter (·.rule.MayEmit code)) c).1,
      (stepAll s (rs.filter (·.rule.MayEmit code)) c).2.filter (·.code == code)) := by
  refine Prod.ext ?_ ?_
  · simp only [stepAll, List.map_map, List.filter_map]
    rfl
  · simp only [stepAll, List.flatMap_map]
    induction rs with
    | nil => rfl
    | cons r rs ih =>
      rw [List.flatMap_cons, List.filter_append, ih, List.filter_cons]
      split
      · rw [List.flatMap_cons, List.filter_append]
      · rename_i hquiet
        have hnone : (step s c r).2.filter (·.code == code) = [] := by
          refine List.filter_eq_nil_iff.mpr fun d hd hcode => hquiet ?_
          exact decide_eq_true ⟨s, r.state, c, d, hd, eq_of_beq hcode⟩
        rw [hnone, List.nil_append]

open Classical in
/-- The findings of a code on a walk are those of the rules that may find some. -/
theorem filter_walk_mayEmit (rs : List RunningRule) (cs : List Cursor) :
    (walk s rs cs).filter (·.code == code) =
      (walk s (rs.filter (·.rule.MayEmit code)) cs).filter (·.code == code) := by
  induction cs generalizing rs with
  | nil => rfl
  | cons c cs ih =>
    have hstep := Prod.mk.inj (filter_stepAll_mayEmit s rs code c)
    simp only [walk, List.filter_append, hstep.2]
    rw [ih, hstep.1]

/-- Of two lists of rules one of which finds nothing that bears a code, the findings of the code are
the same whether or not they share a walk. -/
theorem filter_walk_append (cs : List Cursor)
    (h : (∀ r ∈ rs, ¬ r.rule.MayEmit code) ∨ ∀ r ∈ rs', ¬ r.rule.MayEmit code) :
    (walk s (rs ++ rs') cs).filter (·.code == code) =
      (walk s rs cs).filter (·.code == code) ++ (walk s rs' cs).filter (·.code == code) := by
  classical
  have hnone {rs : List RunningRule} (h : ∀ r ∈ rs, ¬ r.rule.MayEmit code) :
      rs.filter (·.rule.MayEmit code) = [] :=
    List.filter_eq_nil_iff.mpr fun r hr hemits => h r hr (of_decide_eq_true hemits)
  rw [filter_walk_mayEmit, filter_walk_mayEmit rs, filter_walk_mayEmit rs',
    List.filter_append]
  rcases h with h | h
  · rw [hnone h, Traced.walk_nil, List.nil_append, List.filter_nil, List.nil_append]
  · rw [hnone h, Traced.walk_nil, List.append_nil, List.filter_nil, List.append_nil]

end RunningRule

/-- Rules of which one list finds nothing that bears a code find the same of it on one walk over a
file or on two. -/
theorem filter_runRules_append {rules rules' : List Rule} {code : Code} (u : CompilationUnit Node)
    (s : Session) (h : (∀ r ∈ rules, ¬ r.MayEmit code) ∨ ∀ r ∈ rules', ¬ r.MayEmit code) :
    (runRules u s (rules ++ rules')).filter (·.code == code) =
      (runRules u s rules).filter (·.code == code) ++
        (runRules u s rules').filter (·.code == code) := by
  rw [runRules, List.map_append, RunningRule.filter_walk_append]
  · rfl
  · exact h.imp List.forall_mem_map.mpr List.forall_mem_map.mpr

/-! ### Sessions that differ in how findings are interleaved -/

/-- Sessions differ at most in how findings of different codes lie among each other. -/
structure Session.Interleaved (s t : Session) : Prop where
  fresh : s.fresh = t.fresh
  filter : ∀ code,
    s.diagnostics.filter (·.code == code) = t.diagnostics.filter (·.code == code)

namespace Diagnostics

variable {ds ds' : List Diagnostic}

theorem filter_override_code (severities : Code → Option Severity) (ds : List Diagnostic)
    (code : Code) : (override severities ds).filter (·.code == code) =
      override severities (ds.filter (·.code == code)) := by
  rw [override_eq, override_eq, List.filter_map, List.filter_filter, List.filter_filter]
  refine congrArg (List.map _) (List.filter_congr fun d _ => ?_)
  exact Bool.and_comm _ _

/-- Sorting takes no notice of how findings of different codes lie among each other. -/
theorem sort_eq_of_codes
    (h : ∀ code, ds.filter (·.code == code) = ds'.filter (·.code == code)) : sort ds = sort ds' := by
  refine mergeSort_eq_of_ties (fun _ _ _ => Std.TransCmp.isLE_trans)
    (isLE_total Diagnostic.compare) fun a => ?_
  -- tied findings have the same code
  have hclass (ds : List Diagnostic) : ds.filter (tied (fun a b => (a.compare b).isLE) a) =
      (ds.filter (·.code == a.code)).filter (tied (fun a b => (a.compare b).isLE) a) := by
    rw [List.filter_filter]
    refine List.filter_congr fun b _ => ?_
    cases htied : tied (fun a b => (a.compare b).isLE) a b with
    | false => rfl
    | true => simp [(Diagnostic.tied_iff.mp htied).code]
  rw [hclass ds, hclass ds', h]

end Diagnostics

/-- The final form of findings takes no notice of how findings of different codes lie among each
other. -/
theorem Passes.finalDiagnostics_congr (settings : Settings) {ds ds' : List Diagnostic}
    (h : ∀ code, ds.filter (·.code == code) = ds'.filter (·.code == code)) :
    finalDiagnostics settings ds = finalDiagnostics settings ds' := by
  refine Diagnostics.sort_eq_of_codes fun code => ?_
  rw [Diagnostics.filter_dedup, Diagnostics.filter_dedup, Diagnostics.filter_override_code,
    Diagnostics.filter_override_code, h]

/-! ### Stages and entries -/

/-- The stage of an entry that runs by itself. -/
def Entry.stage (e : Entry) : Stage :=
  match e.work with
  | .pass run => .pass run
  | .rules v rules => .walk v rules

namespace Stage

/-- The rules of a stage. -/
def rules : Stage → List Rule
  | pass _ => []
  | walk _ rules => rules

/-- A stage adds to the findings, and it looks at none. -/
def Additive : Stage → Prop
  | pass run => ∀ u s,
    run u s = { run u s.fresh with diagnostics := s.diagnostics ++ (run u s.fresh).diagnostics }
  | walk _ rules => ∀ r ∈ rules, r.Private

end Stage

namespace Entry

variable {e : Entry}

/-- An entry adds to the findings, and it looks at none. -/
def Additive (e : Entry) : Prop := e.stage.Additive

/-- Rule sets have no code in common. -/
def Separate (e d : Entry) : Prop :=
  ∀ code, (∀ r ∈ e.rules, ¬ r.MayEmit code) ∨ ∀ r ∈ d.rules, ¬ r.MayEmit code

theorem run_stage (u : CompilationUnit Node) (s : Session) (e : Entry) :
    e.stage.run u s = e.advance u s := by
  unfold stage advance
  cases e.work <;> rfl

theorem rules_stage (e : Entry) : e.stage.rules = e.rules := by
  unfold stage rules
  cases e.work <;> rfl

end Entry

namespace Stage

variable {g : Stage} {stages : List Stage} {e : Entry} {es : List Entry} {s t : Session}

/-- An entry makes a stage of its own, or its rules join the walk that comes next. -/
theorem cons_cases (e : Entry) (stages : List Stage) :
    cons e stages = e.stage :: stages ∨
      ∃ v rules next rest, e.work = .rules v rules ∧ stages = .walk v next :: rest ∧
        cons e stages = .walk v (rules ++ next) :: rest := by
  unfold cons Entry.stage
  cases e.work with
  | pass run => exact .inl rfl
  | rules v rules =>
    cases stages with
    | nil => exact .inl rfl
    | cons g stages =>
      cases g with
      | pass run => exact .inl rfl
      | walk w next =>
        by_cases hvw : v = w
        · subst hvw
          exact .inr ⟨v, rules, next, stages, rfl, rfl, if_pos rfl⟩
        · exact .inl (if_neg hvw)

/-- The rules of stages are those of the entries. -/
theorem exists_entry_of_mem_rules {r : Rule} (hg : g ∈ ofEntries es) (hr : r ∈ g.rules) :
    ∃ e ∈ es, r ∈ e.rules := by
  induction es generalizing g with
  | nil => exact absurd hg List.not_mem_nil
  | cons e es ih =>
    have hbehind {g : Stage} (hg : g ∈ ofEntries es) (hr : r ∈ g.rules) :
        ∃ e' ∈ e :: es, r ∈ e'.rules :=
      (ih hg hr).imp fun e' h => h.imp_left (List.mem_cons_of_mem e)
    change g ∈ cons e (ofEntries es) at hg
    rcases cons_cases e (ofEntries es) with hcons | ⟨v, rules, next, rest, hwork, hstages, hcons⟩
    · rw [hcons] at hg
      rcases List.mem_cons.mp hg with rfl | hg
      · exact ⟨e, List.mem_cons_self, e.rules_stage ▸ hr⟩
      · exact hbehind hg hr
    · rw [hcons] at hg
      rcases List.mem_cons.mp hg with rfl | hg
      · rcases List.mem_append.mp hr with hr | hr
        · exact ⟨e, List.mem_cons_self, by rwa [Entry.rules, hwork]⟩
        · exact hbehind (g := .walk v next) (hstages ▸ List.mem_cons_self) hr
      · exact hbehind (hstages ▸ List.mem_cons_of_mem _ hg) hr

theorem additive_cons (he : e.Additive) (h : ∀ g ∈ stages, g.Additive) :
    ∀ g ∈ cons e stages, g.Additive := by
  rcases cons_cases e stages with hcons | ⟨v, rules, next, rest, hwork, rfl, hcons⟩
  · rw [hcons]
    exact List.forall_mem_cons.mpr ⟨he, h⟩
  · obtain ⟨hnext, hrest⟩ := List.forall_mem_cons.mp h
    have hrules : ∀ r ∈ rules, r.Private := by
      simpa only [Entry.Additive, Entry.stage, hwork, Additive] using he
    rw [hcons]
    exact List.forall_mem_cons.mpr ⟨List.forall_mem_append.mpr ⟨hrules, hnext⟩, hrest⟩

theorem additive_ofEntries (h : ∀ e ∈ es, e.Additive) : ∀ g ∈ ofEntries es, g.Additive := by
  induction es with
  | nil => exact fun g hg => absurd hg List.not_mem_nil
  | cons e es ih =>
    obtain ⟨he, hes⟩ := List.forall_mem_cons.mp h
    exact additive_cons he (ih hes)

/-- Stages that look at no findings leave sessions alike. -/
theorem Additive.run_interleaved (hg : g.Additive) (u : CompilationUnit Node)
    (h : s.Interleaved t) : (g.run u s).Interleaved (g.run u t) := by
  cases g with
  | pass run =>
    have hs := hg u s
    have ht := hg u t
    rw [h.fresh] at hs
    simp only [Stage.run]
    refine ⟨?_, fun code => ?_⟩
    · rw [hs, ht]
      rfl
    · rw [hs, ht, List.filter_append, List.filter_append, h.filter]
  | walk v rules =>
    have hfound : runRules u s rules = runRules u t rules :=
      runRules_congr u fun r hr => (hg r hr).visit_congr h.fresh
    refine ⟨h.fresh, fun code => ?_⟩
    simp only [Stage.run, Session.report, hfound, List.filter_append, h.filter]

theorem foldl_run_interleaved (hstages : ∀ g ∈ stages, g.Additive) (u : CompilationUnit Node)
    (h : s.Interleaved t) :
    (stages.foldl (Stage.run u) s).Interleaved (stages.foldl (Stage.run u) t) := by
  induction stages generalizing s t with
  | nil => exact h
  | cons g stages ih =>
    obtain ⟨hg, hstages⟩ := List.forall_mem_cons.mp hstages
    exact ih hstages (hg.run_interleaved u h)

/-- A pass that comes last is a stage of its own. -/
theorem ofEntries_append_pass {run : CompilationUnit Node → Session → Session}
    (hwork : e.work = .pass run) : ofEntries (es ++ [e]) = ofEntries es ++ [Stage.pass run] := by
  rw [← Traced.Stage.map_erase_ofEntries, Traced.Stage.ofEntries_append_pass hwork, List.map_append,
    Traced.Stage.map_erase_ofEntries]
  rfl

end Stage

/-! ### Runs -/

namespace Session

variable {s t : Session} {es : List Entry}

theorem Interleaved.trans {r : Session} (h : s.Interleaved t) (h' : t.Interleaved r) :
    s.Interleaved r :=
  ⟨h.fresh.trans h'.fresh, fun code => (h.filter code).trans (h'.filter code)⟩

/-- A walk that the rules of two sets share, and two walks one after the other. -/
theorem interleaved_report_append {rules next : List Rule} (u : CompilationUnit Node) (s : Session)
    (hnext : ∀ r ∈ next, r.Private)
    (hcodes : ∀ code, (∀ r ∈ rules, ¬ r.MayEmit code) ∨ ∀ r ∈ next, ¬ r.MayEmit code) :
    (s.report (runRules u s (rules ++ next))).Interleaved
      ((s.report (runRules u s rules)).report
        (runRules u (s.report (runRules u s rules)) next)) := by
  have hfound : runRules u (s.report (runRules u s rules)) next = runRules u s next :=
    runRules_congr u fun r hr => (hnext r hr).visit_congr rfl
  rw [hfound]
  refine ⟨rfl, fun code => ?_⟩
  simp only [report, List.filter_append, filter_runRules_append u s (hcodes code),
    List.append_assoc]

/-- A run whose rule sets share walks, and one of one entry after the other, interleave findings of
different codes differently and do nothing else differently. -/
theorem Interleaved.run (h : s.Interleaved t) (u : CompilationUnit Node)
    (hadditive : ∀ e ∈ es, e.Additive) (hcodes : es.Pairwise Entry.Separate) :
    (s.run u es).Interleaved (es.foldl (Entry.advance u) t) := by
  induction es generalizing s t with
  | nil => exact h
  | cons e es ih =>
    obtain ⟨he, hadditive⟩ := List.forall_mem_cons.mp hadditive
    obtain ⟨hseparate, hcodes⟩ := List.pairwise_cons.mp hcodes
    have hstages := Stage.additive_ofEntries hadditive
    change ((Stage.cons e (Stage.ofEntries es)).foldl (Stage.run u) s).Interleaved _
    rw [List.foldl_cons]
    rcases Stage.cons_cases e (Stage.ofEntries es) with
      hcons | ⟨v, rules, next, rest, hwork, hnext, hcons⟩
    · rw [hcons, List.foldl_cons]
      refine ih ?_ hadditive hcodes
      rw [← Entry.run_stage]
      exact Stage.Additive.run_interleaved he u h
    · -- the rules of the entry join the walk of those behind it
      have hadvance (s : Session) : e.advance u s = s.report (runRules u s rules) := by
        simp only [Entry.advance, hwork]
      have hrules : e.rules = rules := by rw [Entry.rules, hwork]
      have hwalk : Stage.walk v next ∈ Stage.ofEntries es := hnext ▸ List.mem_cons_self
      have hdisjoint (code : Code) :
          (∀ r ∈ rules, ¬ r.MayEmit code) ∨ ∀ r ∈ next, ¬ r.MayEmit code := by
        refine or_iff_not_imp_left.mpr fun hemits r hr => ?_
        obtain ⟨d, hd, hr⟩ := Stage.exists_entry_of_mem_rules hwalk hr
        exact (hseparate d hd code).resolve_left (hrules ▸ hemits) r hr
      have hshared := interleaved_report_append u s (hstages _ hwalk) hdisjoint
      rw [← hadvance] at hshared
      have hbehind := ih (Entry.run_stage u s e ▸ Entry.run_stage u t e ▸
        Stage.Additive.run_interleaved he u h) hadditive hcodes
      rw [Session.run, hnext] at hbehind
      rw [hnext] at hstages
      rw [hcons]
      exact (Stage.foldl_run_interleaved (List.forall_mem_cons.mp hstages).2 u hshared).trans
        hbehind

/-- Behind the pass that puts the findings into their final form, nothing is left of it. -/
theorem run_append_reporting (u : CompilationUnit Node) (s : Session)
    (hadditive : ∀ e ∈ es, e.Additive) (hcodes : es.Pairwise Entry.Separate) :
    s.run u (es ++ [Passes.reporting]) = (es ++ [Passes.reporting]).foldl (Entry.advance u) s := by
  have hsame : s.Interleaved s := ⟨rfl, fun _ => rfl⟩
  obtain ⟨hfresh, hfilter⟩ := hsame.run u hadditive hcodes
  have hreporting (s : Session) : Entry.advance u s Passes.reporting =
      { s.fresh with diagnostics := Passes.finalDiagnostics s.fresh.settings s.diagnostics } := rfl
  have hrun : s.run u (es ++ [Passes.reporting]) =
      Entry.advance u (s.run u es) Passes.reporting := by
    rw [Session.run, Stage.ofEntries_append_pass rfl, List.foldl_append]
    rfl
  rw [hrun, List.foldl_append, List.foldl_cons, List.foldl_nil, hreporting, hreporting, hfresh,
    Passes.finalDiagnostics_congr _ hfilter]

end Session

/-! ### Registered entries -/

namespace Entry

variable {e d : Entry} {run : CompilationUnit Node → Session → Session}

theorem additive_of_report (found : CompilationUnit Node → Session → List Diagnostic)
    (hwork : e.work = .pass run) (hrun : ∀ u s, run u s = s.report (found u s))
    (hfound : ∀ u s, found u s = found u s.fresh) : e.Additive := by
  simp only [Additive, stage, hwork, Stage.Additive]
  intro u s
  rw [hrun, hrun, hfound]
  rfl

theorem additive_of_store (hwork : e.work = .pass run)
    (hrun : ∀ u (s : Session), run u s = { run u s.fresh with diagnostics := s.diagnostics })
    (hnone : ∀ u (s : Session), (run u s.fresh).diagnostics = []) : e.Additive := by
  simp only [Additive, stage, hwork, Stage.Additive]
  intro u s
  rw [hnone, List.append_nil]
  exact hrun u s

theorem additive_of_rules {v : Variant} {rules : List Rule} (hwork : e.work = .rules v rules)
    (hrules : ∀ r ∈ rules, r.Private) : e.Additive := by
  simpa only [Additive, stage, hwork, Stage.Additive] using hrules

theorem private_of_mem_naming {r : Rule} (hr : r ∈ Rules.naming) : r.Private := by
  simp only [Rules.naming, List.mem_cons, List.not_mem_nil, or_false] at hr
  rcases hr with rfl | rfl | rfl <;> exact fun s => rfl

theorem private_of_mem_declarations {r : Rule} (hr : r ∈ Rules.declaration) : r.Private := by
  simp only [Rules.declaration, List.mem_cons, List.not_mem_nil, or_false] at hr
  rcases hr with rfl | rfl | rfl | rfl | rfl <;> exact fun s => rfl

theorem private_of_mem_controlFlowSmells {r : Rule} (hr : r ∈ Rules.controlFlow) :
    r.Private := by
  simp only [Rules.controlFlow, List.mem_cons, List.not_mem_nil, or_false] at hr
  rcases hr with rfl | rfl <;> exact fun s => rfl

theorem private_of_mem_flow {r : Rule} (hr : r ∈ Passes.flowRules) : r.Private := by
  simp only [Passes.flowRules, List.mem_cons, List.not_mem_nil, or_false] at hr
  rcases hr with rfl | rfl | rfl | rfl | rfl | rfl | rfl <;> exact fun s => rfl

theorem additive_dependencies : Passes.dependencies.Additive := by
  refine additive_of_store rfl (fun u s => ?_) fun u s => ?_
  all_goals
    obtain ⟨document, settings, assemblies, artifacts, diagnostics⟩ := s
    obtain ⟨metrics, symbols, external, flows, dependencies, scopes, bindings⟩ := artifacts
    cases symbols <;> rfl

theorem additive_flow : Passes.flow.Additive := by
  refine additive_of_report _ rfl (fun u s => rfl) fun u s => ?_
  have hrules : runRules u s Passes.flowRules = runRules u s.fresh Passes.flowRules :=
    runRules_congr u fun r hr => private_of_mem_flow hr s
  rw [hrules]
  rfl

theorem additive_nullability : Passes.nullability.Additive := by
  refine additive_of_report (fun u s => if u.nullableEnabled then runRules u s [Rules.nullAssignment]
    else []) rfl (fun u s => ?_) (fun u s => ?_)
  · cases u.nullableEnabled with
    | false => exact congrArg (Session.mk _ _ _ _) (List.append_nil _).symm
    | true => rfl
  · refine ite_congr rfl (fun _ => runRules_congr u fun r hr => ?_) fun _ => rfl
    rw [List.mem_singleton.mp hr]
    rfl

/-- All registered entries but the last one add to the findings and look at none. -/
theorem additive_of_mem (he : e ∈ all.dropLast) : e.Additive := by
  -- by the kind of work: what stores an artifact, rule sets, and passes that report
  simp only [all, List.dropLast_cons_cons, List.dropLast_singleton, List.mem_cons, List.not_mem_nil,
    or_false] at he
  rcases he with rfl | rfl | rfl | rfl | rfl | rfl | rfl | rfl | rfl | rfl | rfl | rfl | rfl | rfl |
    rfl | rfl | rfl | rfl
  · exact additive_of_store rfl (fun u s => rfl) fun u s => rfl
  · exact additive_of_store rfl (fun u s => rfl) fun u s => rfl
  · exact additive_of_store rfl (fun u s => rfl) fun u s => rfl
  · exact additive_of_rules rfl fun r hr => private_of_mem_naming hr
  · exact additive_of_rules rfl fun r hr => private_of_mem_declarations hr
  · exact additive_of_store rfl (fun u s => rfl) fun u s => rfl
  · exact additive_dependencies
  · exact additive_of_rules rfl fun r hr => private_of_mem_controlFlowSmells hr
  · exact additive_of_store rfl (fun u s => rfl) fun u s => rfl
  · exact additive_of_store rfl (fun u s => rfl) fun u s => rfl
  · exact additive_of_report _ rfl (fun u s => rfl) fun u s => rfl
  · exact additive_of_report _ rfl (fun u s => rfl) fun u s => rfl
  · exact additive_of_report _ rfl (fun u s => rfl) fun u s => rfl
  · exact additive_flow
  · exact additive_nullability
  · exact additive_of_report _ rfl (fun u s => rfl) fun u s => rfl
  · exact additive_of_report _ rfl (fun u s => rfl) fun u s => rfl
  · exact additive_of_report _ rfl (fun u s => rfl) fun u s => rfl

/-- The rules of a registered entry find what bears its codes. -/
theorem emits_of_mem_rules : ∀ e ∈ all, ∀ r ∈ e.rules, r.Emits e.codes := by
  have hnone {e : Entry} (h : e.rules = []) : ∀ r ∈ e.rules, r.Emits e.codes := by
    rw [h]
    exact fun r hr => absurd hr List.not_mem_nil
  simp only [all, List.forall_mem_cons]
  exact ⟨hnone rfl, hnone rfl, hnone rfl, fun r => emits_of_mem_naming,
    fun r => emits_of_mem_declarations, hnone rfl, hnone rfl,
    fun r => emits_of_mem_controlFlowSmells, hnone rfl, hnone rfl, hnone rfl, hnone rfl, hnone rfl,
    hnone rfl, hnone rfl, hnone rfl, hnone rfl, hnone rfl, hnone rfl,
    fun _ h => absurd h List.not_mem_nil⟩

/-- Registered rule sets have no code in common. -/
theorem pairwise_separate : all.Pairwise Separate := by
  have hne : all.Pairwise (· ≠ ·) := List.Nodup.of_map _ nodup_ids
  refine hne.imp_of_mem fun {e d} he hd hne code => ?_
  by_contra h
  push Not at h
  obtain ⟨⟨r, hr, hemits⟩, r', hr', hemits'⟩ := h
  exact hne (eq_of_mem_codes he hd ((emits_of_mem_rules e he r hr).mem_of_mayEmit hemits)
    ((emits_of_mem_rules d hd r' hr').mem_of_mayEmit hemits'))

end Entry

/-- With reports in their final form, the registered rule sets that share a walk could as well have
a walk each. -/
theorem Session.runEnabled_eq_foldl (u : CompilationUnit Node) (s : Session)
    (hreporting : s.settings.passEnabled "reporting" = true) :
    s.runEnabled u = (Entry.enabled s.settings).foldl (Entry.advance u) s := by
  have hon : Entry.isEnabled s.settings Passes.reporting = true := hreporting
  rw [runEnabled, Entry.enabled_eq_append, if_pos hon]
  refine run_append_reporting u s (fun e he => ?_) ?_
  · exact Entry.additive_of_mem (List.mem_of_mem_filter he)
  · exact Entry.pairwise_separate.sublist (List.filter_sublist.trans (List.dropLast_sublist _))

/-- Rules that keep to their own state are offered and find the same whether their sets share one
walk or have a walk each: each of them is offered every node, in the order of the walk, and finds
there what it would find on a walk of its own. So the findings of both differ only in the order in
which those of different rules come. Hence rule sets that follow each other can share a walk: once
findings are put into their final form, a run is the same as one of one entry after the other, for
entries that only add to the findings and rule sets that have no code in common, and so are those of
the pipeline. -/
theorem shared_walks_sound (u : CompilationUnit Node) (s : Session) (sets : List (List Rule))
    (hprivate : ∀ rules ∈ sets, ∀ r ∈ rules, r.Private) :
    runRules u s sets.flatten = (Offering.shared u s 0 sets.flatten).flatMap (·.found) ∧
    sets.foldl (fun s rules => s.report (runRules u s rules)) s =
      s.report ((Offering.separate u s 0 sets).flatMap (·.found)) ∧
    (∀ i, (Offering.separate u s 0 sets).filter (·.rule == i) =
      (Offering.shared u s 0 sets.flatten).filter (·.rule == i)) ∧
    (∀ i, ∀ h : i < sets.flatten.length,
      (Offering.shared u s 0 sets.flatten).filter (·.rule == i) =
        Offering.shared u s i [sets.flatten[i]] ∧
      (Offering.shared u s i [sets.flatten[i]]).map (·.cursor) = u.cursors) ∧
    (Offering.separate u s 0 sets).Perm (Offering.shared u s 0 sets.flatten) ∧
    (∀ es : List Entry, (∀ e ∈ es, e.Additive) → es.Pairwise Entry.Separate →
      s.run u (es ++ [Passes.reporting]) =
        (es ++ [Passes.reporting]).foldl (Entry.advance u) s) ∧
    (s.settings.passEnabled "reporting" = true →
      s.runEnabled u = (Entry.enabled s.settings).foldl (Entry.advance u) s) := by
  -- Each rule has the same offers on both walks, and so all rules together have.
  have hsame (i : Nat) := Offering.filter_separate (u := u) hprivate (rfl : s.fresh = s.fresh) 0 i
  refine ⟨(Offering.flatMap_found_shared u s 0 _).symm, Offering.foldl_report_eq u s 0 sets, hsame,
    fun i h => ⟨?_, Offering.map_cursor_shared_singleton u s i _⟩, Offering.perm_of_filter_eq hsame,
    fun es => Session.run_append_reporting u s, Session.runEnabled_eq_foldl u s⟩
  have halone := Offering.filter_shared u s 0 i sets.flatten
  rw [Nat.zero_add, List.getElem?_eq_getElem h] at halone
  exact halone

/-- Two classes whose names break the rules, each with a method whose parameters share a name. -/
def namesakesText : List UInt8 :=
  ("class c\x7bvoid M(int a,int a)\x7b\x7d\x7d" ++
    "class d\x7bvoid M(int a,int a)\x7b\x7d\x7d").toList.map Lexer.ascii

/-- What the rules on names and those on declarations find there is interleaved differently on one
walk and on two, and is the same but for this. -/
theorem namesakes_share_walk :
    let s : Session := { document := ⟨"C.cs", namesakesText⟩ }
    ∃ u, parse namesakesText = .ok u ∧
      (∀ rules ∈ [Rules.naming, Rules.declaration], ∀ r ∈ rules, r.Private) ∧
      (runRules u s [Rules.naming, Rules.declaration].flatten).map (·.code) =
        [.pascalCase, .duplicateParameter, .pascalCase, .duplicateParameter] ∧
      ((Offering.separate u s 0 [Rules.naming, Rules.declaration]).flatMap (·.found)).map (·.code) =
        [.pascalCase, .pascalCase, .duplicateParameter, .duplicateParameter] ∧
      (Offering.separate u s 0 [Rules.naming, Rules.declaration]).Perm
        (Offering.shared u s 0 [Rules.naming, Rules.declaration].flatten) ∧
      s.runEnabled u = (Entry.enabled s.settings).foldl (Entry.advance u) s := by
  intro s
  -- The text is parsed once, and both lists are read off this parse.
  have hcodes : (parse namesakesText).toOption.map (fun u =>
      ((runRules u s [Rules.naming, Rules.declaration].flatten).map (·.code),
        ((Offering.separate u s 0 [Rules.naming, Rules.declaration]).flatMap (·.found)).map
          (·.code))) =
      some ([.pascalCase, .duplicateParameter, .pascalCase, .duplicateParameter],
        [.pascalCase, .pascalCase, .duplicateParameter, .duplicateParameter]) := by
    rw [show namesakesText = _ from Lexer.ascii_ofList_append _ _]
    decide +kernel
  have hprivate : ∀ rules ∈ [Rules.naming, Rules.declaration], ∀ r ∈ rules, r.Private := by
    simp only [List.forall_mem_cons]
    exact ⟨fun r => Entry.private_of_mem_naming, fun r => Entry.private_of_mem_declarations,
      fun _ h => absurd h List.not_mem_nil⟩
  obtain ⟨u, hparse, hcodes⟩ := exists_parse_of_map hcodes
  obtain ⟨hshared, hseparate⟩ := Prod.mk.inj hcodes
  obtain ⟨-, -, -, -, hperm, -, hrun⟩ := shared_walks_sound u s _ hprivate
  exact ⟨u, hparse, hprivate, hshared, hseparate, hperm, hrun rfl⟩

end CSharpAudit
