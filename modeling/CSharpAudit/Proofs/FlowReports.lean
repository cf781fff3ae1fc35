import CSharpAudit.Pipeline.Registry
import CSharpAudit.Proofs.Codes
import CSharpAudit.Proofs.MemberFlows
import Mathlib.Data.List.Basic

/-!
# Counting members over a threshold

A report tells in two ways how many members of a file are too complex or nested too deeply: it
counts the names whose control flow exceeds the threshold, and it lists findings of the rules that
walk over the file. The findings of either rule are as many as the names: each name is found at one
node, the findings stand at different places, so none is taken for a repetition of another one, and
nobody else finds anything under the code of the rule.

Findings are put into their final form before they are reported: they get the severities of the
settings, those that say the same are reported once, and they are sorted. Findings at different
places of a text never say the same, since the line and the column tell the place. So the findings
of a code are all kept if each has a place of its own and the settings say nothing about the code.

## Main definitions

* `Rule.Exceeding` — a rule finds the members whose control flow exceeds a threshold
* `Rule.found` — what a rule finds that looks at each node by itself

## Main results

* `Document.eq_of_locate_eq` — the location of a place in a text tells the place
* `Passes.countP_finalDiagnostics` — findings that differ are all kept
* `Rule.Exceeding.length_found`, `Rule.Exceeding.pairwise_found` — there are as many findings as
  names over the threshold, and no two say the same
* `Session.run_agree` — shared walks do not matter to what passes find out
* `Session.flows_runEnabled`, `Session.exists_emitted_controlFlowSmells` — what the rules look at
* `flow_summary_counts_findings` — the numbers of a report are those of its findings
-/

namespace CSharpAudit

/-! ### What reports keep -/

/-- The location of a place in a text tells the place. -/
theorem Document.eq_of_locate_eq {d : Document} {a b : Nat} {l l' : Int}
    (ha : a ≤ d.source.length) (hb : b ≤ d.source.length) (h : d.locate a l = d.locate b l') :
    a = b := by
  have hclamp {n : Nat} (hn : n ≤ d.source.length) : clamp d.source.length (n : Int) = n :=
    Nat.min_eq_left hn
  have hstart (n : Nat) : (d.lineStarts.takeWhile (· ≤ n)).getLast?.getD 0 ≤ n := by
    cases hlast : (d.lineStarts.takeWhile (· ≤ n)).getLast? with
    | none => exact Nat.zero_le n
    | some start =>
      have hle := List.all_eq_true.mp List.all_takeWhile start (List.mem_of_getLast? hlast)
      exact of_decide_eq_true hle
  -- both places are in one line, and behind the start of this line by the same distance
  have hlength : (d.lineStarts.takeWhile (· ≤ a)).length =
      (d.lineStarts.takeWhile (· ≤ b)).length := by
    have hline := congrArg Location.line h
    simp only [locate, hclamp ha, hclamp hb] at hline
    exact Int.ofNat.inj hline
  have hlines : d.lineStarts.takeWhile (· ≤ a) = d.lineStarts.takeWhile (· ≤ b) := by
    have hprefix := List.prefix_of_prefix_length_le
      (List.takeWhile_prefix (l := d.lineStarts) (· ≤ a))
      (List.takeWhile_prefix (l := d.lineStarts) (· ≤ b)) (Nat.le_of_eq hlength)
    exact hprefix.eq_of_length hlength
  have hcolumn := congrArg Location.column h
  simp only [locate, hclamp ha, hclamp hb] at hcolumn
  have hastart := hstart a
  have hbstart := hstart b
  rw [hlines] at hcolumn hastart
  omega

namespace Diagnostics

variable {ds kept : List Diagnostic} {d : Diagnostic} {code : Code}

/-- Keeps a finding unless one that says the same is kept already. -/
def keep (kept : List Diagnostic) (d : Diagnostic) : List Diagnostic :=
  if kept.any (·.same d) then kept else kept ++ [d]

theorem filter_keep_of_ne (h : d.code ≠ code) :
    (keep kept d).filter (·.code == code) = kept.filter (·.code == code) := by
  unfold keep
  split
  · rfl
  · simp [h]

/-- Findings that say the same have the same code. -/
theorem filter_keep (h : d.code = code) :
    (keep kept d).filter (·.code == code) = keep (kept.filter (·.code == code)) d := by
  have hany : (kept.filter (·.code == code)).any (·.same d) = kept.any (·.same d) := by
    rw [List.any_filter]
    refine congrArg kept.any (funext fun a => ?_)
    -- the finding says the same as one of its own code only
    rw [Diagnostic.same, h]
    cases a.code == code <;> rfl
  unfold keep
  rw [hany]
  split
  · rfl
  · simp [h]

/-- Which findings of a code are kept depends on the findings of this code alone. -/
theorem filter_dedup : (dedup ds).filter (·.code == code) = dedup (ds.filter (·.code == code)) := by
  suffices h : ∀ kept, (ds.foldl keep kept).filter (·.code == code) =
      (ds.filter (·.code == code)).foldl keep (kept.filter (·.code == code)) from h []
  induction ds with
  | nil => exact fun kept => rfl
  | cons d ds ih =>
    intro kept
    rw [List.foldl_cons, ih]
    by_cases hcode : d.code = code
    · rw [filter_keep hcode, List.filter_cons_of_pos (by simpa using hcode), List.foldl_cons]
    · rw [filter_keep_of_ne hcode, List.filter_cons_of_neg (by simpa using hcode)]

/-- Findings none of which says the same as another one are all kept. -/
theorem dedup_eq_self (h : ds.Pairwise fun a b => a.same b = false) : dedup ds = ds := by
  suffices hkeep : ∀ ds kept : List Diagnostic,
      (kept ++ ds).Pairwise (fun a b => a.same b = false) →
      ds.foldl keep kept = kept ++ ds from hkeep ds [] h
  intro ds
  induction ds with
  | nil => exact fun kept _ => (List.append_nil kept).symm
  | cons d ds ih =>
    intro kept h
    have hnew : kept.any (·.same d) = false := by
      refine List.any_eq_false.mpr fun a ha => ?_
      rw [(List.pairwise_append.mp h).2.2 a ha d List.mem_cons_self]
      exact Bool.false_ne_true
    have hkeep : keep kept d = kept ++ [d] := by rw [keep, hnew, if_neg Bool.false_ne_true]
    have hsame : kept ++ [d] ++ ds = kept ++ d :: ds := List.append_assoc kept [d] ds
    rw [List.foldl_cons, hkeep, ih _ (hsame ▸ h), hsame]

/-- Findings of a code about which nothing is said are left as they are. -/
theorem filter_override {severities : Code → Option Severity} (h : severities code = none) :
    (override severities ds).filter (·.code == code) = ds.filter (·.code == code) := by
  rw [override, List.filter_filterMap, ← List.filterMap_eq_filter]
  refine List.filterMap_congr fun d _ => ?_
  by_cases hcode : d.code = code
  · subst hcode
    simp [h, Option.filter]
  · have hne : (d.code == code) = false := beq_eq_false_iff_ne.mpr hcode
    split <;> simp [Option.filter, Option.guard, hne]

end Diagnostics

/-- If nothing is said about a code, and no two of its findings say the same, all are reported. -/
theorem Passes.countP_finalDiagnostics {settings : Settings} {ds : List Diagnostic} {code : Code}
    (hseverity : settings.severity? code = none)
    (hdistinct : (ds.filter (·.code == code)).Pairwise fun a b => a.same b = false) :
    (finalDiagnostics settings ds).countP (·.code == code) = ds.countP (·.code == code) := by
  have hperm := List.mergeSort_perm (Diagnostics.dedup
    (Diagnostics.override settings.severity? ds)) fun a b => (a.compare b).isLE
  rw [finalDiagnostics, Diagnostics.sort, hperm.countP_eq, List.countP_eq_length_filter,
    Diagnostics.filter_dedup, Diagnostics.filter_override hseverity,
    Diagnostics.dedup_eq_self hdistinct, List.countP_eq_length_filter]

variable {u : CompilationUnit Node} {s t : Session} {e : Entry} {es : List Entry}

/-! ### Walks of rules without states -/

namespace RunningRule

variable {rs : List RunningRule}

/-- Rules that keep their states find the same things at a node whenever they come by. -/
theorem walk_eq_flatMap (cs : List Cursor)
    (h : ∀ r ∈ rs, ∀ c, (r.rule.visit s r.state c).1 = r.state) :
    walk s rs cs = cs.flatMap fun c => rs.flatMap fun r => (r.rule.visit s r.state c).2 := by
  have hstep (c : Cursor) : (stepAll s rs c).1 = rs := by
    rw [stepAll, List.map_map]
    refine (List.map_congr_left fun r hr => ?_).trans (List.map_id rs)
    exact congrArg (RunningRule.mk r.rule) (h r hr c)
  induction cs with
  | nil => rfl
  | cons c cs ih =>
    have hwalk : walk s rs (c :: cs) = (stepAll s rs c).2 ++ walk s (stepAll s rs c).1 cs := rfl
    rw [hwalk, hstep, ih, List.flatMap_cons, stepAll, List.flatMap_map]
    rfl

end RunningRule

theorem runRules_eq_flatMap {rules : List Rule} (u : CompilationUnit Node)
    (h : ∀ r ∈ rules, ∀ c, (r.visit s r.start c).1 = r.start) :
    runRules u s rules =
      u.cursors.flatMap fun c => rules.flatMap fun r => (r.visit s r.start c).2 := by
  rw [runRules, RunningRule.walk_eq_flatMap]
  · simp only [List.flatMap_map]
    rfl
  · exact List.forall_mem_map.mpr h

/-! ### Sessions behind entries -/

namespace Entry

/-- Entries that write nothing of some kinds leave a session in agreement on these. -/
theorem agree_foldl_advance {K : ArtifactKind → Prop} (u : CompilationUnit Node) (s : Session)
    (hes : ∀ d ∈ es, d ∈ all ∧ ∀ k ∈ d.writes, ¬ K k) :
    (es.foldl (advance u) s).Agree K s := by
  induction es generalizing s with
  | nil => exact .refl s
  | cons d es ih =>
    obtain ⟨⟨hd, hwrites⟩, hes⟩ := List.forall_mem_cons.mp hes
    have hstep := (confined_of_mem d hd).frame u s
    refine (ih (d.advance u s) hes).trans (hstep.mono fun k hk hwritten => ?_)
    exact hwrites k hwritten hk

/-- Behind the pass that measures control flow, a session holds the control flow of the file. -/
theorem flows_foldl_advance (hes : ∀ d ∈ es, d ∈ all) (hmem : Passes.controlFlow ∈ es) :
    (es.foldl (advance u) s).artifacts.flows = some (flowIndex u) := by
  have hcontrolFlow := hes _ hmem
  induction es using List.reverseRecOn with
  | nil => exact absurd hmem List.not_mem_nil
  | append_singleton es d ih =>
    obtain ⟨hes, hd⟩ := List.forall_mem_append.mp hes
    have hd : d ∈ all := hd d List.mem_cons_self
    rw [List.foldl_append, List.foldl_cons, List.foldl_nil]
    by_cases heq : d = Passes.controlFlow
    · rw [heq]
      rfl
    · -- no other pass writes control flow
      have hunwritten : .flows ∉ d.writes := fun hwritten =>
        heq (eq_of_mem_writes hd hcontrolFlow hwritten (List.mem_singleton.mpr rfl))
      have hframe := (confined_of_mem d hd).frame u (es.foldl (advance u) s)
      have hbefore : Passes.controlFlow ∈ es :=
        (List.mem_append.mp hmem).resolve_right fun h => heq (List.mem_singleton.mp h).symm
      exact (hframe.artifacts _ hunwritten).trans (ih hes hbefore)

theorem emissionsOf_sequential_eq_nil (hes : ∀ d ∈ es, d.id ≠ e.id) :
    emissionsOf e.id (sequential u s es) = [] := by
  induction es generalizing s with
  | nil => rfl
  | cons d es ih =>
    obtain ⟨hd, hes⟩ := List.forall_mem_cons.mp hes
    rw [emissionsOf_sequential_cons_of_ne u hd, ih hes]

/-- In a run of one entry after the other, an entry emits what it finds in the session behind those
in front of it. -/
theorem emissionsOf_sequential_append_cons {front back : List Entry}
    (hfront : ∀ d ∈ front, d.id ≠ e.id) (hback : ∀ d ∈ back, d.id ≠ e.id) :
    emissionsOf e.id (sequential u s (front ++ e :: back)) =
      e.findings u (front.foldl (advance u) s) := by
  induction front generalizing s with
  | nil =>
    rw [List.nil_append, sequential, emissionsOf_append, emissionsOf_tagged, if_pos rfl,
      emissionsOf_sequential_eq_nil hback, List.append_nil]
    rfl
  | cons d front ih =>
    obtain ⟨hd, hfront⟩ := List.forall_mem_cons.mp hfront
    rw [List.cons_append, emissionsOf_sequential_cons_of_ne u hd, ih hfront]
    rfl

end Entry

namespace Session

/-- Sessions that agree on all artifacts still do behind stages that look at nothing else. -/
theorem foldl_run_agree {stages : List Traced.Stage} (u : CompilationUnit Node)
    (hstages : ∀ g ∈ stages, g.Blind) (h : s.Agree (fun _ => True) t) :
    ((stages.map Traced.Stage.erase).foldl (Stage.run u) s).Agree (fun _ => True)
      ((stages.map Traced.Stage.erase).foldl (Stage.run u) t) := by
  induction stages generalizing s t with
  | nil => exact h
  | cons g stages ih =>
    obtain ⟨hg, hstages⟩ := List.forall_mem_cons.mp hstages
    exact ih hstages (hg.run_agree u h)

/-- An entry that shares a walk leaves a session in agreement with the one behind the entry itself
and those that follow. -/
theorem foldl_run_cons_agree {stages : List Traced.Stage} (u : CompilationUnit Node) (s : Session)
    (hstages : ∀ g ∈ stages, g.Blind) :
    (((Traced.Stage.cons e stages).map Traced.Stage.erase).foldl (Stage.run u) s).Agree
      (fun _ => True) ((stages.map Traced.Stage.erase).foldl (Stage.run u) (e.advance u s)) := by
  rcases Traced.Stage.cons_cases e stages with
    ⟨run, hwork, hcons⟩ | ⟨v, rules, hwork, hcons⟩ | ⟨v, rules, next, rest, hwork, rfl, hcons⟩
  · rw [hcons]
    simp only [Entry.advance, hwork]
    exact .refl _
  · rw [hcons]
    simp only [Entry.advance, hwork, List.map_cons, List.foldl_cons, Traced.Stage.erase,
      Traced.map_snd_tagged]
    exact .refl _
  · -- whoever shares the walk only adds findings
    obtain ⟨-, hrest⟩ := List.forall_mem_cons.mp hstages
    rw [hcons, List.map_cons, List.foldl_cons, List.map_cons, List.foldl_cons]
    refine foldl_run_agree u hrest ?_
    have hadvance : (e.advance u s).Agree (fun _ => True) s := by
      simp only [Entry.advance, hwork]
      exact .report s _
    exact (Agree.report s _).trans ((Agree.report _ _).trans hadvance).symm

/-- Shared walks do not matter to what passes find out: behind a run, a session agrees with the one
behind a run of one entry after the other. -/
theorem run_agree (u : CompilationUnit Node) (s : Session) (hes : ∀ e ∈ es, e.Confined) :
    (s.run u es).Agree (fun _ => True) (es.foldl (Entry.advance u) s) := by
  rw [Session.run, ← Traced.Stage.map_erase_ofEntries]
  induction es generalizing s with
  | nil => exact .refl s
  | cons e es ih =>
    obtain ⟨-, hes⟩ := List.forall_mem_cons.mp hes
    have hblind := Traced.Stage.blind_ofEntries hes
    exact (foldl_run_cons_agree u s hblind).trans (ih (e.advance u s) hes)

/-- A run in which control flow is measured leaves the control flow of the file. -/
theorem flows_runEnabled (hon : Entry.isEnabled s.settings Passes.controlFlow = true) :
    (s.runEnabled u).artifacts.flows = some (flowIndex u) := by
  have hall : ∀ e ∈ Entry.enabled s.settings, e ∈ Entry.all := fun e he =>
    (Entry.mem_enabled_iff.mp he).1
  have hmem : Passes.controlFlow ∈ Entry.enabled s.settings :=
    Entry.mem_enabled_iff.mpr ⟨by simp [Entry.all], hon⟩
  have hagree := run_agree u s fun e he => Entry.confined_of_mem e (hall e he)
  exact (hagree.artifacts .flows trivial).trans (Entry.flows_foldl_advance hall hmem)

/-- The rules on control flow are offered the control flow of the file, if it is measured. -/
theorem exists_emitted_controlFlowSmells
    (hon : Entry.isEnabled s.settings Passes.controlFlow = true)
    (hrules : Entry.isEnabled s.settings Passes.controlFlowSmells = true) :
    ∃ t : Session, t.Agree (fun _ => False) s ∧ t.artifacts.flows = some (flowIndex u) ∧
      s.emitted u Passes.controlFlowSmells = runRules u t Rules.controlFlow := by
  -- the rule set is the eighth entry, and the pass that measures control flow is in front of it
  let front := (Entry.all.take 7).filter (Entry.isEnabled s.settings)
  let back := (Entry.all.drop 8).filter (Entry.isEnabled s.settings)
  have hsplit : Entry.all.filter (Entry.isEnabled s.settings) =
      front ++ Passes.controlFlowSmells :: back := by
    have hall : Entry.all = Entry.all.take 7 ++ Passes.controlFlowSmells :: Entry.all.drop 8 := rfl
    rw [hall, List.filter_append, List.filter_cons_of_pos hrules]
  have hfront : ∀ d ∈ front, d ∈ Entry.all := fun d hd =>
    List.mem_of_mem_take (List.mem_of_mem_filter hd)
  have hids : (∀ d ∈ Entry.all.take 7, d.id ≠ Passes.controlFlowSmells.id) ∧
      ∀ d ∈ Entry.all.drop 8, d.id ≠ Passes.controlFlowSmells.id := by decide
  refine ⟨front.foldl (Entry.advance u) s, ?_, ?_, ?_⟩
  · exact Entry.agree_foldl_advance u s fun d hd => ⟨hfront d hd, fun _ _ => id⟩
  · refine Entry.flows_foldl_advance hfront (List.mem_filter.mpr ⟨?_, hon⟩)
    simp [Entry.all]
  · rw [emitted_eq_sequential, hsplit, Entry.emissionsOf_sequential_append_cons
      (fun d hd => hids.1 d (List.mem_of_mem_filter hd))
      fun d hd => hids.2 d (List.mem_of_mem_filter hd)]
    rfl

end Session

/-! ### Rules on a threshold -/

/-- A rule finds, under one code, the members whose control flow exceeds a threshold, where their
names are. -/
structure Rule.Exceeding (r : Rule) (code : Code) (exceeds : Settings → MemberFlow → Bool) :
    Prop where
  keeps : ∀ s c, (r.visit s r.start c).1 = r.start
  emits : r.Emits [code]
  /-- The threshold is not among the settings that switch entries on and off. -/
  core : ∀ settings, exceeds settings.core = exceeds settings
  threshold : ∀ settings, FlowIndex.Threshold (exceeds settings)
  locations : ∀ s c, ((r.visit s r.start c).2).map (·.location) =
    if (Rules.memberFlow? s c).any (exceeds s.settings) then [s.locate c.node.nameSpan] else []

namespace Rules

theorem exceeding_highComplexity : highComplexity.Exceeding .highComplexity
    fun settings f => f.complexity > settings.complexityThreshold where
  keeps _ _ := rfl
  emits := emits_highComplexity
  core _ := rfl
  threshold settings := FlowIndex.threshold_complexity settings.complexityThreshold
  locations s c := by
    simp only [highComplexity, Rule.stateless]
    cases memberFlow? s c with
    | none => rfl
    | some f =>
      by_cases hle : f.complexity ≤ s.settings.complexityThreshold
      · simp [hle]
      · simp [hle, Int.not_le.mp hle, location_finding]

theorem exceeding_deepNesting : deepNesting.Exceeding .deepNesting
    fun settings f => f.nesting > settings.nestingThreshold where
  keeps _ _ := rfl
  emits := emits_deepNesting
  core _ := rfl
  threshold settings := FlowIndex.threshold_nesting settings.nestingThreshold
  locations s c := by
    simp only [deepNesting, Rule.stateless]
    cases memberFlow? s c with
    | none => rfl
    | some f =>
      by_cases hle : f.nesting ≤ s.settings.nestingThreshold
      · simp [hle]
      · simp [hle, Int.not_le.mp hle, location_finding]

end Rules

namespace Rule

variable {r : Rule} {code : Code} {exceeds : Settings → MemberFlow → Bool}

/-- What a rule finds in a file, each node looked at by itself. -/
def found (r : Rule) (u : CompilationUnit Node) (s : Session) : List Diagnostic :=
  u.cursors.flatMap fun c => (r.visit s r.start c).2

/-- A rule on a threshold has a finding at each node where the threshold is exceeded. -/
theorem Exceeding.map_location_found (hr : r.Exceeding code exceeds) (u : CompilationUnit Node)
    (s : Session) : (r.found u s).map (·.location) =
      (u.exceeding s (exceeds s.settings)).map fun c => s.locate c.node.nameSpan := by
  rw [found, List.map_flatMap, CompilationUnit.exceeding]
  induction u.cursors with
  | nil => rfl
  | cons c cs ih =>
    rw [List.flatMap_cons, ih, hr.locations, List.filter_cons]
    split
    · rw [List.singleton_append, List.map_cons]
    · rw [List.nil_append]

section Found

variable (hr : r.Exceeding code exceeds) (hs : s.artifacts.flows = some (flowIndex u))
  (hu : Node.Placed 0 s.document.source.length (Node.unit u).children)

include hr hs hu in
/-- There are as many findings as names that exceed the threshold. -/
theorem Exceeding.length_found : (r.found u s).length =
    (FlowIndex.named (exceeds s.settings) (flowIndex u)).length := by
  calc (r.found u s).length = ((r.found u s).map (·.location)).length := (List.length_map _).symm
    _ = (u.exceeding s (exceeds s.settings)).length := by
      rw [hr.map_location_found, List.length_map]
    _ = ((u.exceeding s (exceeds s.settings)).map (·.member)).length := (List.length_map _).symm
    _ = (FlowIndex.named (exceeds s.settings) (flowIndex u)).length :=
      (CompilationUnit.exceeding_perm hs hu).length_eq

include hr hs hu in
/-- No finding says the same as another one, since they stand at different places. -/
theorem Exceeding.pairwise_found : (r.found u s).Pairwise fun a b => a.same b = false := by
  have hplaces : ((r.found u s).map (·.location)).Pairwise (· ≠ ·) := by
    rw [hr.map_location_found, List.pairwise_map]
    refine (CompilationUnit.pairwise_exceeding hs hu).imp fun {c c'} h heq => ?_
    obtain ⟨hlt, hlt', hne⟩ := h
    exact hne (Document.eq_of_locate_eq (Nat.le_of_lt hlt) (Nat.le_of_lt hlt') heq)
  refine (List.pairwise_map.mp hplaces).imp fun {a b} hne => ?_
  rw [Diagnostic.same, beq_eq_false_iff_ne.mpr hne, Bool.and_false, Bool.false_and]

end Found

end Rule

namespace Rules

/-- The findings of either rule on control flow are those of its code. -/
theorem filter_controlFlow (u : CompilationUnit Node) (s : Session) :
    (runRules u s controlFlow).filter (·.code == .highComplexity) = highComplexity.found u s ∧
      (runRules u s controlFlow).filter (·.code == .deepNesting) = deepNesting.found u s := by
  -- Neither rule keeps anything, so the findings can be collected node by node.
  have hrun : runRules u s controlFlow = u.cursors.flatMap fun c =>
      (highComplexity.visit s () c).2 ++ (deepNesting.visit s () c).2 := by
    rw [runRules_eq_flatMap u fun r hr c => ?_]
    · simp [controlFlow]
      rfl
    · simp only [controlFlow, List.mem_cons, List.not_mem_nil, or_false] at hr
      rcases hr with rfl | rfl
      · exact exceeding_highComplexity.keeps s c
      · exact exceeding_deepNesting.keeps s c
  rw [hrun, List.filter_flatMap, List.filter_flatMap]
  constructor
  · refine congrArg u.cursors.flatMap (funext fun c => ?_)
    rw [List.filter_append, (emits_highComplexity s () c).filter_eq_self,
      (emits_deepNesting s () c).filter_eq_nil (by decide), List.append_nil]
    rfl
  · refine congrArg u.cursors.flatMap (funext fun c => ?_)
    rw [List.filter_append, (emits_highComplexity s () c).filter_eq_nil (by decide),
      (emits_deepNesting s () c).filter_eq_self, List.nil_append]
    rfl

end Rules

/-! ### Reports -/

namespace Session

theorem flow_toReport {index : FlowIndex} (h : s.artifacts.flows = some index) :
    s.toReport.flow =
      some (Merge.summarizeFlows s.settings (Merge.flows [{ flows := some index }])) := by
  simp [toReport, mergeResults, FileResult.ofSession, Merge.flows, h]

/-- The summary is that of the entries of the tree; a run leaves the thresholds as they are. -/
theorem flow_toReport_runEnabled (s : Session) (u : CompilationUnit Node)
    (hon : Entry.isEnabled s.settings Passes.controlFlow = true) :
    (s.runEnabled u).toReport.flow =
      some (Merge.summarizeFlows s.settings (Merge.flows [{ flows := some (flowIndex u) }])) := by
  have hcore : (s.runEnabled u).settings.core = s.settings.core :=
    Traced.core_run u s fun e he => (Entry.mem_enabled_iff.mp he).1
  have hsummary (index : FlowIndex) : Merge.summarizeFlows (s.runEnabled u).settings index =
      Merge.summarizeFlows s.settings index := by
    change Merge.summarizeFlows (s.runEnabled u).settings.core index =
      Merge.summarizeFlows s.settings.core index
    rw [hcore]
  rw [flow_toReport (flows_runEnabled hon), hsummary]

/-- The report of a file lists the findings of the session, in order. -/
theorem diagnostics_toReport (s : Session) :
    s.toReport.diagnostics = Diagnostics.sort s.diagnostics := by
  simp [toReport, mergeResults, FileResult.ofSession]

theorem countP_toReport (s : Session) (test : Diagnostic → Bool) :
    s.toReport.diagnostics.countP test = s.diagnostics.countP test := by
  rw [diagnostics_toReport, Diagnostics.sort, (List.mergeSort_perm _ _).countP_eq]

/-- As many members of a file exceed a threshold as there are names that do. -/
theorem length_filter_flows_flowIndex {exceeds : MemberFlow → Bool}
    (hexceeds : FlowIndex.Threshold exceeds) :
    ((Merge.flows [{ flows := some (flowIndex u) }]).filter fun e => exceeds e.2).length =
      (FlowIndex.named exceeds (flowIndex u)).length := by
  have hentries : Merge.flowEntries [{ flows := some (flowIndex u) }] = flowIndex u := by
    simp [Merge.flowEntries]
  have hnodup : (FlowIndex.named exceeds (flowIndex u)).Nodup :=
    CompilationUnit.nodup_flowIndex.sublist (List.filter_sublist.map _)
  rw [Merge.length_filter_flows hexceeds, hentries]
  refine ((List.perm_ext_iff_of_nodup (nodup_eraseDups _) hnodup).mpr fun k => ?_).length_eq
  exact List.mem_eraseDups

end Session

/-- The number of findings of a rule on a threshold is that of the members over the threshold. -/
theorem Rule.Exceeding.countP_toReport {r : Rule} {code : Code}
    {exceeds : Settings → MemberFlow → Bool} (hr : r.Exceeding code exceeds)
    (hcode : code ∈ Passes.controlFlowSmells.codes)
    (hfilter : ∀ t, (runRules u t Rules.controlFlow).filter (·.code == code) = r.found u t)
    (hparse : parse s.document.source = .ok u) (hnew : s.diagnostics = [])
    (hon : Entry.isEnabled s.settings Passes.controlFlow = true)
    (hrules : Entry.isEnabled s.settings Passes.controlFlowSmells = true)
    (hseverity : s.settings.severity? code = none) :
    (s.runEnabled u).toReport.diagnostics.countP (·.code == code) =
      ((Merge.flows [{ flows := some (flowIndex u) }]).filter fun e =>
        exceeds s.settings e.2).length := by
  obtain ⟨t, hagree, hflows, hemitted⟩ := s.exists_emitted_controlFlowSmells (u := u) hon hrules
  have hexceeds : exceeds t.settings = exceeds s.settings := by
    rw [← hr.core, hagree.settings, hr.core]
  have hplaced : Node.Placed 0 t.document.source.length (Node.unit u).children := by
    rw [hagree.document]
    exact placed_of_parse hparse
  have hfound : ((s.emissions u).map (·.2)).filter (·.code == code) = r.found u t := by
    have hmem : Passes.controlFlowSmells ∈ Entry.all := by simp [Entry.all]
    rw [Session.filter_emissions hmem hcode, hemitted, hfilter]
  -- whether or not the findings are put into their final form, none of these is lost
  have hcount : (s.runEnabled u).diagnostics.countP (·.code == code) = (r.found u t).length := by
    rw [Session.diagnostics_runEnabled, hnew, List.nil_append]
    split
    · have hdistinct := hr.pairwise_found hflows hplaced
      rw [← hfound] at hdistinct
      rw [Passes.countP_finalDiagnostics hseverity hdistinct, List.countP_eq_length_filter, hfound]
    · rw [List.countP_eq_length_filter, hfound]
  rw [Session.countP_toReport, hcount, hr.length_found hflows hplaced, hexceeds,
    Session.length_filter_flows_flowIndex (hr.threshold s.settings)]

/-- In the report of a parsed file, whose control flow is measured and looked at by the rules, the
numbers of complex and of deeply nested members are the numbers of findings of the two rules, as
long as the settings say nothing about the severities of these. -/
theorem flow_summary_counts_findings {settings : Settings} {document : Document}
    (assemblies : AssemblyTypes) (hparse : parse document.source = .ok u)
    (hpass : settings.passEnabled "control_flow" = true)
    (hruleset : settings.rulesetEnabled "control_flow_smells" = true)
    (hcomplex : settings.severity? .highComplexity = none)
    (hnesting : settings.severity? .deepNesting = none) :
    ∃ s flow, analyze settings assemblies document = .ok s ∧ s.toReport.flow = some flow ∧
      s.toReport.diagnostics.countP (·.code == .highComplexity) = flow.complex ∧
      s.toReport.diagnostics.countP (·.code == .deepNesting) = flow.deeplyNested := by
  let start : Session := { document, settings, assemblies }
  refine ⟨_, _, analyze_of_parse settings assemblies document hparse,
    start.flow_toReport_runEnabled u hpass, ?_, ?_⟩
  · have hcount := Rules.exceeding_highComplexity.countP_toReport (s := start) (by decide)
      (fun t => (Rules.filter_controlFlow u t).1) hparse rfl hpass hruleset hcomplex
    rw [hcount]
    rfl
  · have hcount := Rules.exceeding_deepNesting.countP_toReport (s := start) (by decide)
      (fun t => (Rules.filter_controlFlow u t).2) hparse rfl hpass hruleset hnesting
    rw [hcount]
    rfl

/-- Two overloads with a branch each, and a property whose accessors have one each. -/
def overloadsText : List UInt8 :=
  ("class C\x7bvoid M()\x7bif(a)b();\x7dvoid M(int x)\x7bif(x)b();\x7d" ++
    "int P\x7bget\x7bif(a)b();\x7dset\x7bif(a)b();\x7d\x7d\x7d").toList.map Lexer.ascii

/-- Settings under which each of its members is too complex and nested too deeply. -/
def strictSettings : Settings := { complexityThreshold := 1, nestingThreshold := 0 }

/-- Of two overloads and two accessors with a branch each, the report counts the two members, and
each rule finds them once. -/
theorem overloads_counted_once : ∃ s flow,
    analyze strictSettings (fun _ => none) ⟨"C.cs", overloadsText⟩ = .ok s ∧
      s.toReport.flow = some flow ∧ flow = ⟨2, 2, 2⟩ ∧
      s.toReport.diagnostics.countP (·.code == .highComplexity) = flow.complex ∧
      s.toReport.diagnostics.countP (·.code == .deepNesting) = flow.deeplyNested := by
  have hsummary : (parse overloadsText).toOption.map (fun u =>
      Merge.summarizeFlows strictSettings (Merge.flows [{ flows := some (flowIndex u) }])) =
        some ⟨2, 2, 2⟩ := by
    rw [show overloadsText = _ from Lexer.ascii_ofList_append _ _]
    decide +kernel
  obtain ⟨u, hparse, hsummary⟩ := exists_parse_of_map hsummary
  let start : Session :=
    { document := ⟨"C.cs", overloadsText⟩, settings := strictSettings, assemblies := fun _ => none }
  have hparse : parse start.document.source = .ok u := hparse
  have hpass : start.settings.passEnabled "control_flow" = true := rfl
  obtain ⟨s, flow, hanalyze, hflow, hcomplex, hnesting⟩ :=
    flow_summary_counts_findings start.assemblies hparse hpass rfl rfl rfl
  refine ⟨s, flow, hanalyze, hflow, ?_, hcomplex, hnesting⟩
  obtain rfl := Except.ok.inj (hanalyze.symm.trans (analyze_of_parse _ _ _ hparse))
  rw [start.flow_toReport_runEnabled u hpass] at hflow
  exact (Option.some.inj hflow).symm.trans hsummary

end CSharpAudit
