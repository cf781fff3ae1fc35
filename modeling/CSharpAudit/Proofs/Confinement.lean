import CSharpAudit.Pipeline.Registry

/-!
# What passes and rule sets look at

An entry of the pipeline declares which artifacts it reads and which it writes. Each registered
entry keeps to its declaration: what it finds and what it writes is fixed by the document, by the
settings other than those that switch entries on and off, and by the artifacts that it declares; and
it changes no artifact that it does not declare to write. It looks at no findings of others, except
for the pass that puts all findings into their final form and has none of its own.

## Main definitions

* `Session.restrict` — a session with some artifacts only
* `Session.Agree` — sessions that look the same to whoever looks at some artifacts only
* `Entry.findings`, `Entry.advance` — what an entry finds by itself, and the session behind it
* `Entry.Confined` — an entry keeps to what it declares

## Main results

* `Entry.confined_of_mem` — every registered entry is confined
* `Entry.Confined.advance_agree` — sessions that agree on enough go on to agree
-/

namespace CSharpAudit

/-- The results of a kind. -/
def ArtifactKind.Result : ArtifactKind → Type
  | .metrics => Metrics
  | .symbols => SymbolIndex
  | .external => ExternalSymbols
  | .flows => FlowIndex
  | .dependencies => DependencyGraph
  | .scopes => LocalScopes
  | .bindings => BindingIndex

namespace Artifacts

/-- The result of a kind. -/
def get? (a : Artifacts) : (k : ArtifactKind) → Option k.Result
  | .metrics => a.metrics
  | .symbols => a.symbols
  | .external => a.external
  | .flows => a.flows
  | .dependencies => a.dependencies
  | .scopes => a.scopes
  | .bindings => a.bindings

/-- The results of some kinds. -/
def restrict (kinds : List ArtifactKind) (a : Artifacts) : Artifacts where
  metrics := only .metrics
  symbols := only .symbols
  external := only .external
  flows := only .flows
  dependencies := only .dependencies
  scopes := only .scopes
  bindings := only .bindings
where
  only (k : ArtifactKind) : Option k.Result := bif kinds.contains k then a.get? k else none

/-- What is not kept does not matter. -/
theorem restrict_congr {kinds : List ArtifactKind} {a b : Artifacts}
    (h : ∀ k ∈ kinds, a.get? k = b.get? k) : a.restrict kinds = b.restrict kinds := by
  have honly (k : ArtifactKind) : restrict.only kinds a k = restrict.only kinds b k := by
    unfold restrict.only
    cases hk : kinds.contains k with
    | false => rfl
    | true => exact h k (List.contains_iff_mem.mp hk)
  simp only [restrict, honly]

end Artifacts

/-- The settings without those that switch passes and rule sets on and off. -/
def Settings.core (s : Settings) : Settings := { s with passes := {}, rulesets := {} }

namespace Session

/-- A session with the results of some kinds only, and without findings. -/
def restrict (kinds : List ArtifactKind) (s : Session) : Session :=
  { s with settings := s.settings.core, artifacts := s.artifacts.restrict kinds, diagnostics := [] }

/-- Sessions that look the same to whoever looks at some artifacts only. What they have found so far
and which entries they leave on may differ. -/
structure Agree (K : ArtifactKind → Prop) (s t : Session) : Prop where
  document : s.document = t.document
  assemblies : s.assemblies = t.assemblies
  settings : s.settings.core = t.settings.core
  artifacts : ∀ k, K k → s.artifacts.get? k = t.artifacts.get? k

namespace Agree

variable {K K' : ArtifactKind → Prop} {s t r : Session}

theorem refl (s : Session) : Agree K s s := ⟨rfl, rfl, rfl, fun _ _ => rfl⟩

theorem symm (h : Agree K s t) : Agree K t s :=
  ⟨h.document.symm, h.assemblies.symm, h.settings.symm, fun k hk => (h.artifacts k hk).symm⟩

theorem trans (h : Agree K s t) (h' : Agree K t r) : Agree K s r :=
  ⟨h.document.trans h'.document, h.assemblies.trans h'.assemblies, h.settings.trans h'.settings,
    fun k hk => (h.artifacts k hk).trans (h'.artifacts k hk)⟩

theorem mono (h : Agree K s t) (hK : ∀ k, K' k → K k) : Agree K' s t :=
  ⟨h.document, h.assemblies, h.settings, fun k hk => h.artifacts k (hK k hk)⟩

/-- Sessions that agree on some kinds are the same once they hold no others. -/
theorem restrict_eq {kinds : List ArtifactKind} (h : Agree (· ∈ kinds) s t) :
    s.restrict kinds = t.restrict kinds := by
  simp only [restrict, h.document, h.assemblies, h.settings,
    Artifacts.restrict_congr h.artifacts]

/-- Reporting changes no results. -/
theorem report (s : Session) (ds : List Diagnostic) : Agree K (s.report ds) s :=
  ⟨rfl, rfl, rfl, fun _ _ => rfl⟩

end Agree

end Session

/-! ### Walks -/

namespace RunningRule

variable {s t : Session} {rs : List RunningRule}

/-- Rules that see the same find the same. -/
theorem stepAll_congr (c : Cursor) (h : ∀ r ∈ rs, r.rule.visit s = r.rule.visit t) :
    stepAll s rs c = stepAll t rs c := by
  have hresults : rs.map (step s c) = rs.map (step t c) :=
    List.map_congr_left fun r hr => by rw [step, step, h r hr]
  rw [stepAll, stepAll, hresults]

/-- A step of a walk changes the states of rules, not the rules. -/
theorem map_rule_stepAll (c : Cursor) : (stepAll s rs c).1.map (·.rule) = rs.map (·.rule) := by
  simp only [stepAll, List.map_map]
  rfl

/-- Rules that do the same in two sessions find the same on a walk. -/
theorem walk_congr (cs : List Cursor) (h : ∀ r ∈ rs.map (·.rule), r.visit s = r.visit t) :
    walk s rs cs = walk t rs cs := by
  induction cs generalizing rs with
  | nil => rfl
  | cons c cs ih =>
    have hstep := stepAll_congr c (List.forall_mem_map.mp h)
    simp only [walk, hstep]
    rw [ih]
    rwa [map_rule_stepAll]

end RunningRule

/-- Rules that do the same in two sessions find the same. -/
theorem runRules_congr {s t : Session} {rules : List Rule} (u : CompilationUnit Node)
    (h : ∀ r ∈ rules, r.visit s = r.visit t) : runRules u s rules = runRules u t rules := by
  refine RunningRule.walk_congr _ ?_
  rw [List.map_map]
  simpa [RunningRule.ofRule] using h

/-! ### Entries -/

namespace Entry

/-- The rules of a rule set. -/
def rules (e : Entry) : List Rule :=
  match e.work with
  | .pass _ => []
  | .rules _ rules => rules

/-- What an entry adds to the findings of a session. -/
def findings (u : CompilationUnit Node) (s : Session) (e : Entry) : List Diagnostic :=
  match e.work with
  | .pass run => (run u s).diagnostics.drop s.diagnostics.length
  | .rules _ rules => runRules u s rules

/-- The session behind an entry that runs by itself. -/
def advance (u : CompilationUnit Node) (s : Session) (e : Entry) : Session :=
  match e.work with
  | .pass run => run u s
  | .rules _ rules => s.report (runRules u s rules)

/-- An entry keeps to what it declares: it looks at no artifacts but those that it reads, and at no
findings; what it writes is fixed by these and by what was there before; and it leaves all else as
it is. Each of the rules of a rule set keeps to it by itself. -/
structure Confined (e : Entry) : Prop where
  findings_restrict : ∀ u s, e.findings u (s.restrict e.reads) = e.findings u s
  rules_restrict : ∀ r ∈ e.rules, ∀ s, r.visit (s.restrict e.reads) = r.visit s
  writes_restrict : ∀ u s, ∀ k ∈ e.writes,
    (e.advance u (s.restrict (e.reads ++ e.writes))).artifacts.get? k =
      (e.advance u s).artifacts.get? k
  frame : ∀ u s, (e.advance u s).Agree (· ∉ e.writes) s

namespace Confined

variable {e : Entry} {K : ArtifactKind → Prop} {s t : Session}

/-- Sessions that agree on what an entry reads get the same findings from it. -/
theorem findings_eq (he : e.Confined) (u : CompilationUnit Node)
    (h : Session.Agree (· ∈ e.reads) s t) : e.findings u s = e.findings u t := by
  rw [← he.findings_restrict u s, h.restrict_eq, he.findings_restrict]

/-- Sessions that agree on all that an entry reads and writes still agree behind it. -/
theorem advance_agree (he : e.Confined) (u : CompilationUnit Node) (h : Session.Agree K s t)
    (hreads : ∀ k ∈ e.reads, K k) (hwrites : ∀ k ∈ e.writes, K k) :
    (e.advance u s).Agree K (e.advance u t) where
  document := (he.frame u s).document.trans (h.document.trans (he.frame u t).document.symm)
  assemblies :=
    (he.frame u s).assemblies.trans (h.assemblies.trans (he.frame u t).assemblies.symm)
  settings := (he.frame u s).settings.trans (h.settings.trans (he.frame u t).settings.symm)
  artifacts k hk := by
    by_cases hwritten : k ∈ e.writes
    · have hagree : Session.Agree (· ∈ e.reads ++ e.writes) s t := h.mono fun k hk =>
        (List.mem_append.mp hk).elim (hreads k) (hwrites k)
      rw [← he.writes_restrict u s k hwritten, hagree.restrict_eq,
        he.writes_restrict u t k hwritten]
    · rw [(he.frame u s).artifacts k hwritten, h.artifacts k hk,
        (he.frame u t).artifacts k hwritten]

/-- An entry that writes nothing of some kinds leaves sessions that agree on these in agreement. -/
theorem advance_agree_left (he : e.Confined) (u : CompilationUnit Node) (h : Session.Agree K s t)
    (hwrites : ∀ k ∈ e.writes, ¬ K k) : (e.advance u s).Agree K t :=
  ((he.frame u s).mono fun k hk hwritten => hwrites k hwritten hk).trans h

end Confined

/-! ### Confined entries -/

variable {e : Entry}

/-- A pass that reports what it finds in the artifacts it reads is confined. -/
theorem confined_of_report {run : CompilationUnit Node → Session → Session}
    (found : CompilationUnit Node → Session → List Diagnostic) (hwork : e.work = .pass run)
    (hrun : ∀ u s, run u s = s.report (found u s)) (hwrites : e.writes = [])
    (hfound : ∀ u s, found u (s.restrict e.reads) = found u s) : e.Confined where
  findings_restrict u s := by
    simp only [findings, hwork, hrun, Session.report, List.drop_left, hfound]
  rules_restrict r hr := by simp [rules, hwork] at hr
  writes_restrict u s k hk := by simp [hwrites] at hk
  frame u s := by
    simp only [advance, hwork, hrun]
    exact .report s _

/-- A rule set is confined if its rules look at no artifacts but those it reads. -/
theorem confined_of_rules {v : Variant} {rules : List Rule} (hwork : e.work = .rules v rules)
    (hwrites : e.writes = [])
    (hrules : ∀ r ∈ rules, ∀ s, r.visit (s.restrict e.reads) = r.visit s) : e.Confined where
  findings_restrict u s := by
    simp only [findings, hwork]
    exact runRules_congr u fun r hr => hrules r hr s
  rules_restrict := by simpa only [Entry.rules, hwork] using hrules
  writes_restrict u s k hk := by simp [hwrites] at hk
  frame u s := by
    simp only [advance, hwork]
    exact .report s _

/-- No findings are added when they are put into their final form. -/
theorem length_finalDiagnostics_le (settings : Settings) (ds : List Diagnostic) :
    (Passes.finalDiagnostics settings ds).length ≤ ds.length := by
  have hdedup (ds kept : List Diagnostic) : (ds.foldl (fun kept d =>
      if kept.any (·.same d) then kept else kept ++ [d]) kept).length ≤ kept.length + ds.length := by
    induction ds generalizing kept with
    | nil => exact Nat.le_refl _
    | cons d ds ih =>
      rw [List.foldl_cons, List.length_cons]
      refine Nat.le_trans (ih _) ?_
      split
      · omega
      · rw [List.length_append, List.length_singleton]
        omega
  rw [Passes.finalDiagnostics, Diagnostics.sort, List.length_mergeSort]
  refine Nat.le_trans (hdedup _ []) ?_
  rw [List.length_nil, Nat.zero_add]
  exact List.length_filterMap_le _ ds

theorem confined_reporting : Passes.reporting.Confined where
  findings_restrict u s := by
    -- it looks at all findings, but what it makes of them are no findings of its own
    have hnone (s : Session) : Passes.reporting.findings u s = [] :=
      List.drop_eq_nil_of_le (length_finalDiagnostics_le s.settings s.diagnostics)
    rw [hnone, hnone]
  rules_restrict r hr := absurd hr List.not_mem_nil
  writes_restrict u s k hk := absurd hk List.not_mem_nil
  frame u s := ⟨rfl, rfl, rfl, fun _ _ => rfl⟩

/-- A pass that stores one result is confined if the result is fixed by what it reads. -/
theorem confined_of_store {run : CompilationUnit Node → Session → Session} {k : ArtifactKind}
    (hwork : e.work = .pass run) (hwrites : e.writes = [k])
    (hdiagnostics : ∀ u s, (run u s).diagnostics = s.diagnostics)
    (hstored : ∀ u s, (run u (s.restrict (e.reads ++ [k]))).artifacts.get? k =
      (run u s).artifacts.get? k)
    (hframe : ∀ u s, (run u s).Agree (· ≠ k) s) : e.Confined where
  findings_restrict u s := by
    simp only [findings, hwork, hdiagnostics, List.drop_length]
  rules_restrict r hr := by simp [rules, hwork] at hr
  writes_restrict u s k' hk := by
    rw [hwrites, List.mem_singleton] at hk
    subst hk
    simp only [advance, hwork, hwrites]
    exact hstored u s
  frame u s := by
    simp only [advance, hwork, hwrites, List.mem_singleton]
    exact hframe u s

theorem confined_dependencies : Passes.dependencies.Confined := by
  -- whether it stores a result depends on the symbols, which it declares to read
  refine confined_of_store rfl rfl (fun u s => ?_) (fun u s => ?_) (fun u s => ?_)
  all_goals
    obtain ⟨document, settings, assemblies, artifacts, diagnostics⟩ := s
    obtain ⟨metrics, symbols, external, flows, dependencies, scopes, bindings⟩ := artifacts
    cases symbols
  case refine_3.none => exact .refl _
  case refine_3.some =>
    exact ⟨rfl, rfl, rfl, fun k hk => by cases k <;> first | rfl | exact absurd rfl hk⟩
  all_goals rfl

theorem confined_nullability : Passes.nullability.Confined := by
  refine confined_of_report (fun u s => if u.nullableEnabled then runRules u s [Rules.nullAssignment]
    else []) rfl (fun u s => ?_) rfl (fun u s => ?_)
  · cases u.nullableEnabled with
    | false => exact congrArg (Session.mk _ _ _ _) (List.append_nil _).symm
    | true => rfl
  · refine ite_congr rfl (fun _ => runRules_congr u fun r hr => ?_) fun _ => rfl
    rw [List.mem_singleton.mp hr]
    rfl

/-- The flow entry looks at what it reads, and nothing else. -/
theorem confined_flow : Passes.flow.Confined := by
  refine confined_of_report _ rfl (fun u s => rfl) rfl fun u s => ?_
  have hrules : runRules u (s.restrict Passes.flow.reads) Passes.flowRules =
      runRules u s Passes.flowRules := runRules_congr u fun r hr => by
    simp only [Passes.flowRules, List.mem_cons, List.not_mem_nil, or_false] at hr
    rcases hr with rfl | rfl | rfl | rfl | rfl | rfl | rfl <;> rfl
  rw [hrules]
  rfl

theorem confined_naming : Passes.naming.Confined := by
  refine confined_of_rules rfl rfl fun r hr s => ?_
  simp only [Rules.naming, List.mem_cons, List.not_mem_nil, or_false] at hr
  rcases hr with rfl | rfl | rfl <;> rfl

theorem confined_declarations : Passes.declarations.Confined := by
  refine confined_of_rules rfl rfl fun r hr s => ?_
  simp only [Rules.declaration, List.mem_cons, List.not_mem_nil, or_false] at hr
  rcases hr with rfl | rfl | rfl | rfl | rfl <;> rfl

theorem confined_controlFlowSmells : Passes.controlFlowSmells.Confined := by
  refine confined_of_rules rfl rfl fun r hr s => ?_
  simp only [Rules.controlFlow, List.mem_cons, List.not_mem_nil, or_false] at hr
  rcases hr with rfl | rfl <;> rfl

open Passes in
/-- Entries that only store look at what they read. -/
theorem confined_of_mem_storing {e : Entry}
    (he : e ∈ [indexing, assemblyLoading, metrics, controlFlow, symbols, binding]) :
    e.Confined := by
  simp only [List.mem_cons, List.not_mem_nil, or_false] at he
  rcases he with rfl | rfl | rfl | rfl | rfl | rfl
  -- what they store mentions nothing else of the session, so restricting it changes nothing
  all_goals
    refine confined_of_store rfl rfl (fun u s => rfl) (fun u s => rfl) fun u s => ?_
    exact ⟨rfl, rfl, rfl, fun k hk => by cases k <;> first | rfl | exact absurd rfl hk⟩

open Passes in
/-- Entries that only report look at what they read. -/
theorem confined_of_mem_reporting {e : Entry}
    (he : e ∈ [types, overload, generics, attributes, access, extensions]) : e.Confined := by
  simp only [List.mem_cons, List.not_mem_nil, or_false] at he
  rcases he with rfl | rfl | rfl | rfl | rfl | rfl
  all_goals exact confined_of_report _ rfl (fun u s => rfl) rfl fun u s => rfl

/-- Every registered entry keeps to what it declares. -/
theorem confined_of_mem : ∀ e ∈ Entry.all, e.Confined := by
  simp only [Entry.all, List.forall_mem_cons]
  exact ⟨confined_of_mem_storing (by simp), confined_of_mem_storing (by simp),
    confined_of_mem_storing (by simp), confined_naming, confined_declarations,
    confined_of_mem_storing (by simp), confined_dependencies, confined_controlFlowSmells,
    confined_of_mem_storing (by simp), confined_of_mem_storing (by simp),
    confined_of_mem_reporting (by simp), confined_of_mem_reporting (by simp),
    confined_of_mem_reporting (by simp), confined_flow, confined_nullability,
    confined_of_mem_reporting (by simp), confined_of_mem_reporting (by simp),
    confined_of_mem_reporting (by simp), confined_reporting,
    fun _ h => absurd h List.not_mem_nil⟩

/-- All registered entries but the last one add to the findings. -/
theorem prefix_advance (u : CompilationUnit Node) (s : Session) (he : e ∈ Entry.all)
    (hne : e ≠ Passes.reporting) : s.diagnostics <+: (e.advance u s).diagnostics := by
  simp only [Entry.all, List.mem_cons, List.not_mem_nil, or_false] at he
  rcases he with rfl | rfl | rfl | rfl | rfl | rfl | rfl | rfl | rfl | rfl | rfl | rfl | rfl | rfl |
    rfl | rfl | rfl | rfl | rfl
  all_goals first | exact List.prefix_append _ _ | exact List.prefix_refl _ | skip
  · -- without symbols there are no dependencies
    simp only [advance, Passes.dependencies]
    split <;> exact List.prefix_refl _
  · -- null values are of interest only where nullable types are distinguished
    simp only [advance, Passes.nullability]
    split
    · exact List.prefix_append _ _
    · exact List.prefix_refl _
  · exact absurd rfl hne

/-- An entry appends what it finds. -/
theorem diagnostics_advance (u : CompilationUnit Node) (s : Session) (he : e ∈ Entry.all)
    (hne : e ≠ Passes.reporting) :
    (e.advance u s).diagnostics = s.diagnostics ++ e.findings u s := by
  cases hwork : e.work with
  | rules v rules => simp only [advance, findings, hwork, Session.report]
  | pass run =>
    obtain ⟨found, hfound⟩ := prefix_advance u s he hne
    simp only [advance, findings, hwork] at hfound ⊢
    rw [← hfound, List.drop_left]

end Entry

end CSharpAudit
