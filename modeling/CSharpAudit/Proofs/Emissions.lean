import CSharpAudit.Proofs.Confinement
import Mathlib.Data.List.Nodup

/-!
# Who finds what

The findings of a run lie in one list. To say which entry has found what, the run is traced: the
rules of a shared walk keep the name of their rule set, and each finding gets the name of the entry
that emits it. A trace without the names is what the run adds to its findings.

Sharing a walk interleaves the findings of rule sets and changes nothing else: each entry emits what
it would emit in a run of one entry after the other.

## Main definitions

* `Traced.Stage`, `Traced.emissions` — a run with the names of entries
* `emissionsOf` — what an entry emits
* `sequential` — a run of one entry after the other

## Main results

* `Traced.Stage.map_erase_ofEntries`, `Traced.diagnostics_run` — a trace is one of the run
* `Traced.emissionsOf_ofEntries` — shared walks do not matter to an entry
-/

namespace CSharpAudit

/-- A finding with the name of the entry that emits it. -/
abbrev Emission := String × Diagnostic

/-- What an entry emits. -/
def emissionsOf (id : String) (es : List Emission) : List Diagnostic :=
  (es.filter (·.1 == id)).map (·.2)

section EmissionsOf

variable {id id' : String} {es es' : List Emission} {ds : List Diagnostic}

theorem emissionsOf_append :
    emissionsOf id (es ++ es') = emissionsOf id es ++ emissionsOf id es' := by
  rw [emissionsOf, List.filter_append, List.map_append]
  rfl

theorem emissionsOf_tagged :
    emissionsOf id (ds.map (id', ·)) = if id' = id then ds else [] := by
  rw [emissionsOf, List.filter_map, List.map_map]
  split
  · rename_i h
    subst h
    simp [Function.comp_def]
  · rename_i h
    simp [Function.comp_def, h]

end EmissionsOf

namespace Traced

/-! ### Traced walks -/

/-- A rule in the middle of a walk, with the name of its rule set. -/
abbrev TracedRule := String × RunningRule

/-- Offers a node to every rule, in order. -/
def stepAll (s : Session) (rs : List TracedRule) (c : Cursor) : List TracedRule × List Emission :=
  let results := rs.map fun r => (r.1, r.2.step s c)
  (results.map fun r => (r.1, r.2.1), results.flatMap fun r => r.2.2.map (r.1, ·))

/-- Offers nodes to the rules, one by one. -/
def walk (s : Session) : List TracedRule → List Cursor → List Emission
  | _, [] => []
  | rs, c :: cs =>
    let (rs, found) := stepAll s rs c
    found ++ walk s rs cs

variable {s t : Session} {rs : List TracedRule}

theorem map_snd_stepAll (s : Session) (rs : List TracedRule) (c : Cursor) :
    ((stepAll s rs c).1.map (·.2), (stepAll s rs c).2.map (·.2)) =
      RunningRule.stepAll s (rs.map (·.2)) c := by
  simp [stepAll, RunningRule.stepAll, List.map_flatMap, List.flatMap_map, Function.comp_def]

/-- A traced walk without the names is a walk. -/
theorem map_snd_walk (cs : List Cursor) :
    (walk s rs cs).map (·.2) = RunningRule.walk s (rs.map (·.2)) cs := by
  induction cs generalizing rs with
  | nil => rfl
  | cons c cs ih =>
    have hstep := Prod.mk.inj (map_snd_stepAll s rs c)
    simp only [walk, RunningRule.walk, List.map_append, ih, hstep.1, hstep.2]
    rfl

theorem filter_stepAll (s : Session) (rs : List TracedRule) (id : String) (c : Cursor) :
    ((stepAll s rs c).1.filter (·.1 == id), (stepAll s rs c).2.filter (·.1 == id)) =
      stepAll s (rs.filter (·.1 == id)) c := by
  refine Prod.ext ?_ ?_
  · simp only [stepAll, List.filter_map, Function.comp_def]
  · simp only [stepAll, List.flatMap_map]
    induction rs with
    | nil => rfl
    | cons r rs ih =>
      rw [List.flatMap_cons, List.filter_append, ih, List.filter_map, List.filter_cons]
      cases hr : r.1 == id <;> simp [Function.comp_def, hr, List.filter_true]

/-- The rules of an entry find on a shared walk what they find on their own. -/
theorem filter_walk (id : String) (cs : List Cursor) :
    (walk s rs cs).filter (·.1 == id) = walk s (rs.filter (·.1 == id)) cs := by
  induction cs generalizing rs with
  | nil => rfl
  | cons c cs ih =>
    have hstep := Prod.mk.inj (filter_stepAll s rs id c)
    simp only [walk, List.filter_append, ih, hstep.1, hstep.2]
    rfl

theorem emissionsOf_walk (id : String) (cs : List Cursor) :
    emissionsOf id (walk s rs cs) =
      RunningRule.walk s ((rs.filter (·.1 == id)).map (·.2)) cs := by
  rw [emissionsOf, filter_walk, map_snd_walk]

theorem walk_congr (cs : List Cursor) (h : ∀ r ∈ rs, r.2.rule.visit s = r.2.rule.visit t) :
    walk s rs cs = walk t rs cs := by
  induction cs generalizing rs with
  | nil => rfl
  | cons c cs ih =>
    have hresults : rs.map (fun r => (r.1, r.2.step s c)) = rs.map fun r => (r.1, r.2.step t c) :=
      List.map_congr_left fun r hr => by rw [RunningRule.step, RunningRule.step, h r hr]
    have hstep : stepAll s rs c = stepAll t rs c := by rw [stepAll, stepAll, hresults]
    have hrules : ∀ r ∈ (stepAll t rs c).1, r.2.rule.visit s = r.2.rule.visit t := by
      intro r hr
      simp only [stepAll, List.map_map] at hr
      obtain ⟨r', hr', rfl⟩ := List.mem_map.mp hr
      exact h r' hr'
    simp only [walk, hstep, ih hrules]

/-- Rules without the name of their rule set. -/
theorem map_snd_tagged {id : String} {rules : List Rule} :
    (rules.map (id, ·)).map (·.2) = rules := by
  rw [List.map_map]
  exact List.map_id rules

/-- The rules of an entry bear its name. -/
theorem eq_of_mem_tagged {id id' : String} {rules : List Rule}
    (h : id ∈ (rules.map (id', ·)).map (·.1)) : id = id' := by
  obtain ⟨r, hr, rfl⟩ := List.mem_map.mp h
  obtain ⟨r', -, rfl⟩ := List.mem_map.mp hr
  rfl

/-- Where no rule looks, nothing is found. -/
theorem walk_nil (s : Session) (cs : List Cursor) : RunningRule.walk s [] cs = [] := by
  induction cs with
  | nil => rfl
  | cons c cs ih => exact ih

/-- Rules before the walk. -/
def start (rules : List (String × Rule)) : List TracedRule := rules.map fun r => (r.1, .ofRule r.2)

/-- The rules of two entries do not disturb each other on a shared walk. -/
theorem emissionsOf_walk_append {rules rules' : List (String × Rule)} (id : String)
    (cs : List Cursor) (h : id ∉ rules.map (·.1) ∨ id ∉ rules'.map (·.1)) :
    emissionsOf id (walk s (start (rules ++ rules')) cs) =
      emissionsOf id (walk s (start rules) cs) ++ emissionsOf id (walk s (start rules') cs) := by
  have hnone {rules : List (String × Rule)} (h : id ∉ rules.map (·.1)) :
      (start rules).filter (·.1 == id) = [] := by
    refine List.filter_eq_nil_iff.mpr fun r hr => ?_
    obtain ⟨r', hr', rfl⟩ := List.mem_map.mp hr
    exact fun heq => h (List.mem_map.mpr ⟨r', hr', eq_of_beq heq⟩)
  have happend : start (rules ++ rules') = start rules ++ start rules' := List.map_append
  simp only [emissionsOf_walk, happend, List.filter_append, List.map_append]
  -- one of the two walks is left with no rules
  rcases h with h | h
  · simp only [hnone h, List.map_nil, walk_nil, List.nil_append]
  · simp only [hnone h, List.map_nil, walk_nil, List.append_nil]

/-- The rules of one entry emit what they find. -/
theorem emissionsOf_walk_tagged (u : CompilationUnit Node) (id' : String) (rules : List Rule)
    (id : String) : emissionsOf id (walk s (start (rules.map (id', ·))) u.cursors) =
      emissionsOf id ((runRules u s rules).map (id', ·)) := by
  rw [emissionsOf_walk, emissionsOf_tagged, start, List.map_map, List.filter_map, List.map_map]
  split
  · rename_i h
    simp [h, Function.comp_def, runRules]
  · rename_i h
    have hne : (id' == id) = false := beq_eq_false_iff_ne.mpr h
    simp [hne, Function.comp_def, walk_nil]

/-! ### Traced stages -/

/-- A stage that knows whose passes and rules it runs. -/
inductive Stage where
  | pass (id : String) (run : CompilationUnit Node → Session → Session)
  | walk (variant : Variant) (rules : List (String × Rule))

namespace Stage

/-- A stage without the names. -/
def erase : Stage → CSharpAudit.Stage
  | pass _ run => .pass run
  | walk v rules => .walk v (rules.map (·.2))

/-- Puts an entry in front of stages; rules join the walk of their variant that comes next. -/
def cons (e : Entry) (stages : List Stage) : List Stage :=
  match e.work, stages with
  | .pass run, _ => .pass e.id run :: stages
  | .rules v rules, .walk w next :: rest =>
    if v = w then .walk v (rules.map (e.id, ·) ++ next) :: rest
    else .walk v (rules.map (e.id, ·)) :: stages
  | .rules v rules, _ => .walk v (rules.map (e.id, ·)) :: stages

/-- The stages of some entries. -/
def ofEntries (es : List Entry) : List Stage := es.foldr cons []

/-- What a stage adds to the findings of a session. -/
def emit (u : CompilationUnit Node) (s : Session) : Stage → List Emission
  | pass id run => ((run u s).diagnostics.drop s.diagnostics.length).map (id, ·)
  | walk _ rules => Traced.walk s (start rules) u.cursors

/-- An entry makes a stage of its own, or its rules join the walk that comes next. -/
theorem cons_cases (e : Entry) (stages : List Stage) :
    (∃ run, e.work = .pass run ∧ cons e stages = .pass e.id run :: stages) ∨
    (∃ v rules, e.work = .rules v rules ∧
      cons e stages = .walk v (rules.map (e.id, ·)) :: stages) ∨
    ∃ v rules next rest, e.work = .rules v rules ∧ stages = .walk v next :: rest ∧
      cons e stages = .walk v (rules.map (e.id, ·) ++ next) :: rest := by
  unfold cons
  cases e.work with
  | pass run => exact .inl ⟨run, rfl, rfl⟩
  | rules v rules =>
    refine .inr ?_
    cases stages with
    | nil => exact .inl ⟨v, rules, rfl, rfl⟩
    | cons g stages =>
      cases g with
      | pass id run => exact .inl ⟨v, rules, rfl, rfl⟩
      | walk w next =>
        by_cases hvw : v = w
        · subst hvw
          exact .inr ⟨v, rules, next, stages, rfl, rfl, if_pos rfl⟩
        · exact .inl ⟨v, rules, rfl, if_neg hvw⟩

theorem map_erase_cons (e : Entry) (stages : List Stage) :
    (cons e stages).map erase = CSharpAudit.Stage.cons e (stages.map erase) := by
  unfold cons CSharpAudit.Stage.cons
  cases e.work with
  | pass run => rfl
  | rules v rules =>
    cases stages with
    | nil => simp only [List.map_cons, List.map_nil, erase, map_snd_tagged]
    | cons g stages =>
      cases g with
      | pass id run => simp only [List.map_cons, erase, map_snd_tagged]
      | walk w next =>
        by_cases hvw : v = w
        · simp only [if_pos hvw, List.map_cons, erase, List.map_append, map_snd_tagged]
        · simp only [if_neg hvw, List.map_cons, erase, map_snd_tagged]

/-- Traced stages without the names are the stages of a run. -/
theorem map_erase_ofEntries (es : List Entry) :
    (ofEntries es).map erase = CSharpAudit.Stage.ofEntries es := by
  induction es with
  | nil => rfl
  | cons e es ih => exact (map_erase_cons e _).trans (congrArg _ ih)

end Stage

/-! ### What stages look at -/

namespace Stage

/-- A stage looks at no findings: it does the same in sessions that agree on all artifacts. -/
def Blind : Stage → Prop
  | pass _ run => ∀ u s t, Session.Agree (fun _ => True) s t →
      (run u s).diagnostics.drop s.diagnostics.length =
        (run u t).diagnostics.drop t.diagnostics.length ∧
      Session.Agree (fun _ => True) (run u s) (run u t)
  | walk _ rules => ∀ r ∈ rules, ∀ s t, Session.Agree (fun _ => True) s t →
      r.2.visit s = r.2.visit t

/-- The names of the entries that a stage runs. -/
def ids : Stage → List String
  | pass id _ => [id]
  | walk _ rules => rules.map (·.1)

variable {g : Stage} {stages : List Stage} {e : Entry} {es : List Entry}

theorem Blind.emit_eq (hg : g.Blind) (u : CompilationUnit Node)
    (h : Session.Agree (fun _ => True) s t) : g.emit u s = g.emit u t := by
  cases g with
  | pass id run => exact congrArg (List.map (id, ·)) (hg u s t h).1
  | walk v rules =>
    refine walk_congr _ fun r hr => ?_
    obtain ⟨r', hr', rfl⟩ := List.mem_map.mp hr
    exact hg r' hr' s t h

theorem Blind.run_agree (hg : g.Blind) (u : CompilationUnit Node)
    (h : Session.Agree (fun _ => True) s t) :
    Session.Agree (fun _ => True) (g.erase.run u s) (g.erase.run u t) := by
  cases g with
  | pass id run => exact (hg u s t h).2
  | walk v rules => exact ((Session.Agree.report s _).trans h).trans (Session.Agree.report t _).symm

theorem blind_cons (he : e.Confined) (h : ∀ g ∈ stages, g.Blind) :
    ∀ g ∈ cons e stages, g.Blind := by
  have hrules {v : Variant} {rules : List Rule} (hwork : e.work = .rules v rules) :
      ∀ r ∈ rules.map (e.id, ·), ∀ s t, Session.Agree (fun _ => True) s t →
        r.2.visit s = r.2.visit t := by
    refine List.forall_mem_map.mpr fun r hr s t hst => ?_
    have hr : r ∈ e.rules := by rwa [Entry.rules, hwork]
    have hread : Session.Agree (· ∈ e.reads) s t := hst.mono fun _ _ => trivial
    rw [← he.rules_restrict r hr s, hread.restrict_eq, he.rules_restrict r hr]
  rcases cons_cases e stages with
    ⟨run, hwork, hcons⟩ | ⟨v, rules, hwork, hcons⟩ | ⟨v, rules, next, rest, hwork, rfl, hcons⟩
  · rw [hcons]
    refine List.forall_mem_cons.mpr ⟨fun u s t hst => ⟨?_, ?_⟩, h⟩
    · simpa only [Entry.findings, hwork] using he.findings_eq u (hst.mono fun _ _ => trivial)
    · simpa only [Entry.advance, hwork] using
        he.advance_agree u hst (fun _ _ => trivial) fun _ _ => trivial
  · rw [hcons]
    exact List.forall_mem_cons.mpr ⟨hrules hwork, h⟩
  · obtain ⟨hnext, hrest⟩ := List.forall_mem_cons.mp h
    rw [hcons]
    exact List.forall_mem_cons.mpr ⟨List.forall_mem_append.mpr ⟨hrules hwork, hnext⟩, hrest⟩

theorem blind_ofEntries (h : ∀ e ∈ es, e.Confined) : ∀ g ∈ ofEntries es, g.Blind := by
  induction es with
  | nil => exact fun g hg => absurd hg List.not_mem_nil
  | cons e es ih =>
    exact blind_cons (h e List.mem_cons_self) (ih fun e' he' => h e' (List.mem_cons_of_mem e he'))

/-- Putting an entry in front of stages adds its name, if any. -/
theorem mem_ids_cons {id : String} (h : id ∈ (cons e stages).flatMap ids) :
    id = e.id ∨ id ∈ stages.flatMap ids := by
  rcases cons_cases e stages with
    ⟨run, -, hcons⟩ | ⟨v, rules, -, hcons⟩ | ⟨v, rules, next, rest, -, rfl, hcons⟩
  · rw [hcons, List.flatMap_cons, List.mem_append] at h
    exact h.imp_left List.mem_singleton.mp
  · rw [hcons, List.flatMap_cons, List.mem_append] at h
    exact h.imp_left eq_of_mem_tagged
  · rw [hcons, List.flatMap_cons, List.mem_append, ids, List.map_append, List.mem_append,
      or_assoc] at h
    rw [List.flatMap_cons, List.mem_append]
    exact h.imp_left eq_of_mem_tagged

theorem ids_ofEntries_subset {id : String} (h : id ∈ (ofEntries es).flatMap ids) :
    id ∈ es.map (·.id) := by
  induction es with
  | nil => exact h
  | cons e es ih =>
    rcases mem_ids_cons h with rfl | h
    · exact List.mem_cons_self
    · exact List.mem_cons_of_mem _ (ih h)

end Stage

/-- What some stages add to the findings of a session, one after the other. -/
def emissions (u : CompilationUnit Node) : Session → List Stage → List Emission
  | _, [] => []
  | s, g :: stages => g.emit u s ++ emissions u (g.erase.run u s) stages

theorem emissions_congr {stages : List Stage} (u : CompilationUnit Node)
    (hblind : ∀ g ∈ stages, g.Blind) (h : Session.Agree (fun _ => True) s t) :
    emissions u s stages = emissions u t stages := by
  induction stages generalizing s t with
  | nil => rfl
  | cons g stages ih =>
    have hg := hblind g List.mem_cons_self
    rw [emissions, emissions, hg.emit_eq u h,
      ih (fun g' hg' => hblind g' (List.mem_cons_of_mem g hg')) (hg.run_agree u h)]

/-! ### A trace is one of the run -/

namespace Stage

variable {g : Stage} {stages : List Stage} {e : Entry} {es : List Entry}

/-- A pass that comes last is a stage of its own. -/
theorem ofEntries_append_pass {run : CompilationUnit Node → Session → Session}
    (hwork : e.work = .pass run) :
    ofEntries (es ++ [e]) = ofEntries es ++ [Stage.pass e.id run] := by
  induction es with
  | nil =>
    change cons e [] = [.pass e.id run]
    simp only [cons, hwork]
  | cons d es ih =>
    change cons d (ofEntries (es ++ [e])) = cons d (ofEntries es) ++ _
    rw [ih]
    unfold cons
    cases d.work with
    | pass run' => rfl
    | rules v rules =>
      cases ofEntries es with
      | nil => rfl
      | cons g stages =>
        cases g with
        | pass id run' => rfl
        | walk w next =>
          -- Whether `d` joins the walk behind it or not, the last stage stays as it is.
          by_cases hvw : v = w
          · simp only [List.cons_append, if_pos hvw]
          · simp only [List.cons_append, if_neg hvw]

/-- The stages of some entries are their passes, and walks. -/
theorem of_mem_ofEntries (h : g ∈ ofEntries es) :
    (∃ e ∈ es, ∃ run, e.work = .pass run ∧ g = .pass e.id run) ∨
      ∃ v rules, g = .walk v rules := by
  induction es with
  | nil => exact absurd h List.not_mem_nil
  | cons e es ih =>
    have hbehind (h : g ∈ ofEntries es) :
        (∃ e' ∈ e :: es, ∃ run, e'.work = .pass run ∧ g = .pass e'.id run) ∨
          ∃ v rules, g = .walk v rules :=
      (ih h).imp_left fun hpass => hpass.imp fun e' h => h.imp_left (List.mem_cons_of_mem e)
    -- In all three cases the new stage is the first one, and the others are stages of `es`.
    change g ∈ cons e (ofEntries es) at h
    rcases cons_cases e (ofEntries es) with
      ⟨run, hwork, hcons⟩ | ⟨v, rules, -, hcons⟩ | ⟨v, rules, next, rest, -, hstages, hcons⟩
    all_goals
      rw [hcons] at h
      rcases List.mem_cons.mp h with rfl | h
    · exact .inl ⟨e, List.mem_cons_self, run, hwork, rfl⟩
    · exact hbehind h
    · exact .inr ⟨_, _, rfl⟩
    · exact hbehind h
    · exact .inr ⟨_, _, rfl⟩
    · exact hbehind (hstages ▸ List.mem_cons_of_mem _ h)

/-- The stages of entries that add to the findings add what they emit. -/
theorem diagnostics_run (hes : ∀ e ∈ es, e ∈ Entry.all ∧ e ≠ Passes.reporting)
    (h : g ∈ ofEntries es) (u : CompilationUnit Node) (s : Session) :
    (g.erase.run u s).diagnostics = s.diagnostics ++ (g.emit u s).map (·.2) := by
  rcases of_mem_ofEntries h with ⟨e, he, run, hwork, rfl⟩ | ⟨v, rules, rfl⟩
  · have hadd := Entry.diagnostics_advance u s (hes e he).1 (hes e he).2
    simp only [Entry.advance, Entry.findings, hwork] at hadd
    simp only [erase, CSharpAudit.Stage.run, emit, List.map_map, Function.comp_def, List.map_id']
    exact hadd
  · rw [emit, map_snd_walk, start, List.map_map]
    simp only [erase, CSharpAudit.Stage.run, Session.report, runRules, List.map_map]
    rfl

/-- The stages of registered entries leave the settings as they are, switches apart. -/
theorem core_run (hes : ∀ e ∈ es, e ∈ Entry.all) (h : g ∈ ofEntries es)
    (u : CompilationUnit Node) (s : Session) :
    (g.erase.run u s).settings.core = s.settings.core := by
  rcases of_mem_ofEntries h with ⟨e, he, run, hwork, rfl⟩ | ⟨v, rules, rfl⟩
  · have hframe := ((Entry.confined_of_mem e (hes e he)).frame u s).settings
    simp only [Entry.advance, hwork] at hframe
    exact hframe
  · rfl

end Stage


/-- Stages that add to the findings of a session add what they emit. -/
theorem diagnostics_foldl_run {stages : List Stage} (u : CompilationUnit Node)
    (h : ∀ g ∈ stages, ∀ s, (g.erase.run u s).diagnostics =
      s.diagnostics ++ (g.emit u s).map (·.2)) (s : Session) :
    ((stages.map Stage.erase).foldl (CSharpAudit.Stage.run u) s).diagnostics =
      s.diagnostics ++ (emissions u s stages).map (·.2) := by
  induction stages generalizing s with
  | nil => exact (List.append_nil _).symm
  | cons g stages ih =>
    rw [List.map_cons, List.foldl_cons, ih fun g' hg' => h g' (List.mem_cons_of_mem g hg'),
      h g List.mem_cons_self, emissions, List.map_append, List.append_assoc]

theorem core_foldl_run {stages : List Stage} (u : CompilationUnit Node)
    (h : ∀ g ∈ stages, ∀ s, (g.erase.run u s).settings.core = s.settings.core) (s : Session) :
    ((stages.map Stage.erase).foldl (CSharpAudit.Stage.run u) s).settings.core =
      s.settings.core := by
  induction stages generalizing s with
  | nil => rfl
  | cons g stages ih =>
    rw [List.map_cons, List.foldl_cons, ih fun g' hg' => h g' (List.mem_cons_of_mem g hg'),
      h g List.mem_cons_self]

theorem emissions_append (u : CompilationUnit Node) (s : Session) (stages stages' : List Stage) :
    emissions u s (stages ++ stages') = emissions u s stages ++
      emissions u ((stages.map Stage.erase).foldl (CSharpAudit.Stage.run u) s) stages' := by
  induction stages generalizing s with
  | nil => rfl
  | cons g stages ih =>
    rw [List.cons_append, emissions, emissions, ih, List.append_assoc, List.map_cons,
      List.foldl_cons]

section Run

variable {es : List Entry}

/-- A run of entries that add to the findings adds what they emit. -/
theorem diagnostics_run (u : CompilationUnit Node) (s : Session)
    (hes : ∀ e ∈ es, e ∈ Entry.all ∧ e ≠ Passes.reporting) :
    (s.run u es).diagnostics =
      s.diagnostics ++ (emissions u s (Stage.ofEntries es)).map (·.2) := by
  rw [Session.run, ← Stage.map_erase_ofEntries]
  exact diagnostics_foldl_run u (fun g hg s => Stage.diagnostics_run hes hg u s) s

theorem core_run (u : CompilationUnit Node) (s : Session) (hes : ∀ e ∈ es, e ∈ Entry.all) :
    (s.run u es).settings.core = s.settings.core := by
  rw [Session.run, ← Stage.map_erase_ofEntries]
  exact core_foldl_run u (fun g hg s => Stage.core_run hes hg u s) s

/-- Putting the findings into their final form emits nothing. -/
theorem emissions_append_reporting (u : CompilationUnit Node) (s : Session) :
    emissions u s (Stage.ofEntries (es ++ [Passes.reporting])) =
      emissions u s (Stage.ofEntries es) := by
  rw [Stage.ofEntries_append_pass rfl, emissions_append, emissions, emissions, Stage.emit,
    List.drop_eq_nil_of_le (Entry.length_finalDiagnostics_le _ _), List.map_nil, List.append_nil,
    List.append_nil]

/-- Where the findings are put into their final form, this is done last. -/
theorem diagnostics_run_append_reporting (u : CompilationUnit Node) (s : Session)
    (hes : ∀ e ∈ es, e ∈ Entry.all) :
    (s.run u (es ++ [Passes.reporting])).diagnostics =
      Passes.finalDiagnostics s.settings (s.run u es).diagnostics := by
  have hrun : (s.run u (es ++ [Passes.reporting])).diagnostics =
      Passes.finalDiagnostics (s.run u es).settings (s.run u es).diagnostics := by
    rw [Session.run, ← Stage.map_erase_ofEntries, Stage.ofEntries_append_pass rfl, List.map_append,
      List.foldl_append, Session.run, ← Stage.map_erase_ofEntries]
    rfl
  have hcore (settings : Settings) (ds : List Diagnostic) :
      Passes.finalDiagnostics settings ds = Passes.finalDiagnostics settings.core ds := rfl
  rw [hrun, hcore, core_run u s hes, ← hcore]

end Run

end Traced

/-! ### One entry after the other -/

/-- What some entries add to the findings of a session if each runs by itself. -/
def sequential (u : CompilationUnit Node) : Session → List Entry → List Emission
  | _, [] => []
  | s, e :: es => (e.findings u s).map (e.id, ·) ++ sequential u (e.advance u s) es

namespace Traced

variable {s : Session} {e : Entry} {es : List Entry} {stages : List Stage}

/-- An entry that shares a walk emits what it emits by itself, and so do those behind it. -/
theorem emissionsOf_cons (u : CompilationUnit Node)
    (hblind : ∀ g ∈ stages, g.Blind) (hfresh : e.id ∉ stages.flatMap Stage.ids) (id : String) :
    emissionsOf id (emissions u s (Stage.cons e stages)) =
      emissionsOf id ((e.findings u s).map (e.id, ·)) ++
        emissionsOf id (emissions u (e.advance u s) stages) := by
  rcases Stage.cons_cases e stages with
    ⟨run, hwork, hcons⟩ | ⟨v, rules, hwork, hcons⟩ | ⟨v, rules, next, rest, hwork, rfl, hcons⟩
  · rw [hcons, emissions, emissionsOf_append]
    simp only [Entry.findings, Entry.advance, hwork]
    rfl
  · rw [hcons, emissions, emissionsOf_append, Stage.emit, emissionsOf_walk_tagged]
    simp only [Entry.findings, Entry.advance, hwork, Stage.erase, map_snd_tagged]
    rfl
  · obtain ⟨hnext, hrest⟩ := List.forall_mem_cons.mp hblind
    have hids : e.id ∉ next.map (·.1) := fun h => hfresh (List.mem_append_left _ h)
    have hshared : id ∉ (rules.map (e.id, ·)).map (·.1) ∨ id ∉ next.map (·.1) := by
      by_cases hid : id = e.id
      · exact .inr (hid ▸ hids)
      · exact .inl fun h => hid (eq_of_mem_tagged h)
    -- neither walk nor the stages behind it look at what the entry has found
    have hagree : Session.Agree (fun _ => True) (e.advance u s) s := by
      simp only [Entry.advance, hwork]
      exact .report s _
    rw [hcons, emissions, emissions, emissionsOf_append, emissionsOf_append, Stage.emit,
      emissionsOf_walk_append id u.cursors hshared, emissionsOf_walk_tagged,
      hnext.emit_eq u hagree, List.append_assoc]
    have hbehind : Session.Agree (fun _ => True)
        ((Stage.walk v (rules.map (e.id, ·) ++ next)).erase.run u s)
        ((Stage.walk v next).erase.run u (e.advance u s)) :=
      (Session.Agree.report s _).trans ((Session.Agree.report _ _).trans hagree).symm
    rw [emissions_congr u hrest hbehind]
    simp only [Entry.findings, hwork]
    rfl

/-- In a run with shared walks every entry emits what it emits in a run of one entry after the
other. -/
theorem emissionsOf_ofEntries (u : CompilationUnit Node) (hconfined : ∀ e ∈ es, e.Confined)
    (hnodup : (es.map (·.id)).Nodup) (s : Session) (id : String) :
    emissionsOf id (emissions u s (Stage.ofEntries es)) = emissionsOf id (sequential u s es) := by
  induction es generalizing s with
  | nil => rfl
  | cons e es ih =>
    obtain ⟨hnew, hnodup⟩ := List.nodup_cons.mp hnodup
    have hconfined' : ∀ e' ∈ es, e'.Confined := fun e' he' =>
      hconfined e' (List.mem_cons_of_mem e he')
    have hfresh : e.id ∉ (Stage.ofEntries es).flatMap Stage.ids := fun h =>
      hnew (Stage.ids_ofEntries_subset h)
    rw [show Stage.ofEntries (e :: es) = Stage.cons e (Stage.ofEntries es) from rfl,
      emissionsOf_cons u (Stage.blind_ofEntries hconfined') hfresh,
      ih hconfined' hnodup, sequential, emissionsOf_append]

end Traced

end CSharpAudit
