import CSharpAudit.Proofs.Emissions
import CSharpAudit.Proofs.Scheduling

/-!
# What switching entries off changes

The settings switch passes and rule sets on and off. Since each entry keeps to the artifacts that it
declares, two runs with different switches go on in lockstep on the artifacts whose producers, and
theirs in turn, run in both or in neither. An entry that reads only such artifacts emits the same in
both.

## Main definitions

* `Session.emitted` — what an entry emits in a run
* `Session.switched` — a session with other switches
* `Entry.DependsOn` — an entry reads what another one writes
* `Entry.Alike` — an entry and all that it depends on are switched alike

## Main results

* `Session.diagnostics_runEnabled` — the findings of a run are what its entries emit
* `Entry.emissionsOf_sequential_eq` — two runs emit the same for an entry that is switched alike
* `emitted_fixed_by_dependencies` — only declared consumers notice what is switched off
-/

namespace CSharpAudit

open Relation

namespace Entry

/-! ### Dependencies -/

/-- An entry reads what another one writes. -/
def DependsOn (e d : Entry) : Prop := d ∈ all ∧ ∃ k ∈ e.reads, k ∈ d.writes

/-- An entry and all that it depends on, however indirectly, are switched alike. -/
def Alike (on on' : Entry → Bool) (e : Entry) : Prop :=
  ∀ d, ReflTransGen DependsOn e d → on d = on' d

/-- No two entries have the same id. -/
theorem nodup_ids : (all.map (·.id)).Nodup := by decide

/-- No two entries write the same result. -/
theorem nodup_writes : (all.flatMap (·.writes)).Nodup := by decide

section Alike

variable {on on' : Entry → Bool} {e d : Entry} {k : ArtifactKind}

theorem Alike.on_eq (h : Alike on on' e) : on e = on' e := h e .refl

/-- What an entry depends on is switched alike. -/
theorem Alike.of_dependsOn (h : Alike on on' e) (hd : e.DependsOn d) : Alike on on' d :=
  fun c hc => h c (.head hd hc)

/-- An entry is told by its id. -/
theorem eq_of_id_eq (he : e ∈ all) (hd : d ∈ all) (h : e.id = d.id) : e = d :=
  List.inj_on_of_nodup_map nodup_ids he hd h

/-- What is listed for one entry each tells the entry. -/
theorem eq_of_mem_of_nodup {α : Type} {f : Entry → List α} {a : α} (h : (all.flatMap f).Nodup)
    (he : e ∈ all) (hd : d ∈ all) (hae : a ∈ f e) (had : a ∈ f d) : e = d := by
  by_contra hne
  have hdisjoint := (List.nodup_flatMap.mp h).2
  have : Std.Symm (Function.onFun List.Disjoint f) :=
    ⟨fun _ _ h => List.disjoint_comm.mp h⟩
  exact hdisjoint.forall he hd hne hae had

/-- No two entries write one kind of artifact. -/
theorem eq_of_mem_writes (he : e ∈ all) (hd : d ∈ all) (hke : k ∈ e.writes) (hkd : k ∈ d.writes) :
    e = d :=
  eq_of_mem_of_nodup nodup_writes he hd hke hkd

end Alike

/-! ### Two runs in lockstep -/

section Lockstep

variable {on on' : Entry → Bool} {e d : Entry} {es : List Entry} {s t : Session}

/-- Artifacts are in lockstep if those who write them are switched alike. -/
def Lockstep (on on' : Entry → Bool) (k : ArtifactKind) : Prop :=
  ∀ d ∈ all, k ∈ d.writes → Alike on on' d

/-- What an entry reads is the same in both runs. -/
theorem Alike.lockstep_of_mem_reads (h : Alike on on' e) :
    ∀ k ∈ e.reads, Lockstep on on' k :=
  fun k hk _ hd hwritten => h.of_dependsOn ⟨hd, k, hk, hwritten⟩

theorem Alike.lockstep_of_mem_writes (h : Alike on on' e) (he : e ∈ all) :
    ∀ k ∈ e.writes, Lockstep on on' k :=
  fun _ hk _ hd hwritten => eq_of_mem_writes he hd hk hwritten ▸ h

/-- What an entry writes that is not switched alike need not be the same. -/
theorem not_lockstep_of_mem_writes (h : ¬ Alike on on' d) (hd : d ∈ all) :
    ∀ k ∈ d.writes, ¬ Lockstep on on' k :=
  fun _ hk hlockstep => h (hlockstep d hd hk)

/-- What comes behind an entry is all that another one emits. -/
theorem emissionsOf_sequential_cons_of_ne (u : CompilationUnit Node) (h : d.id ≠ e.id) :
    emissionsOf e.id (sequential u s (d :: es)) =
      emissionsOf e.id (sequential u (d.advance u s) es) := by
  rw [sequential, emissionsOf_append, emissionsOf_tagged, if_neg h, List.nil_append]

/-- An entry that is switched unlike leaves sessions in lockstep, and is not heard of by one that is
switched alike. -/
theorem emissionsOf_sequential_filter_cons (u : CompilationUnit Node) (hd : d ∈ all)
    (hne : d.id ≠ e.id) (hunlike : ¬ Alike on on' d) (hagree : Session.Agree (Lockstep on on') s t)
    (es : List Entry) (p : Entry → Bool) :
    ∃ s', Session.Agree (Lockstep on on') s' t ∧
      emissionsOf e.id (sequential u s ((d :: es).filter p)) =
        emissionsOf e.id (sequential u s' (es.filter p)) := by
  cases hp : p d with
  | false => exact ⟨s, hagree, by rw [List.filter_cons_of_neg (by simp [hp])]⟩
  | true =>
    refine ⟨d.advance u s, (confined_of_mem d hd).advance_agree_left u hagree
      (not_lockstep_of_mem_writes hunlike hd), ?_⟩
    rw [List.filter_cons_of_pos hp, emissionsOf_sequential_cons_of_ne u hne]

/-- Two runs that switch different entries on emit the same for an entry if it and all that it
depends on are switched alike. -/
theorem emissionsOf_sequential_eq (u : CompilationUnit Node) (he : e ∈ all) (halike : Alike on on' e)
    (hes : ∀ d ∈ es, d ∈ all) (hagree : Session.Agree (Lockstep on on') s t) :
    emissionsOf e.id (sequential u s (es.filter on)) =
      emissionsOf e.id (sequential u t (es.filter on')) := by
  induction es generalizing s t with
  | nil => rfl
  | cons d es ih =>
    obtain ⟨hd, hes⟩ := List.forall_mem_cons.mp hes
    by_cases hdalike : Alike on on' d
    · -- both runs run it, with the same results, or neither does
      have hon := hdalike.on_eq
      cases hp : on d with
      | false =>
        rw [List.filter_cons_of_neg (by simp [hp]), List.filter_cons_of_neg (by simp [← hon, hp])]
        exact ih hes hagree
      | true =>
        have hconfined := confined_of_mem d hd
        have hfindings := hconfined.findings_eq u (hagree.mono hdalike.lockstep_of_mem_reads)
        have hbehind := hconfined.advance_agree u hagree hdalike.lockstep_of_mem_reads
          (hdalike.lockstep_of_mem_writes hd)
        rw [List.filter_cons_of_pos hp, List.filter_cons_of_pos (hon ▸ hp), sequential, sequential,
          emissionsOf_append, emissionsOf_append, hfindings, ih hes hbehind]
    · -- each run may run it, but nothing that matters here comes from it
      have hne : d.id ≠ e.id := fun h => hdalike (eq_of_id_eq hd he h ▸ halike)
      obtain ⟨s', hs', hleft⟩ :=
        emissionsOf_sequential_filter_cons u hd hne hdalike hagree es on
      obtain ⟨t', ht', hright⟩ :=
        emissionsOf_sequential_filter_cons u hd hne hdalike hs'.symm es on'
      rw [hleft, hright]
      exact ih hes ht'.symm

end Lockstep

/-! ### Enabled entries -/

/-- Whether the settings leave an entry on. -/
def isEnabled (settings : Settings) (e : Entry) : Bool :=
  if e.isPass then settings.passEnabled e.id else settings.rulesetEnabled e.id

/-- Each entry is registered behind those that write what it reads. -/
theorem schedule_all : schedule task all = .ok all :=
  Schedule.schedule_of_pairwise nodup_ids nodup_writes (by decide) (by decide)

/-- The scheduler leaves the entries in the order in which they are listed. -/
theorem ordered_eq_all : ordered = all := by
  unfold ordered
  rw [schedule_all]

/-- Those that are enabled keep their order. -/
theorem enabled_eq_filter (settings : Settings) :
    enabled settings = all.filter (isEnabled settings) :=
  congrArg (List.filter (isEnabled settings)) ordered_eq_all

theorem mem_enabled_iff {settings : Settings} {e : Entry} :
    e ∈ enabled settings ↔ e ∈ all ∧ isEnabled settings e := by
  rw [enabled_eq_filter, List.mem_filter]

theorem isEnabled_eq_iff {settings settings' : Settings} {e : Entry} (he : e ∈ all) :
    isEnabled settings e = isEnabled settings' e ↔
      (e ∈ enabled settings ↔ e ∈ enabled settings') := by
  rw [mem_enabled_iff, mem_enabled_iff, and_iff_right he, and_iff_right he, Bool.eq_iff_iff]

/-- Whatever an entry depends on is registered. -/
theorem mem_all_of_transGen {e d : Entry} (h : TransGen DependsOn e d) : d ∈ all := by
  cases h with
  | single h => exact h.1
  | tail _ h => exact h.1

theorem ne_reporting_of_mem_dropLast {e : Entry} (h : e ∈ all.dropLast) : e ≠ Passes.reporting := by
  have hids : Passes.reporting.id ∉ all.dropLast.map (·.id) := by decide
  rintro rfl
  exact hids (List.mem_map_of_mem h)

/-- The settings leave on some entries that add to the findings, and perhaps the pass that puts
these into their final form. -/
theorem enabled_eq_append (settings : Settings) :
    enabled settings = all.dropLast.filter (isEnabled settings) ++
      if isEnabled settings Passes.reporting then [Passes.reporting] else [] := by
  have hlast : all.filter (isEnabled settings) = all.dropLast.filter (isEnabled settings) ++
      [Passes.reporting].filter (isEnabled settings) :=
    List.filter_append all.dropLast [Passes.reporting]
  rw [enabled_eq_filter, hlast, List.filter_singleton, cond_eq_ite]

end Entry

/-! ### Runs -/

namespace Session

variable {u : CompilationUnit Node} {s : Session} {e : Entry}

/-- The findings that a run adds, each with the name of the entry that emits it, before they are put
into their final form. -/
def emissions (u : CompilationUnit Node) (s : Session) : List Emission :=
  Traced.emissions u s (Traced.Stage.ofEntries (Entry.enabled s.settings))

/-- What an entry emits in a run. -/
def emitted (u : CompilationUnit Node) (s : Session) (e : Entry) : List Diagnostic :=
  emissionsOf e.id (s.emissions u)

/-- A session with other switches for passes and rule sets. -/
def switched (s : Session) (passes rulesets : Table Bool) : Session :=
  { s with settings := { s.settings with passes, rulesets } }

theorem lookup_map_id (on : String → Bool) {es : List Entry} (h : e ∈ es) :
    (es.map fun d => (d.id, on d.id)).lookup e.id = some (on e.id) := by
  induction es with
  | nil => exact absurd h List.not_mem_nil
  | cons d es ih =>
    rw [List.map_cons, List.lookup_cons]
    cases hid : e.id == d.id with
    | true => simp only [eq_of_beq hid]
    | false =>
      have hne : e ≠ d := fun heq => beq_eq_false_iff_ne.mp hid (congrArg Entry.id heq)
      exact ih (List.mem_of_ne_of_mem hne h)

/-- Switches can leave any set of names on. -/
theorem exists_enabled_switched (s : Session) (on : String → Bool) :
    ∃ passes rulesets, Entry.enabled (s.switched passes rulesets).settings =
      Entry.all.filter fun e => on e.id := by
  let table : Table Bool := ⟨Entry.all.map fun e => (e.id, on e.id)⟩
  refine ⟨table, table, ?_⟩
  rw [Entry.enabled_eq_filter]
  refine List.filter_congr fun e he => ?_
  have hget : table.get? e.id = some (on e.id) := lookup_map_id on he
  simp only [Entry.isEnabled, Settings.passEnabled, Settings.rulesetEnabled, switched, hget,
    Option.getD_some, ite_self]

/-- What an entry emits is what it emits in a run one after the other. -/
theorem emitted_eq_sequential : s.emitted u e =
    emissionsOf e.id (sequential u s (Entry.all.filter (Entry.isEnabled s.settings))) := by
  rw [emitted, emissions, ← Entry.enabled_eq_filter]
  refine Traced.emissionsOf_ofEntries u
    (fun e he => Entry.confined_of_mem e (Entry.mem_enabled_iff.mp he).1) ?_ s e.id
  rw [Entry.enabled_eq_filter]
  exact Entry.nodup_ids.sublist (List.filter_sublist.map _)

/-- The findings of a run are what its entries emit, in their final form unless the settings switch
that off. -/
theorem diagnostics_runEnabled (u : CompilationUnit Node) (s : Session) :
    (s.runEnabled u).diagnostics =
      if Entry.isEnabled s.settings Passes.reporting then
        Passes.finalDiagnostics s.settings (s.diagnostics ++ (s.emissions u).map (·.2))
      else s.diagnostics ++ (s.emissions u).map (·.2) := by
  have hes : ∀ e ∈ Entry.all.dropLast.filter (Entry.isEnabled s.settings),
      e ∈ Entry.all ∧ e ≠ Passes.reporting := fun e he =>
    have he := List.mem_of_mem_filter he
    ⟨List.dropLast_subset _ he, Entry.ne_reporting_of_mem_dropLast he⟩
  have hrun := Traced.diagnostics_run u s hes
  rw [runEnabled, Session.emissions, Entry.enabled_eq_append]
  cases Entry.isEnabled s.settings Passes.reporting with
  | false => simpa only [Bool.false_eq_true, if_false, List.append_nil] using hrun
  | true =>
    simp only [if_true]
    rw [Traced.diagnostics_run_append_reporting u s fun e he => (hes e he).1, hrun,
      Traced.emissions_append_reporting]

/-- Sessions that differ in switches only have the same things emitted by an entry if it and all
that it depends on are switched alike. -/
theorem emitted_switched_eq (u : CompilationUnit Node) (s : Session)
    {passes passes' rulesets rulesets' : Table Bool} (he : e ∈ Entry.all)
    (halike : Entry.Alike (Entry.isEnabled (s.switched passes rulesets).settings)
      (Entry.isEnabled (s.switched passes' rulesets').settings) e) :
    (s.switched passes rulesets).emitted u e = (s.switched passes' rulesets').emitted u e := by
  rw [emitted_eq_sequential, emitted_eq_sequential]
  exact Entry.emissionsOf_sequential_eq u he halike (fun _ hd => hd) ⟨rfl, rfl, rfl, fun _ _ => rfl⟩

end Session

open Entry in
/-- What an entry emits is fixed by the switches of the entries whose artifacts it reads, directly
or not: if these run in both of two runs or in neither, it emits the same in both. So where the
switches of only one entry differ, all others that do not depend on it emit the same. The switches
can leave any set of names on, and what entries emit is what the findings of a run are made of. -/
theorem emitted_fixed_by_dependencies (u : CompilationUnit Node) (s : Session) :
    (∀ (p p' r r' : Table Bool) (e : Entry),
      e ∈ enabled (s.switched p r).settings → e ∈ enabled (s.switched p' r').settings →
      (∀ d, TransGen DependsOn e d →
        (d ∈ enabled (s.switched p r).settings ↔ d ∈ enabled (s.switched p' r').settings)) →
      (s.switched p r).emitted u e = (s.switched p' r').emitted u e) ∧
    (∀ (p p' r r' : Table Bool) (d : Entry),
      (∀ e ∈ all, e ≠ d →
        (e ∈ enabled (s.switched p r).settings ↔ e ∈ enabled (s.switched p' r').settings)) →
      ∀ e ∈ all, e ≠ d → (s.switched p r).emitted u e ≠ (s.switched p' r').emitted u e →
        TransGen DependsOn e d) ∧
    (∀ on : String → Bool, ∃ p r, enabled (s.switched p r).settings = all.filter (on ·.id)) ∧
    (s.runEnabled u).diagnostics =
      if isEnabled s.settings Passes.reporting then
        Passes.finalDiagnostics s.settings (s.diagnostics ++ (s.emissions u).map (·.2))
      else s.diagnostics ++ (s.emissions u).map (·.2) := by
  refine ⟨fun p p' r r' e he he' hdeps => ?_, fun p p' r r' d hsame e he hne hdiffer => ?_,
    s.exists_enabled_switched, s.diagnostics_runEnabled u⟩
  -- All that `e` depends on, itself included, is switched alike, so that the runs agree on it.
  · have hmem := (mem_enabled_iff.mp he).1
    refine s.emitted_switched_eq u hmem fun c hc => ?_
    rcases reflTransGen_iff_eq_or_transGen.mp hc with rfl | hc
    · exact (isEnabled_eq_iff hmem).mpr (iff_of_true he he')
    · exact (isEnabled_eq_iff (mem_all_of_transGen hc)).mpr (hdeps c hc)
  -- If `e` did not depend on `d`, all that matters to it would be switched alike.
  · by_contra hindependent
    refine hdiffer (s.emitted_switched_eq u he fun c hc => ?_)
    rcases reflTransGen_iff_eq_or_transGen.mp hc with rfl | hc
    · exact (isEnabled_eq_iff he).mpr (hsame _ he hne)
    · have hcd : c ≠ d := fun h => hindependent (h ▸ hc)
      have hmem := mem_all_of_transGen hc
      exact (isEnabled_eq_iff hmem).mpr (hsame c hmem hcd)

/-- A class with a method that declares a local and does nothing with it. -/
def idleLocalUnit : CompilationUnit Node :=
  let x : VarDeclarator Node := { span := ⟨25, 26⟩, name := "x", nameSpan := ⟨25, 26⟩ }
  let m : Method Node :=
    { span := ⟨10, 30⟩, name := "M", nameSpan := ⟨15, 16⟩
      returnType := { span := ⟨10, 14⟩, name := "void" }
      body := some (.block ⟨19, 30⟩ [.localDecl ⟨21, 27⟩ none false false [x]]) }
  { span := ⟨0, 32⟩
    members := [.typeDecl { span := ⟨0, 32⟩, kind := .classType, name := "C", nameSpan := ⟨6, 7⟩
                            members := [.method m] }] }

/-- Switches that leave only the entries with some names on. -/
def onlyOn (ids : List String) : Table Bool :=
  ⟨Entry.all.map fun e => (e.id, ids.contains e.id)⟩

open Entry in
/-- Of all passes, only the one that collects names inside members matters to the pass on control
and data flow. So without the pass that resolves types and without the rule set on names, it emits
what it emits with them: here, that a local is never used. -/
theorem flow_emits_without_binding_and_naming :
    let u := idleLocalUnit
    let s : Session := { document := { file := "A.cs", source := [] } }
    let fewer := s.switched ⟨[("binding", false)]⟩ ⟨[("naming", false)]⟩
    Passes.binding ∉ enabled fewer.settings ∧ Passes.naming ∉ enabled fewer.settings ∧
      Passes.flow ∈ enabled (s.switched {} {}).settings ∧ Passes.flow ∈ enabled fewer.settings ∧
      (∀ d, TransGen DependsOn Passes.flow d →
        (d ∈ enabled (s.switched {} {}).settings ↔ d ∈ enabled fewer.settings)) ∧
      (s.switched {} {}).emitted u Passes.flow = fewer.emitted u Passes.flow ∧
      (fewer.emitted u Passes.flow).map (·.code) = [.unusedVariable] := by
  intro u s fewer
  -- With only the two entries on, the run is short enough to be computed.
  let alone := s.switched (onlyOn ["symbols", "flow"]) (onlyOn [])
  have hflow : Passes.flow ∈ all := by simp [all]
  have hsymbols : Passes.symbols ∈ all := by simp [all]
  have hdeps : ∀ d, TransGen DependsOn Passes.flow d → d = Passes.symbols := by
    intro d h
    induction h with
    | single h =>
      obtain ⟨hd, k, hk, hwritten⟩ := h
      rw [List.mem_singleton.mp hk] at hwritten
      exact eq_of_mem_writes hd hsymbols hwritten (List.mem_singleton.mpr rfl)
    | tail _ h ih =>
      obtain ⟨-, k, hk, -⟩ := ih ▸ h
      exact absurd hk List.not_mem_nil
  have hon {e : Entry} {t : Session} (he : e ∈ all) (h : isEnabled t.settings e = true) :
      e ∈ enabled t.settings := mem_enabled_iff.mpr ⟨he, h⟩
  have hoff {e : Entry} (h : isEnabled fewer.settings e = false) : e ∉ enabled fewer.settings :=
    fun he => Bool.false_ne_true (h.symm.trans (mem_enabled_iff.mp he).2)
  have hsame {t t' : Session} (h : Passes.symbols ∈ enabled t.settings)
      (h' : Passes.symbols ∈ enabled t'.settings) (d : Entry) (hd : TransGen DependsOn Passes.flow d) :
      d ∈ enabled t.settings ↔ d ∈ enabled t'.settings := by
    rw [hdeps d hd]
    exact iff_of_true h h'
  have hrun : Passes.flow ∈ enabled (s.switched {} {}).settings := hon hflow (by decide)
  have hrun' : Passes.flow ∈ enabled fewer.settings := hon hflow (by decide)
  have hdeps' := hsame (hon (t := s.switched {} {}) hsymbols (by decide))
    (hon (t := fewer) hsymbols (by decide))
  -- So what the pass emits there is what it emits in the run with almost all entries.
  have halone := (emitted_fixed_by_dependencies u s).1 _ _ _ _ _ hrun'
    (hon (t := alone) hflow (by decide)) (hsame (hon hsymbols (by decide)) (hon hsymbols (by decide)))
  have hentries : all.filter (isEnabled alone.settings) = [Passes.symbols, Passes.flow] := rfl
  refine ⟨hoff (by decide), hoff (by decide), hrun, hrun', hdeps',
    (emitted_fixed_by_dependencies u s).1 _ _ _ _ _ hrun hrun' hdeps', ?_⟩
  rw [halone, Session.emitted_eq_sequential, hentries]
  decide +kernel

end CSharpAudit
