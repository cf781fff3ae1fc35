import CSharpAudit.Proofs.Sorting

/-!
# Merging ignores order

The report of some results is the same in whatever order the results are merged. Numbers are added
up or the largest one counts; names and warnings are counted or listed once; and a finding is never
tied with one of another file, so that the order in which files come does not show in the order of
findings.

## Main results

* `Merge.metrics_perm` — the metrics of all files do not depend on their order
* `Merge.length_filter_flows` — the members over a threshold are the names that some body is listed
  under which exceeds it
* `mergeResults_perm` — the report does not depend on the order of results
-/

namespace CSharpAudit

/-! ### Metrics -/

namespace Metrics

/-- Metrics are added, whatever their order. -/
theorem combine_comm (a b : Metrics) : a.combine b = b.combine a := by
  refine congrArg Metrics.mk (funext fun c => ?_)
  cases c
  case nestingDepth => exact Int.max_comm _ _
  all_goals exact congrArg wrap (Int.add_comm _ _)

theorem combine_right_comm (a b c : Metrics) :
    (a.combine b).combine c = (a.combine c).combine b := by
  have hsum (x y z : Int) : wrap (wrap (x + y) + z) = wrap (wrap (x + z) + y) := by
    simp only [wrap, Int.bmod_add_bmod, Int.add_right_comm]
  refine congrArg Metrics.mk (funext fun k => ?_)
  cases k
  case nestingDepth =>
    simp only [combine]
    omega
  all_goals exact hsum _ _ _

end Metrics

namespace Merge

variable {results results' : List FileResult}

/-- The metrics of a workspace do not depend on the order of its files. -/
theorem metrics_perm (h : results.Perm results') : metrics results = metrics results' := by
  refine h.foldl_eq' (fun r _ r' _ total => ?_) none
  cases total <;> cases r.metrics <;> cases r'.metrics
  case none.some.some m m' => exact congrArg some (m.combine_comm m')
  case some.some.some t m m' => exact congrArg some (t.combine_right_comm m m')
  all_goals rfl

/-! ### Control flow -/

/-- The members of all files with their control flow. -/
def flowEntries (results : List FileResult) : List (String × MemberFlow) :=
  results.flatMap fun r => r.flows.getD []

/-- The flows of a workspace are recorded one after the other. -/
theorem flows_eq : flows results =
    (flowEntries results).foldl (fun index e => FlowIndex.record index e.1 e.2) [] := by
  rw [flowEntries, List.foldl_flatMap]
  rfl

end Merge

/-- A test of control flow that the higher numbers pass if one of the two summaries passes it. -/
def FlowIndex.Threshold (exceeds : MemberFlow → Bool) : Prop :=
  ∀ f g, exceeds (FlowIndex.merge f g) = (exceeds f || exceeds g)

namespace FlowIndex

variable {index : FlowIndex} {name : String} {flow : MemberFlow} {exceeds : MemberFlow → Bool}

/-- The names of an index under which something is listed that passes a test. -/
def named (exceeds : MemberFlow → Bool) (index : FlowIndex) : List String :=
  (index.filter fun e => exceeds e.2).map (·.1)

/-- A name is counted if its flow exceeds a threshold. -/
theorem mem_named {k : String} :
    k ∈ named exceeds index ↔ ∃ f, (k, f) ∈ index ∧ exceeds f = true := by
  simp [named]

/-- Complexity above a limit is such a test. -/
theorem threshold_complexity (limit : Int) : Threshold fun f => f.complexity > limit := by
  intro f g
  rw [Bool.eq_iff_iff]
  simp only [Bool.or_eq_true, decide_eq_true_eq]
  simp only [merge]
  omega

theorem threshold_nesting (limit : Int) : Threshold fun f => f.nesting > limit := by
  intro f g
  rw [Bool.eq_iff_iff]
  simp only [Bool.or_eq_true, decide_eq_true_eq]
  simp only [merge]
  omega

/-- Recording a body lists its name behind the others, unless it is listed already. -/
theorem map_fst_record : (record index name flow).map (·.1) =
    if name ∈ index.map (·.1) then index.map (·.1) else index.map (·.1) ++ [name] := by
  have hany : index.any (·.1 == name) = true ↔ name ∈ index.map (·.1) := by simp
  rw [record]
  simp only [hany]
  split
  · rw [List.map_map]
    refine List.map_congr_left fun e _ => ?_
    simp only [Function.comp_apply]
    split <;> rfl
  · rw [List.map_append, List.map_singleton]

/-- A name is recorded once. -/
theorem nodup_record (h : (index.map (·.1)).Nodup) :
    ((index.record name flow).map (·.1)).Nodup := by
  rw [map_fst_record]
  split
  · exact h
  · rename_i hname
    rw [← List.concat_eq_append]
    exact List.Nodup.concat hname h

/-- After a body has been recorded, its name passes a test if the body does or if it did before. -/
theorem mem_named_record (hexceeds : Threshold exceeds) {k : String} :
    k ∈ named exceeds (record index name flow) ↔
      k ∈ named exceeds index ∨ k = name ∧ exceeds flow = true := by
  simp only [mem_named, record]
  split
  · -- the name is known: the body is merged into what is listed under it
    rename_i hany
    obtain ⟨e, he, hname⟩ := List.any_eq_true.mp hany
    have hname : e.1 = name := by simpa using hname
    constructor
    · rintro ⟨f, hf, hk⟩
      obtain ⟨d, hd, hdf⟩ := List.mem_map.mp hf
      split at hdf
      · rename_i hdname
        obtain ⟨rfl, rfl⟩ := Prod.mk.inj hdf
        rw [hexceeds, Bool.or_eq_true] at hk
        exact hk.imp (fun hk => ⟨d.2, hd, hk⟩) fun hk => ⟨by simpa using hdname, hk⟩
      · obtain rfl := hdf
        exact .inl ⟨f, hd, hk⟩
    · rintro (⟨f, hf, hk⟩ | ⟨rfl, hk⟩)
      · by_cases hkname : k = name
        · refine ⟨merge f flow, List.mem_map.mpr ⟨(k, f), hf, by simp [hkname]⟩, ?_⟩
          rw [hexceeds, hk, Bool.true_or]
        · exact ⟨f, List.mem_map.mpr ⟨(k, f), hf, by simp [hkname]⟩, hk⟩
      · refine ⟨merge e.2 flow, List.mem_map.mpr ⟨e, he, by simp [hname]⟩, ?_⟩
        rw [hexceeds, hk, Bool.or_true]
  · -- the name is new: the body is listed under it
    constructor
    · rintro ⟨f, hf, hk⟩
      rcases List.mem_append.mp hf with hf | hf
      · exact .inl ⟨f, hf, hk⟩
      · obtain ⟨rfl, rfl⟩ := Prod.mk.inj (List.mem_singleton.mp hf)
        exact .inr ⟨rfl, hk⟩
    · rintro (⟨f, hf, hk⟩ | ⟨rfl, hk⟩)
      · exact ⟨f, List.mem_append_left _ hf, hk⟩
      · exact ⟨flow, List.mem_append_right _ (List.mem_singleton.mpr rfl), hk⟩

theorem nodup_foldl_record (entries : List (String × MemberFlow)) (h : (index.map (·.1)).Nodup) :
    ((entries.foldl (fun index e => record index e.1 e.2) index).map (·.1)).Nodup := by
  induction entries generalizing index with
  | nil => exact h
  | cons e entries ih => exact ih (nodup_record h)

/-- A name exceeds a threshold if one of its flows does. -/
theorem mem_named_foldl_record (hexceeds : Threshold exceeds) {k : String}
    (entries : List (String × MemberFlow)) :
    k ∈ named exceeds (entries.foldl (fun index e => record index e.1 e.2) index) ↔
      k ∈ named exceeds index ∨ k ∈ named exceeds entries := by
  induction entries generalizing index with
  | nil => simp [named]
  | cons e entries ih =>
    have hcons : k ∈ named exceeds (e :: entries) ↔
        (k = e.1 ∧ exceeds e.2 = true) ∨ k ∈ named exceeds entries := by
      simp only [mem_named, List.mem_cons, Prod.ext_iff]
      grind
    rw [List.foldl_cons, ih, mem_named_record hexceeds, hcons, or_assoc]

end FlowIndex

namespace Merge

variable {results results' : List FileResult} {exceeds : MemberFlow → Bool}

/-- Of the members of all files, as many exceed a threshold as there are names under which some file
lists a body that does. -/
theorem length_filter_flows (hexceeds : FlowIndex.Threshold exceeds) :
    ((flows results).filter fun e => exceeds e.2).length =
      (FlowIndex.named exceeds (flowEntries results)).eraseDups.length := by
  have hnodup : (FlowIndex.named exceeds (flows results)).Nodup := by
    rw [flows_eq]
    have hnames := @FlowIndex.nodup_foldl_record [] (flowEntries results) List.nodup_nil
    exact hnames.sublist (List.filter_sublist.map _)
  have hmem (k : String) : k ∈ FlowIndex.named exceeds (flows results) ↔
      k ∈ (FlowIndex.named exceeds (flowEntries results)).eraseDups := by
    rw [flows_eq, FlowIndex.mem_named_foldl_record hexceeds, List.mem_eraseDups]
    simp [FlowIndex.named]
  rw [← ((List.perm_ext_iff_of_nodup hnodup (nodup_eraseDups _)).mpr hmem).length_eq,
    FlowIndex.named, List.length_map]

/-- How many names exceed a threshold does not depend on the order of the files. -/
theorem length_filter_flows_perm (hexceeds : FlowIndex.Threshold exceeds)
    (h : results.Perm results') : ((flows results).filter fun e => exceeds e.2).length =
      ((flows results').filter fun e => exceeds e.2).length := by
  rw [length_filter_flows hexceeds, length_filter_flows hexceeds]
  refine (perm_eraseDups fun k => ?_).length_eq
  exact ((((h.flatMap_right _).filter _).map _)).mem_iff

/-- Nor does the summary of flows. -/
theorem summarizeFlows_perm (settings : Settings) (h : results.Perm results') :
    summarizeFlows settings (flows results) = summarizeFlows settings (flows results') := by
  have hall : FlowIndex.Threshold fun _ => true := fun _ _ => rfl
  have hmembers := length_filter_flows_perm hall h
  simp only [List.filter_true] at hmembers
  rw [summarizeFlows, summarizeFlows, hmembers,
    length_filter_flows_perm (FlowIndex.threshold_complexity settings.complexityThreshold) h,
    length_filter_flows_perm (FlowIndex.threshold_nesting settings.nestingThreshold) h]

/-! ### Dependencies -/

/-- Nor does that of dependencies. -/
theorem summarizeDependencies_perm (h : results.Perm results') :
    summarizeDependencies results = summarizeDependencies results' := by
  have hcount (names : FileResult → List String) :
      (results.flatMap names).eraseDups.length = (results'.flatMap names).eraseDups.length :=
    (perm_eraseDups fun _ => (h.flatMap_right names).mem_iff).length_eq
  rw [summarizeDependencies, summarizeDependencies, hcount, hcount]

end Merge

/-! ### Findings -/

section Findings

variable {results results' : List (String × FileResult)}

/-- The results of one path, of which there is at most one, are the same in every order. -/
theorem filter_path_eq_of_perm (h : results.Perm results')
    (hnodup : (results.map (·.1)).Nodup) (path : String) :
    results.filter (·.1 == path) = results'.filter (·.1 == path) := by
  -- any relation sorts these lists, since they hold one result at most
  have hall (rs : List (String × FileResult)) : rs.Pairwise fun _ _ => True :=
    List.pairwise_of_forall fun _ _ => trivial
  refine List.Perm.eq_of_pairwise (fun r r' hr hr' _ _ => ?_) (hall _) (hall _) (h.filter _)
  obtain ⟨hr, hpath⟩ := List.mem_filter.mp hr
  obtain ⟨hr', hpath'⟩ := List.mem_filter.mp hr'
  refine List.inj_on_of_nodup_map hnodup hr (h.mem_iff.mpr hr') ?_
  rw [eq_of_beq hpath, eq_of_beq hpath']

/-- The findings of the files that could be analysed. -/
def findings (results : List (String × FileResult)) : List Diagnostic :=
  ((results.map (·.2)).filter (·.analyzed)).flatMap (·.diagnostics)

/-- The findings of a file are those of the result of that path. -/
theorem filter_findings (howned : ∀ r ∈ results, ∀ d ∈ r.2.diagnostics, d.location.file = r.1)
    (file : String) : (findings results).filter (·.location.file == file) =
      findings (results.filter (·.1 == file)) := by
  rw [findings, List.filter_flatMap]
  induction results with
  | nil => rfl
  | cons r results ih =>
    have ih := ih fun r' hr' => howned r' (List.mem_cons_of_mem r hr')
    have hfile : r.2.diagnostics.filter (·.location.file == file) =
        if r.1 == file then r.2.diagnostics else [] := by
      split
      · rename_i hpath
        exact List.filter_eq_self.mpr fun d hd => by rw [howned r List.mem_cons_self d hd, hpath]
      · rename_i hpath
        exact List.filter_eq_nil_iff.mpr fun d hd => by rwa [howned r List.mem_cons_self d hd]
    simp only [findings] at ih ⊢
    cases hanalyzed : r.2.analyzed <;> cases hpath : r.1 == file <;>
      simp [hanalyzed, hpath, hfile, ih]

/-- Findings of different files are told apart by their file, so sorting forgets the order.
-/
theorem sort_findings_perm (h : results.Perm results') (hnodup : (results.map (·.1)).Nodup)
    (howned : ∀ r ∈ results, ∀ d ∈ r.2.diagnostics, d.location.file = r.1) :
    Diagnostics.sort (findings results) = Diagnostics.sort (findings results') := by
  refine Diagnostics.sort_eq_of_files fun file => ?_
  rw [filter_findings howned, filter_findings fun r hr => howned r (h.mem_iff.mpr hr),
    filter_path_eq_of_perm h hnodup]

/-- The report of some results does not depend on their order. -/
theorem mergeResults_perm (settings : Settings) (always : Bool) (warnings : List String)
    (h : results.Perm results') (hnodup : (results.map (·.1)).Nodup)
    (howned : ∀ r ∈ results, ∀ d ∈ r.2.diagnostics, d.location.file = r.1) :
    mergeResults settings always warnings (results.map (·.2)) =
      mergeResults settings always warnings (results'.map (·.2)) := by
  have hresults : (results.map (·.2)).Perm (results'.map (·.2)) := h.map _
  have hanalyzed := hresults.filter (·.analyzed)
  have hany (test : FileResult → Bool) : ((results.map (·.2)).filter (·.analyzed)).any test =
      ((results'.map (·.2)).filter (·.analyzed)).any test := hanalyzed.any_eq
  have hdiagnostics := sort_findings_perm h hnodup howned
  simp only [findings] at hdiagnostics
  have hwarnings : Merge.sortedOnce (warnings ++ (results.map (·.2)).filterMap (·.warning)) =
      Merge.sortedOnce (warnings ++ (results'.map (·.2)).filterMap (·.warning)) :=
    Merge.sortedOnce_congr fun _ => ((hresults.filterMap _).append_left warnings).mem_iff
  simp only [mergeResults, hdiagnostics, hwarnings, hany, hanalyzed.length_eq,
    Merge.metrics_perm hanalyzed, Merge.summarizeFlows_perm settings hanalyzed,
    Merge.summarizeDependencies_perm hanalyzed]

end Findings

end CSharpAudit
