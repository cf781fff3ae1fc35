import CSharpAudit.Workspace.Analysis
import CSharpAudit.Proofs.Merging
import Mathlib.Logic.Relation

/-!
# Workspaces in another order

The files of a workspace are analysed in the order of their paths, each once. If no patterns choose
among them, the report is fixed by which source files the projects list, what went wrong while they
were loaded and which assemblies they name; in what order and how often these are listed does not
matter. Each source file is either counted as analysed or noted in a warning.

## Main definitions

* `Workspace.sourcePaths` — the paths of the files to analyse
* `Workspace.Rearranged` — one change of the order in which a workspace lists things

## Main results

* `Workspace.analyze_congr` — what fixes the report
* `Workspace.analyze_accounts` — each source file is counted or noted
* `report_independent_of_order` — results and workspaces have the same report in every order
-/

namespace CSharpAudit

namespace Workspace

variable {w w' : Workspace}

/-! ### The files to analyse -/

theorem mem_map_path_firstOfPath {path : String} {fs : List SourceFile} :
    path ∈ (firstOfPath fs).map (·.path) ↔ path ∈ fs.map (·.path) := by
  induction fs with
  | nil => rfl
  | cons f fs ih =>
    rw [firstOfPath, List.map_cons, List.map_cons, List.mem_cons, List.mem_cons, ← ih]
    refine or_congr_right' fun hne => ?_
    simp only [List.mem_map, List.mem_filter, bne_iff_ne]
    grind

theorem nodup_map_path_firstOfPath (fs : List SourceFile) :
    ((firstOfPath fs).map (·.path)).Nodup := by
  induction fs with
  | nil => exact .nil
  | cons f fs ih =>
    rw [firstOfPath, List.map_cons, List.nodup_cons]
    exact ⟨by simp, ih.sublist (List.filter_sublist.map _)⟩

/-- The paths of the files to analyse, in order. -/
def sourcePaths (w : Workspace) : List String := w.sources.map (·.path)

theorem nodup_sourcePaths (w : Workspace) : w.sourcePaths.Nodup :=
  ((List.mergeSort_perm _ _).map _).nodup_iff.mpr (nodup_map_path_firstOfPath _)

/-- The files to analyse are the source files that projects list. -/
theorem mem_sourcePaths {path : String} : path ∈ w.sourcePaths ↔
    ∃ p ∈ w.projects, ∃ f ∈ p.files, f.kind = .source ∧ f.path = path := by
  rw [sourcePaths, sources, ((List.mergeSort_perm _ _).map _).mem_iff, mem_map_path_firstOfPath]
  simp only [listedSources, List.map_flatMap, List.map_map, List.mem_flatMap, List.mem_map,
    List.mem_filter, beq_iff_eq, Function.comp_apply, and_assoc]

/-- The files to analyse are fixed by which they are. -/
theorem sourcePaths_congr (h : ∀ path, path ∈ w.sourcePaths ↔ path ∈ w'.sourcePaths) :
    w.sourcePaths = w'.sourcePaths := by
  have hsorted (w : Workspace) :
      w.sourcePaths.Pairwise fun a b => (compare a b).isLE = true :=
    List.pairwise_map.mpr (List.pairwise_mergeSort (fun _ _ _ => Std.TransCmp.isLE_trans)
      (fun a b => isLE_total compare a.path b.path) _)
  exact texts_eq_of_perm
    ((List.perm_ext_iff_of_nodup (nodup_sourcePaths w) (nodup_sourcePaths w')).mpr h)
    (hsorted w) (hsorted w')

/-! ### The report -/

/-- The settings of the analysis of a workspace, with the assemblies that its projects name. -/
def settingsFor (w : Workspace) (settings : Settings) : Settings :=
  { settings with references := settings.references ++ w.references }

variable {settings : Settings}

theorem selected_of_isEmpty (hincluded : settings.workspace.included = [])
    (hexcluded : settings.workspace.excluded = []) :
    w.selected settings.workspace = (w.sources, []) := by
  have hnone (f : SourceFile) : f.describedBy w.root [] = false := rfl
  simp [selected, hincluded, hexcluded, hnone]

/-- If no patterns choose among the files, all are analysed in order. -/
theorem analyze_eq (fs : FileSystem) (hincluded : settings.workspace.included = [])
    (hexcluded : settings.workspace.excluded = []) :
    w.analyze fs settings = mergeResults (w.settingsFor settings) true w.warnings
      (w.sourcePaths.map (analyzeFile fs (w.settingsFor settings))) := by
  rw [analyze, selected_of_isEmpty hincluded hexcluded, sourcePaths, List.map_map]
  simp only [List.append_nil]
  rfl

/-- What the projects list fixes the report. -/
theorem analyze_congr (fs : FileSystem) (hincluded : settings.workspace.included = [])
    (hexcluded : settings.workspace.excluded = [])
    (hpaths : ∀ path, path ∈ w.sourcePaths ↔ path ∈ w'.sourcePaths)
    (hwarnings : w.warnings = w'.warnings) (hreferences : w.references = w'.references) :
    w.analyze fs settings = w'.analyze fs settings := by
  rw [analyze_eq fs hincluded hexcluded, analyze_eq fs hincluded hexcluded,
    sourcePaths_congr hpaths, hwarnings, settingsFor, settingsFor, hreferences]

/-! ### Changes of order -/

/-- One change of the order in which a workspace lists things: its projects or the files of a
project change places, or a project lists a source file that some project lists already. -/
inductive Rearranged : Workspace → Workspace → Prop
  | projects {w : Workspace} {projects : List Project} (h : w.projects.Perm projects) :
      Rearranged w { w with projects }
  | files {w : Workspace} {before after : List Project} {p : Project} {files : List ProjectFile}
      (hw : w.projects = before ++ p :: after) (h : p.files.Perm files) :
      Rearranged w { w with projects := before ++ { p with files } :: after }
  | listed {w : Workspace} {before after : List Project} {p : Project} {f : ProjectFile}
      (hw : w.projects = before ++ p :: after) (hf : f.kind = .source)
      (hlisted : f.path ∈ w.sourcePaths) :
      Rearranged w { w with projects := before ++ { p with files := f :: p.files } :: after }

theorem mem_sourcePaths_replace {before after : List Project} {p : Project}
    {files : List ProjectFile} {path : String} (hw : w.projects = before ++ p :: after)
    (hfiles : (∃ f ∈ files, f.kind = .source ∧ f.path = path) ↔
      ∃ f ∈ p.files, f.kind = .source ∧ f.path = path) :
    path ∈ sourcePaths { w with projects := before ++ { p with files } :: after } ↔
      path ∈ w.sourcePaths := by
  simp only [mem_sourcePaths, hw, List.mem_append, List.mem_cons, or_and_right, exists_or,
    exists_eq_left, hfiles]

theorem mem_sourcePaths_cons {before after : List Project} {p : Project} {f : ProjectFile}
    {path : String} (hw : w.projects = before ++ p :: after) (hf : f.kind = .source) :
    path ∈ sourcePaths { w with projects := before ++ { p with files := f :: p.files } :: after } ↔
      path = f.path ∨ path ∈ w.sourcePaths := by
  simp only [mem_sourcePaths, hw, List.mem_append, List.mem_cons, or_and_right, exists_or,
    exists_eq_left, hf, true_and, eq_comm (a := path)]
  exact or_left_comm.trans (or_assoc.trans (or_congr_right or_left_comm))

theorem warnings_replace {before after : List Project} {p : Project} {files : List ProjectFile}
    (hw : w.projects = before ++ p :: after) :
    warnings { w with projects := before ++ { p with files } :: after } = w.warnings := by
  simp only [warnings, hw, List.flatMap_append, List.flatMap_cons]

theorem references_replace {before after : List Project} {p : Project} {files : List ProjectFile}
    (hw : w.projects = before ++ p :: after) :
    references { w with projects := before ++ { p with files } :: after } = w.references := by
  simp only [references, hw, List.flatMap_append, List.flatMap_cons]

/-- The report does not depend on the order in which a workspace lists things. -/
theorem Rearranged.analyze_eq (fs : FileSystem) (hincluded : settings.workspace.included = [])
    (hexcluded : settings.workspace.excluded = []) (h : Rearranged w w') :
    w.analyze fs settings = w'.analyze fs settings := by
  cases h with
  | projects h =>
    refine analyze_congr fs hincluded hexcluded (fun path => ?_) ?_ ?_
    · simp only [mem_sourcePaths, h.mem_iff]
    · exact Merge.sortedOnce_congr fun _ =>
        ((h.flatMap_right Project.errors).append_left _).mem_iff
    · exact Merge.sortedOnce_congr fun _ => (h.flatMap_right Project.references).mem_iff
  | files hw h =>
    refine analyze_congr fs hincluded hexcluded (fun path => ?_) (warnings_replace hw).symm
      (references_replace hw).symm
    exact (mem_sourcePaths_replace hw (by simp only [h.mem_iff])).symm
  | @listed before after p f hw hf hlisted =>
    refine analyze_congr fs hincluded hexcluded (fun path => ?_) (warnings_replace hw).symm
      (references_replace hw).symm
    -- its path is among the others already
    rw [mem_sourcePaths_cons hw hf]
    exact ⟨.inr, fun h => h.elim (fun hpath => hpath ▸ hlisted) id⟩

/-! ### What becomes of a file -/

/-- A file is analysed, or it is skipped with a warning that begins with its path. -/
theorem analyzeFile_cases (fs : FileSystem) (settings : Settings) (path : String) :
    ((analyzeFile fs settings path).analyzed = true ∧
      (analyzeFile fs settings path).warning = none) ∨
    ((analyzeFile fs settings path).analyzed = false ∧
      ∃ reason, (analyzeFile fs settings path).warning = some (path ++ ": " ++ reason)) := by
  unfold analyzeFile
  split
  · exact .inr ⟨rfl, _, rfl⟩
  · split
    · exact .inr ⟨rfl, _, rfl⟩
    · exact .inl ⟨rfl, rfl⟩

/-- Each source file is counted as analysed or noted in one warning that begins with its path; all
other warnings are those of the workspace. -/
theorem analyze_accounts (fs : FileSystem) (hincluded : settings.workspace.included = [])
    (hexcluded : settings.workspace.excluded = []) :
    (w.analyze fs settings).filesAnalyzed =
      (w.sourcePaths.filter fun p => (analyzeFile fs (w.settingsFor settings) p).analyzed).length ∧
    (∀ p ∈ w.sourcePaths,
      ((analyzeFile fs (w.settingsFor settings) p).analyzed = true ∧
        (analyzeFile fs (w.settingsFor settings) p).warning = none) ∨
      ((analyzeFile fs (w.settingsFor settings) p).analyzed = false ∧ ∃ reason,
        (analyzeFile fs (w.settingsFor settings) p).warning = some (p ++ ": " ++ reason) ∧
          (w.analyze fs settings).warnings.count (p ++ ": " ++ reason) = 1)) ∧
    ∀ text ∈ (w.analyze fs settings).warnings, text ∈ w.warnings ∨
      ∃ p ∈ w.sourcePaths, (analyzeFile fs (w.settingsFor settings) p).warning = some text := by
  -- Merging sorts the warnings and drops repetitions, so membership is all there is to it.
  have hwarnings (text : String) : text ∈ (w.analyze fs settings).warnings ↔ text ∈ w.warnings ∨
      ∃ p ∈ w.sourcePaths, (analyzeFile fs (w.settingsFor settings) p).warning = some text := by
    rw [analyze_eq fs hincluded hexcluded, mergeResults, Merge.mem_sortedOnce, List.mem_append,
      List.filterMap_map, List.mem_filterMap]
    rfl
  refine ⟨?_, fun p hp => ?_, fun text => (hwarnings text).mp⟩
  · rw [analyze_eq fs hincluded hexcluded, mergeResults, List.filter_map, List.length_map]
    rfl
  · refine (analyzeFile_cases fs (w.settingsFor settings) p).imp_right fun hskipped => ?_
    obtain ⟨hanalyzed, reason, hwarning⟩ := hskipped
    refine ⟨hanalyzed, reason, hwarning, List.count_eq_one_of_mem ?_ ?_⟩
    · rw [analyze_eq fs hincluded hexcluded]
      exact Merge.nodup_sortedOnce
    · exact (hwarnings _).mpr (.inr ⟨p, hp, hwarning⟩)

end Workspace

/-- The report of some results does not depend on the order in which they are merged, if they are of
different files and each finding lies in the file of its result. The report of a workspace, if no
patterns choose among its files, does not depend on the order of projects or of their files, nor on
how many projects list a file; and each source file is counted as analysed or noted in one warning
that begins with its path. -/
theorem report_independent_of_order :
    (∀ (settings : Settings) (always : Bool) (warnings : List String)
      (results results' : List (String × FileResult)), results.Perm results' →
      (results.map (·.1)).Nodup →
      (∀ r ∈ results, ∀ d ∈ r.2.diagnostics, d.location.file = r.1) →
      mergeResults settings always warnings (results.map (·.2)) =
        mergeResults settings always warnings (results'.map (·.2))) ∧
    ∀ (fs : FileSystem) (settings : Settings), settings.workspace.included = [] →
      settings.workspace.excluded = [] →
      (∀ w w' : Workspace, Relation.EqvGen Workspace.Rearranged w w' →
        w.analyze fs settings = w'.analyze fs settings) ∧
      ∀ w : Workspace, w.sourcePaths.Nodup ∧
        (∀ path, path ∈ w.sourcePaths ↔
          ∃ p ∈ w.projects, ∃ f ∈ p.files, f.kind = .source ∧ f.path = path) ∧
        (w.analyze fs settings).filesAnalyzed = (w.sourcePaths.filter fun p =>
          (Workspace.analyzeFile fs (w.settingsFor settings) p).analyzed).length ∧
        (∀ p ∈ w.sourcePaths,
          ((Workspace.analyzeFile fs (w.settingsFor settings) p).analyzed = true ∧
            (Workspace.analyzeFile fs (w.settingsFor settings) p).warning = none) ∨
          ((Workspace.analyzeFile fs (w.settingsFor settings) p).analyzed = false ∧ ∃ reason,
            (Workspace.analyzeFile fs (w.settingsFor settings) p).warning =
                some (p ++ ": " ++ reason) ∧
              (w.analyze fs settings).warnings.count (p ++ ": " ++ reason) = 1)) ∧
        ∀ text ∈ (w.analyze fs settings).warnings, text ∈ w.warnings ∨ ∃ p ∈ w.sourcePaths,
          (Workspace.analyzeFile fs (w.settingsFor settings) p).warning = some text := by
  refine ⟨fun settings always warnings results results' h hnodup howned =>
    mergeResults_perm settings always warnings h hnodup howned, fun fs settings hincluded hexcluded =>
    ⟨fun w w' h => ?_, fun w => ⟨w.nodup_sourcePaths, fun _ => Workspace.mem_sourcePaths,
      Workspace.analyze_accounts fs hincluded hexcluded⟩⟩⟩
  induction h with
  | rel w w' h => exact h.analyze_eq fs hincluded hexcluded
  | refl w => rfl
  | symm w w' _ ih => exact ih.symm
  | trans w w' w'' _ _ ih ih' => exact ih.trans ih'

/-- Two files with findings at the same place of each and one that cannot be read may be merged in
either order. -/
theorem report_of_files_reversed :
    let finding (file : String) : Diagnostic := .ofCode .unreachable { file, line := 3 } ""
    let results : List (String × FileResult) := [("B.cs", { diagnostics := [finding "B.cs"] }),
      ("C.cs", .skipped "C.cs: unreadable"), ("A.cs", { diagnostics := [finding "A.cs"] })]
    (results.map (·.1)).Nodup ∧ (∀ r ∈ results, ∀ d ∈ r.2.diagnostics, d.location.file = r.1) ∧
      mergeResults {} false [] (results.map (·.2)) =
        mergeResults {} false [] (results.reverse.map (·.2)) := by
  intro finding results
  have hnodup : (results.map (·.1)).Nodup := by decide
  have howned : ∀ r ∈ results, ∀ d ∈ r.2.diagnostics, d.location.file = r.1 := by
    simp [results, finding, FileResult.skipped, Diagnostic.ofCode]
  exact ⟨hnodup, howned, report_independent_of_order.1 {} false [] results _
    (List.reverse_perm results).symm hnodup howned⟩

end CSharpAudit
