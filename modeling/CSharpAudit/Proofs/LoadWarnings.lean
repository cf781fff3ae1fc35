import CSharpAudit.Workspace.Load
import CSharpAudit.Proofs.Sorting
import Mathlib.Data.List.Forall2

/-!
# Warnings of several workspaces

If several paths can be loaded, they can be loaded together. All projects are kept then, each with
what went wrong while it was loaded. Of the solutions only the first is kept, so what went wrong in
a later one is told only if the first one or a project tells the same.

## Main definitions

* `Workspace.askedFor` — the paths that are loaded
* `Workspace.solutionsOf` — the solutions among some workspaces
* `Workspace.Told` — what is told of some workspaces that are loaded together

## Main results

* `Workspace.mem_warnings_foldl_merge` — the warnings of several workspaces
* `Workspace.warnings_loadAll_iff` — when no warning of a path is lost
-/

namespace CSharpAudit.Workspace

variable {fs : FileSystem} {follow : Bool} {paths : List String} {w first : Workspace}
  {ws rest : List Workspace} {text : String}

/-- A warning was told by the solution or by a project. -/
theorem mem_warnings : text ∈ w.warnings ↔
    (∃ s ∈ w.solution, text ∈ s.errors) ∨ ∃ p ∈ w.projects, text ∈ p.errors := by
  rw [warnings, Merge.mem_sortedOnce, List.mem_append, List.mem_flatMap]
  cases w.solution <;> simp

/-! ### Several workspaces -/

/-- The solutions among some workspaces. -/
def solutionsOf (ws : List Workspace) : List Solution := ws.filterMap (·.solution)

/-- What is told of some workspaces that are loaded together: what went wrong in the first of their
solutions and in their projects. -/
def Told (ws : List Workspace) (text : String) : Prop :=
  (∃ s ∈ (solutionsOf ws).head?, text ∈ s.errors) ∨ ∃ v ∈ ws, ∃ p ∈ v.projects, text ∈ p.errors

/-- Merging keeps the projects of all workspaces. -/
theorem projects_foldl_merge (first : Workspace) (rest : List Workspace) :
    (rest.foldl merge first).projects = (first :: rest).flatMap (·.projects) := by
  induction rest generalizing first with
  | nil => simp
  | cons next rest ih => simp [ih, merge]

/-- It keeps the first solution only. -/
theorem solution_foldl_merge (first : Workspace) (rest : List Workspace) :
    (rest.foldl merge first).solution = (solutionsOf (first :: rest)).head? := by
  induction rest generalizing first with
  | nil => cases hs : first.solution <;> simp [solutionsOf, hs]
  | cons next rest ih =>
    rw [List.foldl_cons, ih]
    cases hs : first.solution <;> cases hs' : next.solution <;>
      simp [solutionsOf, merge, hs, hs']

/-- So a warning is kept if the first solution or a project tells it. -/
theorem mem_warnings_foldl_merge :
    text ∈ (rest.foldl merge first).warnings ↔ Told (first :: rest) text := by
  rw [mem_warnings, solution_foldl_merge, projects_foldl_merge, Told]
  refine or_congr_right ⟨?_, ?_⟩
  · rintro ⟨p, hp, htext⟩
    obtain ⟨v, hv, hp⟩ := List.mem_flatMap.mp hp
    exact ⟨v, hv, p, hp, htext⟩
  · rintro ⟨v, hv, p, hp, htext⟩
    exact ⟨p, List.mem_flatMap.mpr ⟨v, hv, hp⟩, htext⟩

/-- What some workspaces tell, each for itself, concerns one of their solutions or projects. -/
theorem exists_mem_warnings : (∃ v ∈ ws, text ∈ v.warnings) ↔
    (∃ s ∈ solutionsOf ws, text ∈ s.errors) ∨ ∃ v ∈ ws, ∃ p ∈ v.projects, text ∈ p.errors := by
  simp only [mem_warnings, and_or_left, exists_or, solutionsOf, List.mem_filterMap]
  refine or_congr_left ⟨?_, ?_⟩
  · rintro ⟨v, hv, s, hs, htext⟩
    exact ⟨s, ⟨v, hv, hs⟩, htext⟩
  · rintro ⟨s, ⟨v, hv, hs⟩, htext⟩
    exact ⟨v, hv, s, hs, htext⟩

/-- All that several workspaces tell, each for itself, is told of them together if and only if it is
so for what concerns a solution behind the first. -/
theorem told_iff_exists_mem_warnings :
    (∀ text, Told ws text ↔ ∃ v ∈ ws, text ∈ v.warnings) ↔
      ∀ s ∈ (solutionsOf ws).tail, ∀ text ∈ s.errors, Told ws text := by
  simp only [exists_mem_warnings]
  constructor
  · intro hall s hs text htext
    exact (hall text).mpr (.inl ⟨s, List.mem_of_mem_tail hs, htext⟩)
  · intro hlater text
    constructor
    · exact Or.imp_left fun ⟨s, hs, htext⟩ => ⟨s, List.mem_of_mem_head? hs, htext⟩
    · rintro (⟨s, hs, htext⟩ | hproject)
      · -- the first solution is kept, the others are those of which it is asked
        cases hsolutions : solutionsOf ws with
        | nil => simp [hsolutions] at hs
        | cons s' later =>
          rw [hsolutions] at hs hlater
          rcases List.mem_cons.mp hs with rfl | hs
          · exact .inl ⟨s, by simp [hsolutions], htext⟩
          · exact hlater s hs text htext
      · exact .inr hproject

/-! ### Several paths -/

/-- The paths that are loaded: the current directory if none are given. -/
def askedFor (paths : List String) : List String := if paths.isEmpty then ["."] else paths

theorem askedFor_ne_nil (paths : List String) : askedFor paths ≠ [] := by
  cases paths <;> simp [askedFor]

/-- Several paths load if each of them does. -/
theorem mapM_load_eq_ok
    (h : List.Forall₂ (fun path v => load fs follow path = .ok v) paths ws) :
    paths.mapM (load fs follow) = .ok ws := by
  induction h with
  | nil => rfl
  | cons hload _ ih =>
    rw [List.mapM_cons, hload, ih]
    rfl

/-- Paths that can be loaded can be loaded together. The warnings are then those of the projects and
of the first solution, which are those of all paths if and only if what went wrong in a later
solution is among them. -/
theorem warnings_loadAll_iff (fs : FileSystem) (follow : Bool) (paths : List String)
    (ws : List Workspace)
    (h : List.Forall₂ (fun path v => load fs follow path = .ok v) (askedFor paths) ws) :
    ∃ w, loadAll fs follow paths = .ok w ∧ (∀ text, text ∈ w.warnings ↔ Told ws text) ∧
      ((∀ text, text ∈ w.warnings ↔ ∃ v ∈ ws, text ∈ v.warnings) ↔
        ∀ s ∈ (solutionsOf ws).tail, ∀ text ∈ s.errors, Told ws text) := by
  cases ws with
  | nil => exact absurd (List.forall₂_nil_right_iff.mp h) (askedFor_ne_nil paths)
  | cons first rest =>
    refine ⟨rest.foldl merge first, ?_, fun text => mem_warnings_foldl_merge, ?_⟩
    · rw [loadAll, ← askedFor, mapM_load_eq_ok h]
      rfl
    · simp only [mem_warnings_foldl_merge]
      exact told_iff_exists_mem_warnings

/-- Two solutions that name a project each that is not there. -/
def twoSolutionsDisk : FileSystem where
  root :=
    let naming (name : String) : FileTree := .file <| List.map Lexer.ascii <| String.toList <|
      "Project(\"\x7bA\x7d\") = \"" ++ name ++ "\", \"" ++ name ++ ".csproj\", \"\x7bB\x7d\""
    .directory [("ws", .directory [("One.sln", naming "First"), ("Two.sln", naming "Second")])]
  current := "/ws"

/-- What is loaded from one of the solutions. -/
def solutionOfMissing (file name : String) : Workspace where
  root := "/ws"
  solution := some {
    path := "/ws/" ++ file
    projects := ["/ws/" ++ name ++ ".csproj"]
    errors := ["project " ++ name ++ ": load /ws/" ++ name ++ ".csproj: open /ws/" ++ name ++
      ".csproj: no such file or directory"] }

theorem forall₂_load_twoSolutionsDisk :
    List.Forall₂ (fun path v => load twoSolutionsDisk true path = .ok v)
      (askedFor ["One.sln", "Two.sln"])
      [solutionOfMissing "One.sln" "First", solutionOfMissing "Two.sln" "Second"] := by
  have hload : load twoSolutionsDisk true "One.sln" = .ok (solutionOfMissing "One.sln" "First") ∧
      load twoSolutionsDisk true "Two.sln" = .ok (solutionOfMissing "Two.sln" "Second") := by
    decide +kernel
  exact .cons hload.1 (.cons hload.2 .nil)

theorem twoSolutionsDisk_warnings_loadAll_iff :
    let ws := [solutionOfMissing "One.sln" "First", solutionOfMissing "Two.sln" "Second"]
    List.Forall₂ (fun path v => load twoSolutionsDisk true path = .ok v)
      (askedFor ["One.sln", "Two.sln"]) ws ∧
    ∃ w, loadAll twoSolutionsDisk true ["One.sln", "Two.sln"] = .ok w ∧
      ((∀ text, text ∈ w.warnings ↔ ∃ v ∈ ws, text ∈ v.warnings) ↔
        ∀ s ∈ (solutionsOf ws).tail, ∀ text ∈ s.errors, Told ws text) := by
  intro ws
  have hload := forall₂_load_twoSolutionsDisk
  obtain ⟨w, hall, -, hlost⟩ := warnings_loadAll_iff twoSolutionsDisk true _ ws hload
  exact ⟨hload, w, hall, hlost⟩

/-- What went wrong in the second solution is not told when both are loaded. -/
theorem twoSolutionsDisk_warning_lost :
    let text := "project Second: load /ws/Second.csproj: open /ws/Second.csproj: no such file " ++
      "or directory"
    ∃ v w, load twoSolutionsDisk true "Two.sln" = .ok v ∧ text ∈ v.warnings ∧
      loadAll twoSolutionsDisk true ["One.sln", "Two.sln"] = .ok w ∧ text ∉ w.warnings := by
  intro text
  have hload := forall₂_load_twoSolutionsDisk
  refine ⟨solutionOfMissing "Two.sln" "Second", solutionOfMissing "One.sln" "First", ?_,
    by decide +kernel, ?_, by decide +kernel⟩
  · exact (List.forall₂_cons.mp (List.forall₂_cons.mp hload).2).1
  · rw [loadAll, ← askedFor, mapM_load_eq_ok hload]
    rfl

end CSharpAudit.Workspace
