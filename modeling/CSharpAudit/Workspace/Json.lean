import CSharpAudit.Json.Overlay
import CSharpAudit.Workspace.Basic

/-!
# Workspaces as JSON

## Main definitions

* `Workspace.toJson` — a workspace as JSON
* `Workspace.overlay` — how JSON changes a workspace
-/

namespace CSharpAudit

/-- A list of texts that is left out if it is empty. -/
def textsField (name : String) (texts : List String) : List (String × Json) :=
  if texts.isEmpty then [] else [(name, .strings texts)]

/-- A text that is left out if it is empty. -/
def textField (name text : String) : List (String × Json) :=
  if text.isEmpty then [] else [(name, .string text)]

/-- A file as JSON. -/
def ProjectFile.toJson (f : ProjectFile) : Json :=
  .object ([("path", Json.string f.path), ("kind", Json.string f.kind.word)]
    ++ textField "language" f.language)

/-- A project as JSON. -/
def Project.toJson (p : Project) : Json :=
  .object ([("name", Json.string p.name)] ++ textField "path" p.path
    ++ [("dir", Json.string p.directory), ("files", Json.array (p.files.map ProjectFile.toJson))]
    ++ textsField "errors" p.errors ++ textsField "references" p.references
    ++ textsField "project_refs" p.projectReferences)

/-- A solution as JSON. -/
def Solution.toJson (s : Solution) : Json :=
  .object ([("path", Json.string s.path), ("projects", Json.strings s.projects)]
    ++ textsField "errors" s.errors)

/-- A workspace as JSON. -/
def Workspace.toJson (w : Workspace) : Json :=
  .object ([("root", Json.string w.root), ("projects", Json.array (w.projects.map Project.toJson))]
    ++ (w.solution.map fun s => ("solution", s.toJson)).toList)

open Overlay in
/-- How JSON changes a file. -/
def ProjectFile.overlay : Overlay ProjectFile := fields [
  ("path", part (·.path) (fun f v => { f with path := v }) string),
  ("kind", part (·.kind.word) (fun f v => { f with kind := ⟨v⟩ }) string),
  ("language", part (·.language) (fun f v => { f with language := v }) string)]

open Overlay in
/-- How JSON changes a project. -/
def Project.overlay : Overlay Project := fields [
  ("name", part (·.name) (fun p v => { p with name := v }) string),
  ("path", part (·.path) (fun p v => { p with path := v }) string),
  ("dir", part (·.directory) (fun p v => { p with directory := v }) string),
  ("files", part (·.files) (fun p v => { p with files := v }) (list {} ProjectFile.overlay)),
  ("errors", part (·.errors) (fun p v => { p with errors := v }) (list "" string)),
  ("references", part (·.references) (fun p v => { p with references := v }) (list "" string)),
  ("project_refs",
    part (·.projectReferences) (fun p v => { p with projectReferences := v }) (list "" string))]

open Overlay in
/-- How JSON changes a solution. -/
def Solution.overlay : Overlay Solution := fields [
  ("path", part (·.path) (fun s v => { s with path := v }) string),
  ("projects", part (·.projects) (fun s v => { s with projects := v }) (list "" string)),
  ("errors", part (·.errors) (fun s v => { s with errors := v }) (list "" string))]

open Overlay in
/-- How JSON changes a workspace. -/
def Workspace.overlay : Overlay Workspace := fields [
  ("root", part (·.root) (fun w v => { w with root := v }) string),
  ("projects", part (·.projects) (fun w v => { w with projects := v }) (list {} Project.overlay)),
  ("solution",
    part (·.solution) (fun w v => { w with solution := v }) (optional {} Solution.overlay))]

end CSharpAudit
