import CSharpAudit.Report.Merge

/-!
# Workspaces

A workspace is what is analysed together: projects with their files, and the solution that names
them, if there is one. Files that belong to no project form a project of their own.

## Main definitions

* `ProjectFile`, `Project`, `Solution`, `Workspace` — the parts of a workspace
* `Workspace.sources` — the files to analyse, each once
* `Workspace.warnings`, `Workspace.references`, `Workspace.directories` — what all projects say
* `LoadError` — why something cannot be loaded
-/

namespace CSharpAudit

/-- What a file of a project is. -/
structure FileKind where
  word : String
  deriving DecidableEq, Repr, Inhabited

/-- A file with code. -/
def FileKind.source : FileKind := ⟨"source"⟩

/-- Any other file. -/
def FileKind.other : FileKind := ⟨"other"⟩

/-- A file of a project. -/
structure ProjectFile where
  path : String := ""
  kind : FileKind := ⟨""⟩
  language : String := ""
  deriving DecidableEq, Repr, Inhabited

/-- A file with code. -/
def ProjectFile.code (path : String) : ProjectFile :=
  { path, kind := .source, language := "csharp" }

/-- A project, or the files that belong to none. -/
structure Project where
  name : String := ""
  /-- The project file; empty if there is none. -/
  path : String := ""
  directory : String := ""
  files : List ProjectFile := []
  /-- What went wrong while the project was loaded. -/
  errors : List String := []
  /-- The assemblies that the project names. -/
  references : List String := []
  /-- The projects that the project names. -/
  projectReferences : List String := []
  deriving DecidableEq, Repr, Inhabited

/-- A solution, which names projects. -/
structure Solution where
  path : String := ""
  projects : List String := []
  errors : List String := []
  deriving DecidableEq, Repr, Inhabited

/-- What is analysed together. -/
structure Workspace where
  root : String := ""
  projects : List Project := []
  solution : Option Solution := none
  deriving DecidableEq, Repr, Inhabited

/-- A file to analyse, with the directory of its project. -/
structure SourceFile where
  path : String
  directory : String
  deriving DecidableEq, Repr, Inhabited

namespace Workspace

/-- The files with code that the projects list, in their order. -/
def listedSources (w : Workspace) : List SourceFile :=
  w.projects.flatMap fun p =>
    (p.files.filter (·.kind == .source)).map fun f => ⟨f.path, p.directory⟩

/-- The first of the files of each path. -/
def firstOfPath : List SourceFile → List SourceFile
  | [] => []
  | f :: rest => f :: (firstOfPath rest).filter (·.path != f.path)

/-- The files to analyse in the order of their paths. A file that several projects list counts for
the first of them. -/
def sources (w : Workspace) : List SourceFile :=
  (firstOfPath w.listedSources).mergeSort fun a b => (compare a.path b.path).isLE

/-- What went wrong in the solution and the projects, in order, each once. -/
def warnings (w : Workspace) : List String :=
  Merge.sortedOnce ((w.solution.map (·.errors)).getD [] ++ w.projects.flatMap (·.errors))

/-- The assemblies that the projects name, in order, each once. -/
def references (w : Workspace) : List String :=
  Merge.sortedOnce (w.projects.flatMap (·.references))

/-- The directories of the workspace and its projects, in order, each once. -/
def directories (w : Workspace) : List String :=
  Merge.sortedOnce (w.root :: w.projects.map (·.directory))

end Workspace

/-- Why a path cannot be loaded. -/
inductive LoadError where
  | inaccessible (path reason : String)
  /-- The path leads to a file of another kind. -/
  | unsupported (path : String)
  /-- A project file is not written as it must be. -/
  | malformed (path : String)
  /-- A solution has a line that is too long. -/
  | lineTooLong (path : String)
  deriving DecidableEq, Repr, Inhabited

/-- The message for users. -/
def LoadError.message : LoadError → String
  | inaccessible path reason => "load " ++ path ++ ": " ++ reason
  | unsupported path =>
    "load " ++ path ++ ": unsupported input, want .sln, .csproj, .cs or a directory"
  | malformed path => "load " ++ path ++ ": parse project XML"
  | lineTooLong path => "load " ++ path ++ ": bufio.Scanner: token too long"

end CSharpAudit
