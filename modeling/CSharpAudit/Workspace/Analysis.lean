import CSharpAudit.Assembly.Image
import CSharpAudit.Files.Glob
import CSharpAudit.Files.Tree
import CSharpAudit.Workspace.Basic

/-!
# Analysing workspaces

The files of a workspace are chosen by patterns and analysed one by one; the report is merged from
their results. A file that cannot be read or parsed is noted.

## Main definitions

* `Workspace.selected` — the files that the settings choose
* `Workspace.analyze` — the report of a workspace
-/

namespace CSharpAudit

namespace SourceFile

/-- The paths by which patterns know a file: as seen from the directory of its project and from the
root of the workspace, if it lies below them. -/
def candidates (root : String) (f : SourceFile) : List String :=
  [f.directory, root].filterMap fun base =>
    if base.isEmpty then none
    else (Path.relative? base f.path).filter fun p => p != ".." && !p.startsWith "../"

/-- Whether one of some patterns describes a file. -/
def describedBy (root : String) (patterns : List String) (f : SourceFile) : Bool :=
  patterns.any fun p => (f.candidates root).any (Glob.describes false p)

end SourceFile

namespace Workspace

/-- The files that the settings choose, and what is wrong with their patterns. A pattern that is not
well formed makes all files count. -/
def selected (w : Workspace) (settings : WorkspaceSettings) : List SourceFile × List String :=
  let faults := ((settings.included ++ settings.excluded).filter (!Glob.wellFormed ·)).map
    fun p => "invalid glob pattern " ++ Text.Quoted.text p ++ ", file filtering disabled"
  if faults.isEmpty then
    (w.sources.filter fun f =>
      (settings.included.isEmpty || f.describedBy w.root settings.included)
        && !f.describedBy w.root settings.excluded, [])
  else (w.sources, faults)

/-- The types of the assemblies on a disk. -/
def assemblyTypes (fs : FileSystem) : AssemblyTypes := fun path =>
  (fs.read path).toOption.bind fun bytes => (readTypes bytes).toOption

/-- What comes of a file. -/
def analyzeFile (fs : FileSystem) (settings : Settings) (path : String) : FileResult :=
  match fs.read path with
  | .error reason => .skipped (path ++ ": " ++ reason)
  | .ok source =>
    match CSharpAudit.analyze settings (assemblyTypes fs) { file := path, source } with
    | .error e => .skipped (path ++ ": " ++ e.message source)
    | .ok session => .ofSession session

/-- The report of a workspace. -/
def analyze (fs : FileSystem) (settings : Settings) (w : Workspace) : Report :=
  let (files, faults) := w.selected settings.workspace
  let settings := { settings with references := settings.references ++ w.references }
  mergeResults settings true (w.warnings ++ faults)
    (files.map fun f => analyzeFile fs settings f.path)

end Workspace

end CSharpAudit
