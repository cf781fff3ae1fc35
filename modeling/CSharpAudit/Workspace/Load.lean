import CSharpAudit.Workspace.Project

/-!
# Loading workspaces

A workspace is loaded from a solution, a project, a directory or a single file. Projects that a
project names are loaded after it, each once. A project that cannot be read is noted where it is
named; only if it is what was asked for, nothing is loaded.

## Main definitions

* `Reached` — what comes of loading a project and those it names
* `reach`, `reachAll` — following the references of projects
* `Workspace.load` — the workspace of a path
* `Workspace.loadAll` — the workspace of several paths
-/

namespace CSharpAudit

/-- What comes of loading a project and those it names. -/
structure Reached where
  /-- All project files that have been tried so far. -/
  seen : List String
  /-- The projects that have been loaded, each before those it names. -/
  projects : List Project := []
  error : Option LoadError := none
  deriving Inhabited

/-- Loads several projects one after the other, each with knowledge of those before. -/
def reachAll (visit : List String → String → Reached) :
    List String → List String → List String × List Reached
  | seen, [] => (seen, [])
  | seen, path :: rest =>
    let r := visit seen path
    let (seen, rs) := reachAll visit r.seen rest
    (seen, r :: rs)

/-- Where projects come from. -/
structure ProjectSource where
  read : String → Except LoadError Project
  /-- Whether a path leads to something. -/
  present : String → Bool
  /-- Whether the projects that a project names are loaded as well. -/
  follow : Bool

/-- Loads a project and, if references are followed, those it names, unless they have been tried
before. -/
def reach (source : ProjectSource) : Nat → List String → String → Reached
  | 0, seen, _ => { seen }
  | fuel + 1, seen, path =>
    if seen.contains path then { seen }
    else
      let seen := path :: seen
      match source.read path with
      | .error e => { seen, error := some e }
      | .ok p =>
        if !source.follow then { seen, projects := [p] }
        else
          let named := p.projectReferences.filter source.present
          let (seen, rs) := reachAll (reach source fuel) seen named
          let notes := (named.zip rs).filterMap fun (ref, r) =>
            r.error.map fun e => "ProjectReference " ++ ref ++ ": " ++ e.message
          { seen, projects := { p with errors := p.errors ++ notes } :: rs.flatMap (·.projects) }

/-! ### Workspaces -/

/-- The directories that hold no code of a workspace. -/
def isSkippedDirectory (name : String) : Bool :=
  ["bin", "obj", ".git", ".vs", "node_modules"].contains name

namespace Workspace

/-- Why a path with stray bytes leads nowhere: the names on a disk are texts. -/
def strayError (fs : FileSystem) (path : String) : LoadError :=
  let reason := match fs.lookup true path with
    | .error e => e
    | .ok _ => .missing
  .inaccessible path ("open " ++ path ++ ": " ++ reason.message)

/-- How projects are read from a disk. -/
def projectSource (fs : FileSystem) (follow : Bool) : ProjectSource where
  read path :=
    if Text.Stray.isFree path then readProject fs path
    else .error (strayError fs (Text.Stray.shown path))
  present := fs.contains
  follow := follow

/-- A bound of how many projects can name each other in a row: each is read along a path of its own,
and a path has at most `FileSystem.maxPath` bytes, each of which is there with one of 256 values or
is not there. -/
def maxDepth : Nat := Nat.pow 257 FileSystem.maxPath + 1

/-- Loads projects from a disk. -/
def reachProjects (fs : FileSystem) (follow : Bool) (paths : List String) : List Reached :=
  (reachAll (reach (projectSource fs follow) maxDepth) [] paths).2

/-- The projects that have been loaded, unless one that was asked for could not be. -/
def requireAll (rs : List Reached) : Except LoadError (List Project) :=
  match rs.findSome? (·.error) with
  | some e => .error e
  | none => .ok (rs.flatMap (·.projects))

/-- The workspace of a directory: the projects below it, or all files with code if there is none. -/
def ofDirectory (fs : FileSystem) (follow : Bool) (dir : String) : Except LoadError Workspace := do
  let files := fs.filesBelow isSkippedDirectory dir
  let ofKind (ext : String) := files.filter fun f => Text.lowered (Path.extension f) == ext
  let projects := ofKind ".csproj"
  if projects.isEmpty then
    return { root := dir
             projects := [{ name := Path.base dir
                            directory := dir
                            files := (ofKind ".cs").map .code }] }
  else return { root := dir, projects := ← requireAll (reachProjects fs follow projects) }

/-- The workspace of a solution. -/
def ofSolution (fs : FileSystem) (follow : Bool) (path : String) : Except LoadError Workspace := do
  let bytes ← (fs.read path).mapError (.inaccessible path)
  let some entries := SolutionEntry.ofBytes? bytes | throw (.lineTooLong path)
  let root := Path.directory path
  let places := entries.map fun e => Path.join root e.path
  let rs := reachProjects fs follow places
  let errors := (entries.zip rs).filterMap fun (e, r) =>
    r.error.map fun error => "project " ++ e.name ++ ": " ++ error.message
  return { root
           projects := rs.flatMap (·.projects)
           solution := some { path, projects := places.map Text.Stray.shown, errors } }

/-- The workspace of a project file. -/
def ofProject (fs : FileSystem) (follow : Bool) (path : String) : Except LoadError Workspace := do
  return { root := Path.directory path
           projects := ← requireAll (reachProjects fs follow [path]) }

/-- The workspace of a single file. -/
def ofFile (path : String) : Workspace :=
  let directory := Path.directory path
  { root := directory
    projects := [{ name := Path.stem path, directory, files := [.code path] }] }

/-- The workspace of a path. -/
def load (fs : FileSystem) (follow : Bool) (path : String) : Except LoadError Workspace := do
  let t ← (fs.lookup true path).mapError fun e =>
    LoadError.inaccessible path ("stat " ++ path ++ ": " ++ e.message)
  let full := fs.absolute path
  if t.isDirectory then ofDirectory fs follow full
  else match Text.lowered (Path.extension full) with
    | ".sln" => ofSolution fs follow full
    | ".csproj" => ofProject fs follow full
    | ".cs" => return ofFile full
    | _ => throw (.unsupported path)

/-- The workspace of several: the root is that of the first, the solution the first there is. -/
def merge (a b : Workspace) : Workspace :=
  { a with projects := a.projects ++ b.projects, solution := a.solution.or b.solution }

/-- The workspace of several paths, or of the current directory if there are none. -/
def loadAll (fs : FileSystem) (follow : Bool) (paths : List String) :
    Except LoadError Workspace := do
  match ← (if paths.isEmpty then ["."] else paths).mapM (load fs follow) with
  | [] => return {}
  | first :: rest => return rest.foldl merge first

end Workspace

end CSharpAudit
