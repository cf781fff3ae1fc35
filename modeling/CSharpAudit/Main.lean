import CSharpAudit.CommandLine.Run
import CSharpAudit.Watch.State

/-!
# The program

Before anything is decided, the files that may matter are read from the disk; all decisions are made
on what was read, and what they leave is written.

## Main definitions

* `Program.snapshot` — the tree of a place on the disk
* `Program.gather` — the part of the disk that a run may look at
* `main` — the program
-/

namespace CSharpAudit.Program

/-- The tree of a place on the disk. A link leads to the place it finally stands for. -/
partial def snapshot (path : String) : IO FileTree := do
  let place := (← IO.currentDir) / path
  if ← place.isDir then
    let real := (← IO.FS.realPath place).toString
    let entries ← (← place.readDir).toList.mapM fun e => do
      let child := Path.join path e.fileName
      let target := (← IO.FS.realPath e.path).toString
      if target != Path.join real e.fileName then return (e.fileName, FileTree.link target)
      else if e.fileName == ".git" || e.fileName == "node_modules" then
        return (e.fileName, FileTree.empty)
      else return (e.fileName, ← snapshot child)
    return .directory (entries.mergeSort fun a b => (compare a.1 b.1).isLE)
  else return .file (← try pure (← IO.FS.readBinFile place).toList catch _ => pure [])

/-- A disk with a place read, if there is something. -/
def add (fs : FileSystem) (path : String) : IO FileSystem := do
  let path := fs.absolute path
  if fs.contains path || !(← ((← IO.currentDir) / path).pathExists) then return fs
  return { fs with root := fs.root.insert (Path.steps path) (← snapshot path) }

/-- What a workspace names outside of its files. -/
def named (w : Workspace) : List String :=
  (w.solution.map (·.projects)).getD []
    ++ w.projects.flatMap fun p => p.projectReferences ++ p.references

/-- Reads what a workspace names until nothing is missing. -/
partial def complete (fs : FileSystem) (c : Configuration) (inputs : List String) :
    IO FileSystem := do
  match Workspace.loadAll fs c.analysis.workspace.followReferences inputs with
  | .error _ => return fs
  | .ok w =>
    let more ← (named w).foldlM (fun fs path => do
      if fs.contains path then return fs
      let fs ← add fs path
      if path.endsWith "proj" then add fs (Path.directory path) else return fs) fs
    if more.root.count == fs.root.count then return fs else complete more c inputs

/-- The part of the disk that a run may look at. -/
def gather (o : Options) : IO FileSystem := do
  let current := (← IO.currentDir).toString
  let start : FileSystem := { root := .empty, current }
  let fs ← ([".", o.config] ++ o.inputs).foldlM add start
  match Configuration.load fs o.config with
  | .error _ => return fs
  | .ok c =>
    let fs ← c.analysis.references.foldlM add fs
    complete fs (o.apply c) o.inputs

/-- Shows what a run says and writes the files it has changed. -/
def conclude (before : FileSystem) (out : Outcome) : IO Unit := do
  for (path, content) in before.changes out.files do
    IO.FS.createDirAll (Path.directory path)
    IO.FS.writeBinFile path ⟨content.toArray⟩
  IO.eprint out.messages
  let stdout ← IO.getStdout
  stdout.write ⟨out.output.toArray⟩
  stdout.flush

/-- What happened to the files between two looks at the disk. -/
def notices (before after : FileSystem) : List (String × Nat) :=
  let isNew (fs : FileSystem) (path : String) := !fs.contains path
  (before.changes after).map (fun (path, _) =>
      (path, (if isNew before path then ChangeKind.create else .write).bit))
    ++ ((after.changes before).filter fun (path, _) => isNew after path).map
      fun (path, _) => (path, ChangeKind.remove.bit)

/-- Looks at the disk from time to time and repeats the analysis after a change. -/
partial def watch (env : Environment) (o : Options) (c : Configuration) (state : WatchState) :
    IO Unit := do
  IO.sleep 500
  let files ← gather o
  let state := (notices env.files files).foldl (fun w (path, change) =>
    w.notice files path change) state
  let (state, changed) := state.flush
  let env := { env with files }
  if let some paths := changed then
    IO.eprintln ("🔄 " ++ toString paths.length ++ " file(s) changed, re-analyzing...")
    match c.analyzeInputs env o.inputs { files } with
    | .error out => conclude files out
    | .ok a => conclude files (a.finish env true "")
  watch env o c state

/-- Does what the options ask for, and tells whether it failed. -/
def perform (env : Environment) (o : Options) : IO Bool := do
  let start ← IO.monoNanosNow
  match CommandLine.prepare env o with
  | .error out =>
    conclude env.files out
    return out.failed
  | .ok a =>
    let stop ← IO.monoNanosNow
    let out := a.finish env o.watch (durationText (stop - start))
    conclude env.files out
    if o.watch && !out.failed then
      let state : WatchState := { excluded := a.config.analysis.workspace.excluded }
      let state := a.workspace.directories.foldl (fun w dir => (w.watchPath env.files dir).getD w)
        state
      IO.eprintln ("👀 Watching " ++ toString state.directories.length
        ++ " directories, press Ctrl+C to stop")
      watch env o a.config state
    return out.failed

end CSharpAudit.Program

open CSharpAudit in
/-- The program. -/
def main (args : List String) : IO UInt32 := do
  let terminal ← (← IO.getStdout).isTty
  let none : Environment := { files := { root := .empty, current := "/" }, terminal }
  match CommandLine.options none args with
  | .error out =>
    Program.conclude none.files out
    return if out.failed then 1 else 0
  | .ok o =>
    let failed ← Program.perform { none with files := ← Program.gather o } o
    return if failed then 1 else 0
