import CSharpAudit.Files.Glob
import CSharpAudit.Workspace.Load

/-!
# Watching a workspace

A change matters if it is of a file that belongs to a workspace and is not the working copy of an
editor. A directory is watched unless its name or a pattern of the settings excludes it.

A watch knows the directories it looks at and the changes that have not been handled. Changes are
collected until nothing has happened for a while, and then handled together.

## Main definitions

* `ChangeKind` — what happened to a file
* `Watch.isProjectFile`, `Watch.isWorkingCopy` — which files matter
* `Watch.skipsDirectory` — which directories are left out
* `WatchState` — the directories and the changes
* `WatchState.watchPath` — looks at the directories below a path
* `WatchState.notice` — takes note of a change
* `WatchState.flush` — hands over the changes
-/

namespace CSharpAudit

/-! ### What matters -/

/-- What happened to a file. -/
inductive ChangeKind where
  | create | write | remove | rename | attributes
  deriving DecidableEq, Repr, Inhabited

namespace ChangeKind

/-- All kinds; of several that happened at once the first counts. -/
def all : List ChangeKind := [create, write, remove, rename, attributes]

/-- The bit that stands for a kind in the notice of a change. -/
def bit : ChangeKind → Nat
  | create => 1
  | write => 2
  | remove => 4
  | rename => 8
  | attributes => 16

/-- Whether a notice tells of a kind. -/
def isIn (k : ChangeKind) (notice : Nat) : Bool := notice &&& k.bit == k.bit

/-- The name of a kind. -/
def text : ChangeKind → String
  | create => "CREATE"
  | write => "WRITE"
  | remove => "REMOVE"
  | rename => "RENAME"
  | attributes => "CHMOD"

/-- The name of what a notice tells of. -/
def textOf (notice : Nat) : String := ((all.find? (·.isIn notice)).map text).getD "UNKNOWN"

end ChangeKind

namespace Watch

/-- Whether a change of a file can change the analysis. -/
def isProjectFile (path : String) : Bool :=
  [".cs", ".csproj", ".sln"].contains (Text.lowered (Path.extension path))

/-- Whether a file is hidden or the working copy of an editor. -/
def isWorkingCopy (path : String) : Bool :=
  let name := Path.base path
  name.startsWith "." || [".tmp", "~", ".swp", ".swo"].any fun ending => name.endsWith ending

/-- The directory that a pattern excludes with all below it, if it is such a pattern. -/
def excludedDirectory? (pattern : String) : Option String :=
  if pattern.endsWith "/**" then some (pattern.dropEnd 3).toString else none

/-- Whether patterns exclude a directory with all below it. -/
def excludesDirectory (patterns : List String) (path : String) : Bool :=
  let place := if path.startsWith "/" then (path.drop 1).toString else path
  (patterns.filterMap excludedDirectory?).any fun dir => Glob.describes true ("**/" ++ dir) place

/-- Whether a directory is left out, by its name or by the patterns of the settings. -/
def skipsDirectory (excluded : List String) (path : String) : Bool :=
  isSkippedDirectory (Path.base path) || excludesDirectory excluded path

end Watch

/-! ### The state of a watch -/

/-- The directories of a watch and the changes that have not been handled. -/
structure WatchState where
  /-- The patterns of the settings that exclude files. -/
  excluded : List String := []
  directories : List String := []
  /-- The files that have changed, and how. -/
  pending : Table String := {}
  closed : Bool := false
  deriving Inhabited

namespace WatchState

/-- Looks at a path, or at the directory of a file, and at the directories below it. It fails if
there is nothing, or if the watch is closed and there are directories it does not look at. -/
def watchPath (fs : FileSystem) (path : String) (w : WatchState) : Option WatchState := do
  let t ← (fs.lookup true path).toOption
  let dir := if t.isDirectory then path else Path.directory path
  let found := ((fs.lookup false dir).toOption.map
    (FileTree.directoriesBelow (Watch.skipsDirectory w.excluded) dir)).getD []
  let fresh := found.filter (!w.directories.contains ·)
  if w.closed && !fresh.isEmpty then none
  else some { w with directories := w.directories ++ fresh }

/-- Takes note of a change. A new directory is looked at, a file that matters is remembered. -/
def notice (fs : FileSystem) (path : String) (change : Nat) (w : WatchState) : WatchState :=
  let isDirectory := ((fs.lookup true path).toOption.map (·.isDirectory)).getD false
  if ChangeKind.create.isIn change && isDirectory then
    if Watch.skipsDirectory w.excluded path then w else (w.watchPath fs path).getD w
  else if w.closed || !Watch.isProjectFile path || Watch.isWorkingCopy path then w
  else { w with pending := w.pending.insert path (ChangeKind.textOf change) }

/-- Hands over the files that have changed, in order, and forgets them; a closed watch hands over
nothing. -/
def flush (w : WatchState) : WatchState × Option (List String) :=
  if w.closed || w.pending.isEmpty then (w, none)
  else ({ w with pending := {} }, some (w.pending.sorted.map (·.1)))

/-- Ends the watch. -/
def close (w : WatchState) : WatchState := { w with closed := true }

end WatchState

end CSharpAudit
