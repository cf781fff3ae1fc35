import CSharpAudit.Files.Tree

/-!
# Writing files

A file is written where its path leads; its directory must exist, and directories are made on
demand.

## Main definitions

* `FileSystem.makeDirectories` — a directory with all above it
* `FileSystem.write` — a disk with a file written
* `FileSystem.changes` — the files that differ between two disks
-/

namespace CSharpAudit.FileSystem

/-- A path without the slashes at its end. -/
def withoutSlashes (path : String) : String :=
  String.ofList (path.toList.reverse.dropWhile (· == '/')).reverse

/-- What stands before the last part of a path; the root stands before its own entries. -/
def above (path : String) : String :=
  let before := String.ofList ((withoutSlashes path).toList.reverse.dropWhile (· != '/')).reverse
  if before.isEmpty then "." else if before.toList.all (· == '/') then "/" else
    withoutSlashes before

/-- The names that lead from the root to the end of a trail. -/
def names (trail : List (String × FileTree)) : List String :=
  (trail.map (·.1)).reverse.drop 1

/-- Gives an entry of the directory that holds a path a value. -/
def insertAt (fs : FileSystem) (path : String) (leaf : FileTree) : Except FileError FileSystem := do
  if path.utf8ByteSize > maxPath then throw .nameTooLong
  let path := withoutSlashes path
  match ← fs.trail true (above path) with
  | (name, .directory es) :: trail =>
    let entry := Path.name path
    if entry.utf8ByteSize > FileTree.maxName then throw .nameTooLong
    let place := names ((name, .directory es) :: trail) ++ [entry]
    return { fs with root := fs.root.insert place leaf }
  | _ => throw .notDirectory

/-- Makes a directory, and before it those above it that are missing. -/
def makeDirectoriesFrom : Nat → FileSystem → String → Except String FileSystem
  | 0, fs, _ => .ok fs
  | fuel + 1, fs, path =>
    let failed (reason : FileError) := "mkdir " ++ path ++ ": " ++ reason.message
    match fs.lookup true path with
    | .ok t => if t.isDirectory then .ok fs else .error (failed .notDirectory)
    | .error _ => do
      let fs ← makeDirectoriesFrom fuel fs (above path)
      if fs.lookup false (withoutSlashes path) |>.isOk then
        throw ("mkdir " ++ path ++ ": file exists")
      (fs.insertAt path .empty).mapError failed

/-- Makes a directory, and before it those above it that are missing. -/
def makeDirectories (fs : FileSystem) (path : String) : Except String FileSystem :=
  makeDirectoriesFrom (path.length + 1) fs path

/-- Where a file comes to stand that is written to a path at which nothing is found: a link at its
end, one of so many, leads on. -/
def createdAt (fs : FileSystem) : Nat → String → String
  | 0, path => path
  | links + 1, path => match fs.lookup false path with
    | .ok (.link target) =>
      fs.createdAt links (if Path.isAbsolute target then target else above path ++ "/" ++ target)
    | _ => path

/-- Writes a file. The error tells what failed. -/
def write (fs : FileSystem) (path : String) (content : List UInt8) : Except String FileSystem :=
  let failed (reason : FileError) := "open " ++ path ++ ": " ++ reason.message
  match fs.trail true path with
  | .ok ((_, .directory _) :: _) => .error (failed .isDirectory)
  | .ok trail => .ok { fs with root := fs.root.insert (names trail) (.file content) }
  | .error .missing =>
    if path.endsWith "/" then .error (failed .isDirectory)
    else (fs.insertAt (fs.createdAt maxLinks path) (.file content)).mapError failed
  | .error e => .error (failed e)

/-- Writes a file into a directory that is made if it is missing. -/
def writeWithDirectory (fs : FileSystem) (path : String) (content : List UInt8) :
    Except String FileSystem := do
  let fs ← fs.makeDirectories (Path.directory path)
  fs.write path content

/-- The files that one disk has and the other has not, or not with the same bytes. -/
def changes (before after : FileSystem) : List (String × List UInt8) :=
  (after.filesBelow (fun _ => false) "/").filterMap fun path =>
    match after.lookup false path, before.lookup false path with
    | .ok (.file new), .ok (.file old) => if new == old then none else some (path, new)
    | .ok (.file new), _ => some (path, new)
    | _, _ => none

end CSharpAudit.FileSystem
