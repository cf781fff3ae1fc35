import CSharpAudit.Files.Path

/-!
# File trees

A file tree is what a program sees of a disk: files with their bytes, directories with their entries
in the order of names, and links, which stand for the places they name. A path is followed part by
part from the root or from the current directory.

## Main definitions

* `FileTree` — files, directories and links
* `FileError` — why a path leads nowhere
* `FileSystem.lookup` — what a path leads to
* `FileSystem.read`, `FileSystem.contains` — what programs ask
* `FileSystem.filesBelow` — the files below a directory
* `FileTree.insert`, `FileTree.makeDirectory` — a tree with one more file or directory
-/

namespace CSharpAudit

/-- A file, a directory or a link. The entries of a directory are in the order of their names. -/
inductive FileTree where
  | file (content : List UInt8)
  | directory (entries : List (String × FileTree))
  | link (target : String)
  deriving Inhabited

/-- Why a path leads nowhere, or not to what is wanted. -/
inductive FileError where
  | missing
  | notDirectory
  | isDirectory
  | tooManyLinks
  | nameTooLong
  | invalid
  deriving DecidableEq, Repr, Inhabited

/-- The message for users. -/
def FileError.message : FileError → String
  | missing => "no such file or directory"
  | notDirectory => "not a directory"
  | isDirectory => "is a directory"
  | tooManyLinks => "too many levels of symbolic links"
  | nameTooLong => "file name too long"
  | invalid => "invalid argument"

namespace FileTree

/-- How many bytes the name of an entry may have. -/
def maxName : Nat := 255

/-- The empty directory. -/
def empty : FileTree := .directory []

/-- Whether a tree is a directory. -/
def isDirectory : FileTree → Bool
  | .directory _ => true
  | _ => false

/-- Gives an entry of a directory a new value, which may depend on the old one. -/
def alter (name : String) (change : Option FileTree → FileTree) :
    List (String × FileTree) → List (String × FileTree)
  | [] => [(name, change none)]
  | (n, t) :: rest =>
    if n == name then (n, change (some t)) :: rest
    else if name < n then (name, change none) :: (n, t) :: rest
    else (n, t) :: alter name change rest

/-- Gives the end of a path a new value, which may depend on the old one; what is missing on the way
there becomes a directory. -/
def update (change : Option FileTree → FileTree) : List String → Option FileTree → FileTree
  | [], t => change t
  | name :: rest, some (.directory es) => .directory (alter name (update change rest) es)
  | name :: rest, _ => .directory [(name, update change rest none)]

/-- The tree with a file or link at the end of a path. -/
def insert (t : FileTree) (path : List String) (leaf : FileTree) : FileTree :=
  update (fun _ => leaf) path (some t)

/-- The tree with a directory at the end of a path. -/
def makeDirectory (t : FileTree) (path : List String) : FileTree :=
  update (fun
    | some (.directory es) => .directory es
    | _ => empty) path (some t)

mutual

/-- The files below a place, in the order of names; `skip` tells which directories are left out. -/
def filesBelow (skip : String → Bool) (path : String) : FileTree → List String
  | .directory es => filesOf skip path es
  | _ => [path]

/-- The files below some entries of the directory at a path. -/
def filesOf (skip : String → Bool) (path : String) : List (String × FileTree) → List String
  | [] => []
  | (name, t) :: rest =>
    (if t.isDirectory && skip name then [] else filesBelow skip (Path.join path name) t)
      ++ filesOf skip path rest

end

mutual

/-- A place, if it is a directory, and the directories below it, in the order of names; `skip` tells
by its path which directory is left out with all below it. -/
def directoriesBelow (skip : String → Bool) (path : String) : FileTree → List String
  | .directory es => path :: directoriesOf skip path es
  | _ => []

/-- The directories among and below some entries of the directory at a path. -/
def directoriesOf (skip : String → Bool) (path : String) : List (String × FileTree) → List String
  | [] => []
  | (name, t) :: rest =>
    let place := Path.join path name
    (if skip place then [] else directoriesBelow skip place t) ++ directoriesOf skip path rest

end

mutual

/-- The number of files, directories and links. -/
def count : FileTree → Nat
  | .directory es => 1 + countAll es
  | _ => 1

/-- The number of files, directories and links of some entries. -/
def countAll : List (String × FileTree) → Nat
  | [] => 0
  | (_, t) :: rest => t.count + countAll rest

end

/-- Follows the parts of a path up to the first link that must be followed. `trail` are the place
reached and the directories above it with their names, the innermost first; `onLink` says what comes
of the place where the target of a link starts and of the parts that lead on from there. A link at
the very end counts as itself unless `follow` is set. -/
def walkParts (follow : Bool)
    (onLink : List (String × FileTree) → List String → Except FileError (List (String × FileTree)))
    (trail : List (String × FileTree)) (parts : List String) :
    Except FileError (List (String × FileTree)) :=
  match parts, trail with
  | _, [] => .error .missing
  | [], trail => .ok trail
  | part :: rest, (name, .directory es) :: above =>
    let here := (name, FileTree.directory es)
    if part == "" || part == "." then walkParts follow onLink (here :: above) rest
    else if part == ".." then
      walkParts follow onLink (if above.isEmpty then [here] else above) rest
    else if part.utf8ByteSize > maxName then .error .nameTooLong
    else match es.lookup part with
      | none => .error .missing
      | some (.link target) =>
        if rest.isEmpty && !follow then .ok ((part, .link target) :: here :: above)
        else
          let start := if Path.isAbsolute target then (here :: above).getLast?.toList
            else here :: above
          onLink start (Path.parts target ++ rest)
      | some t => walkParts follow onLink ((part, t) :: here :: above) rest
  | _ :: _, _ => .error .notDirectory
termination_by structural parts

/-- Follows the parts of a path. `trail` are the place reached and the directories above it with
their names, the innermost first, `links` is how many more links may be followed; a link at the very
end counts as itself unless `follow` is set. -/
def walk (follow : Bool) : (links : Nat) → (trail : List (String × FileTree)) →
    (parts : List String) → Except FileError (List (String × FileTree))
  | 0 => walkParts follow fun _ _ => .error .tooManyLinks
  | links + 1 => walkParts follow (walk follow links)

end FileTree

/-- A disk as seen from a directory. -/
structure FileSystem where
  root : FileTree
  /-- The current directory, as an absolute path. -/
  current : String
  deriving Inhabited

namespace FileSystem

/-- How many links may be followed on the way to a file. -/
def maxLinks : Nat := 40

/-- How many bytes a path may have. -/
def maxPath : Nat := 4095

/-- The place that a path leads to and the directories above it, the innermost first. A link at its
end is followed if `follow` is set. -/
def trail (fs : FileSystem) (follow : Bool) (path : String) :
    Except FileError (List (String × FileTree)) :=
  if path.isEmpty then .error .missing
  else if path.toList.contains '\x00' then .error .invalid
  else if path.utf8ByteSize > maxPath then .error .nameTooLong
  else
    let full := if Path.isAbsolute path then path else fs.current ++ "/" ++ path
    FileTree.walk follow maxLinks [("", fs.root)] (Path.parts full)

/-- What a path leads to. A link at its end is followed if `follow` is set. -/
def lookup (fs : FileSystem) (follow : Bool) (path : String) : Except FileError FileTree := do
  match ← fs.trail follow path with
  | (_, t) :: _ => return t
  | [] => throw .missing

/-- Whether a path leads to something. -/
def contains (fs : FileSystem) (path : String) : Bool := (fs.lookup true path).isOk

/-- The bytes of a file. The error tells what failed. -/
def read (fs : FileSystem) (path : String) : Except String (List UInt8) :=
  match fs.lookup true path with
  | .ok (.file content) => .ok content
  | .ok _ => .error ("read " ++ path ++ ": " ++ FileError.isDirectory.message)
  | .error e => .error ("open " ++ path ++ ": " ++ e.message)

/-- A path as seen from the root. -/
def absolute (fs : FileSystem) (path : String) : String := Path.absolute fs.current path

/-- The files below a directory, in the order of names; `skip` tells which directories below it are
left out. A link counts as a file, even if it is the directory itself. -/
def filesBelow (fs : FileSystem) (skip : String → Bool) (dir : String) : List String :=
  match fs.lookup false dir with
  | .ok t => t.filesBelow skip dir
  | .error _ => []

end FileSystem

end CSharpAudit
