import CSharpAudit.Text.CharSet

/-!
# Paths

A path is a text whose parts are divided by slashes. It is absolute if it begins with a slash.

## Main definitions

* `Path.clean` — the shortest path that leads to the same place, as far as the text tells
* `Path.extension`, `Path.base`, `Path.directory` — what a path says of a file
* `Path.join`, `Path.relative?` — from a directory to a file and back
-/

namespace CSharpAudit.Path

/-- Whether a path begins at the root. -/
def isAbsolute (path : String) : Bool := path.toList.head? == some '/'

/-- The parts of a path between its slashes. -/
def parts (path : String) : List String := Text.cutAt '/' path

/-- Goes one part further. `before` are the parts so far, the last first; above the root there is
nothing, and only a relative path can lead above its start. -/
def step (rooted : Bool) (before : List String) (part : String) : List String :=
  if part == "" || part == "." then before
  else if part == ".." then
    match before with
    | [] => if rooted then [] else [".."]
    | last :: rest => if last == ".." then ".." :: before else rest
  else part :: before

/-- The parts of a path that are needed. -/
def steps (path : String) : List String :=
  ((parts path).foldl (step (isAbsolute path)) []).reverse

/-- The path that leads along some parts. -/
def ofSteps (rooted : Bool) (steps : List String) : String :=
  if rooted then "/" ++ "/".intercalate steps
  else if steps.isEmpty then "." else "/".intercalate steps

/-- The shortest path that leads to the same place, as far as the text tells. -/
def clean (path : String) : String := ofSteps (isAbsolute path) (steps path)

/-- The last part of a path, which may be empty. -/
def name (path : String) : String := (parts path).getLast?.getD ""

/-- The last point of a name and what follows it. -/
def extension (path : String) : String :=
  match Text.cutAt '.' (name path) with
  | [] | [_] => ""
  | pieces => "." ++ pieces.getLast?.getD ""

/-- The last part of a path that is not empty. -/
def base (path : String) : String :=
  if path.isEmpty then "." else
    ((parts path).reverse.find? (!·.isEmpty)).getD "/"

/-- The last part of a path without its extension. -/
def stem (path : String) : String := ((base path).dropEnd (extension path).length).toString

/-- The directory of a file. -/
def directory (path : String) : String :=
  match (parts path).dropLast with
  | [] => "."
  | before => clean ("/".intercalate before ++ "/")

/-- A path that starts in a directory. -/
def join (dir path : String) : String :=
  match dir.isEmpty, path.isEmpty with
  | true, true => ""
  | true, false => clean path
  | false, true => clean dir
  | false, false => clean (dir ++ "/" ++ path)

/-- A path as seen from the root, if it starts in the directory `dir`. -/
def absolute (dir path : String) : String :=
  if isAbsolute path then clean path else join dir path

/-- Two lists without what they have in common at their heads. -/
def dropCommon : List String → List String → List String × List String
  | a :: as, b :: bs => if a == b then dropCommon as bs else (a :: as, b :: bs)
  | as, bs => (as, bs)

/-- The path that leads from a directory to a file. There is none if one of them is absolute and the
other is not, or if the directory lies above the start of both. -/
def relative? (dir path : String) : Option String :=
  if isAbsolute dir != isAbsolute path then none
  else match dropCommon (steps dir) (steps path) with
    | ([], []) => some "."
    | (".." :: _, _) => none
    | (up, down) => some ("/".intercalate (up.map (fun _ => "..") ++ down))

end CSharpAudit.Path
