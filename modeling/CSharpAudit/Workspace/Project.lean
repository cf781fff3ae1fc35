import CSharpAudit.Files.Glob
import CSharpAudit.Files.Tree
import CSharpAudit.Text.CharSet
import CSharpAudit.Text.Utf8
import CSharpAudit.Workspace.Basic
import CSharpAudit.Xml.Element

/-!
# Project files and solutions

A project file is written in XML. Its groups of properties name the assembly, its groups of items
name files, other projects and assemblies. Unless a property says otherwise, all files with code
below the project belong to it; items add further files and take some away. Conditions and macros
are not evaluated, which is noted.

A solution names projects, each on a line of its own. A path is written with backslashes; what
stands on other lines does not matter.

## Main definitions

* `ProjectItems` — what the groups of a project file say
* `ProjectItems.ofElement` — from the element of the file
* `selectFiles` — the files of a project
* `readProject` — a project from its file
* `SolutionEntry` — a project that a solution names
* `SolutionEntry.ofLine?` — the project that a line names
* `SolutionEntry.ofBytes?` — the projects of a solution
-/

namespace CSharpAudit

/-! ### Project files -/

/-- What the groups of a project file say. -/
structure ProjectItems where
  /-- The name of the assembly so far. -/
  name : String
  /-- Whether all files with code belong to the project. -/
  defaults : Bool := true
  included : List String := []
  removed : List String := []
  projectReferences : List String := []
  references : List String := []
  errors : List String := []
  deriving Repr, Inhabited

namespace ProjectItems

/-- Whether some characters have the opening of a macro among them. -/
def opensMacro : List Char → Bool
  | '$' :: '(' :: _ => true
  | _ :: cs => opensMacro cs
  | [] => false

/-- Whether a text has a macro in it. -/
def hasMacro (s : String) : Bool := opensMacro s.toList

/-- A path with slashes in place of backslashes. -/
def slashed (path : String) : String := path.map fun c => if c == '\\' then '/' else c

/-- A text without some characters at its ends. -/
def trimmed (marks : List Char) (s : String) : String :=
  String.ofList (((s.toList.dropWhile marks.contains).reverse.dropWhile marks.contains).reverse)

/-- An item in the form in which items are used: without blanks and quotation marks around it, with
slashes between its parts. -/
def normalized (s : String) : String :=
  let item := slashed (trimmed ['"', '\''] (Text.trimBlank s))
  if item.startsWith "./" then (item.drop 2).toString else item

/-- The items of a list, which are divided by semicolons. -/
def split (s : String) : List String :=
  ((Text.cutAt ';' s).map normalized).filter (!·.isEmpty)

/-- Notes an error under the name of the project. -/
def note (p : ProjectItems) (error : String) : ProjectItems :=
  { p with errors := p.errors ++ [p.name ++ ": " ++ error] }

/-- Notes that a condition is not evaluated. -/
def noteCondition (p : ProjectItems) (e : Xml.Element) : ProjectItems :=
  let condition := e.value "Condition"
  if condition.isEmpty then p
  else p.note ("MSBuild Condition not evaluated on <" ++ e.name ++ ">: " ++ condition)

/-- Notes that a macro is not expanded. -/
def noteMacro (p : ProjectItems) (place item : String) : ProjectItems :=
  p.note ("MSBuild macro not expanded on <" ++ place ++ ">: " ++ item)

/-- Whether two texts are equal up to case. -/
def sameFolded (a b : String) : Bool :=
  let fold (s : String) := s.map fun c => Text.toLower (Text.toUpper c)
  fold a == fold b

/-- What a group of properties says. -/
def addProperties (p : ProjectItems) (group : Xml.Element) : ProjectItems :=
  let p := p.noteCondition group
  let name := group.childText "AssemblyName"
  let p := if name.isEmpty || hasMacro name then p else { p with name }
  let off := sameFolded (Text.trimBlank (group.childText "EnableDefaultCompileItems")) "false"
  { p with defaults := p.defaults && !off }

/-- Adds items that may have macros in them. -/
def addItems (place : String) (add : ProjectItems → String → ProjectItems) (p : ProjectItems)
    (items : List String) : ProjectItems :=
  items.foldl (fun p item => if hasMacro item then p.noteMacro place item else add p item) p

/-- What an item about files says. -/
def addCompile (p : ProjectItems) (item : Xml.Element) : ProjectItems :=
  let p := p.noteCondition item
  let p := p.addItems "Compile" (fun p i => { p with included := p.included ++ [i] })
    (split (item.value "Include") ++ split (item.value "Update"))
  p.addItems "Compile Remove" (fun p i => { p with removed := p.removed ++ [i] })
    (split (item.value "Remove"))

/-- What an item about another project says; `present` tells whether a path leads to something. -/
def addProjectReference (present : String → Bool) (dir : String) (p : ProjectItems)
    (item : Xml.Element) : ProjectItems :=
  let p := p.noteCondition item
  let path := normalized (item.value "Include")
  if path.isEmpty then p
  else p.addItems "ProjectReference" (fun p path =>
    let place := Path.join dir path
    let p := if present place then p else p.note ("unresolved ProjectReference: " ++ place)
    { p with projectReferences := p.projectReferences ++ [place] }) [path]

/-- What an item about an assembly says. -/
def addReference (dir : String) (p : ProjectItems) (item : Xml.Element) : ProjectItems :=
  let hint := normalized (item.childText "HintPath")
  if hint.isEmpty || hasMacro hint then p
  else { p with references := p.references ++ [Path.join dir hint] }

/-- What a group of items says. -/
def addGroup (present : String → Bool) (dir : String) (p : ProjectItems) (group : Xml.Element) :
    ProjectItems :=
  let p := p.noteCondition group
  let p := (group.children "Compile").foldl addCompile p
  let p := (group.children "ProjectReference").foldl (addProjectReference present dir) p
  (group.children "Reference").foldl (addReference dir) p

/-- What the element of a project file says. -/
def ofElement (present : String → Bool) (path : String) (root : Xml.Element) : ProjectItems :=
  let p := (root.children "PropertyGroup").foldl addProperties { name := Path.stem path }
  (root.children "ItemGroup").foldl (addGroup present (Path.directory path)) p

end ProjectItems

/-! ### Files -/

/-- Whether a file is taken away by an item. A pattern takes away what it describes, a name all
files of that name, and a path all files whose paths end with it. -/
def removedBy (item file : String) : Bool :=
  let item := Text.lowered item
  let lowered := Text.lowered file
  if item.toList.any "*?[\x7b".toList.contains then Glob.describes false item lowered
  else if item.toList.contains '/' then lowered == item || lowered.endsWith ("/" ++ item)
  else lowered == item || Text.lowered (Path.base file) == item

/-- Whether a file is added by an item. -/
def includedBy (item file : String) : Bool :=
  Glob.describes false (Text.lowered item) (Text.lowered file)

/-- What is never part of a project. -/
def alwaysRemoved : List String := ["bin/**", "obj/**", ".git/**"]

/-- The files that belong to a project among some files, in order. -/
def selectFiles (included removed files : List String) : List String :=
  Merge.sortedOnce (files.filter fun f =>
    included.any (includedBy · f) && !(removed ++ alwaysRemoved).any (removedBy · f))

/-- The files below the directory of a project, by their paths from there. -/
def projectFiles (fs : FileSystem) (dir : String) : List String :=
  let skip (name : String) := name == ".git" || name == "node_modules"
  match fs.lookup false dir with
  | .ok t =>
    if t.isDirectory && skip (Path.base dir) then []
    else (t.filesBelow skip dir).filterMap (Path.relative? dir)
  | .error _ => []

/-- A file of a project, by its path from the directory of the project. -/
def projectFile (dir file : String) : ProjectFile :=
  let path := Path.join dir file
  if ProjectItems.sameFolded (Path.extension file) ".cs" then .code path
  else { path, kind := .other }

/-- The project that a file describes. -/
def readProject (fs : FileSystem) (path : String) : Except LoadError Project := do
  let bytes ← (fs.read path).mapError (.inaccessible path)
  let some root := Xml.parse? bytes | throw (.malformed path)
  if root.name != "Project" then throw (.malformed path)
  let items := ProjectItems.ofElement fs.contains path root
  let dir := Path.directory path
  let included := (if items.defaults then ["**/*.cs"] else []) ++ items.included
  let (valid, invalid) := included.partition fun item => Glob.wellFormed (Text.lowered item)
  let items := invalid.foldl (fun p item =>
    let quoted := Text.Quoted.text item
    p.note ("invalid Compile pattern " ++ quoted ++ ": syntax error in pattern")) items
  return { name := items.name
           path
           directory := dir
           files := (selectFiles valid items.removed (projectFiles fs dir)).map (projectFile dir)
           errors := items.errors
           references := items.references
           projectReferences := items.projectReferences }

/-! ### Solutions -/

/-- A project that a solution names. -/
structure SolutionEntry where
  name : String
  /-- The path, in which stray bytes are kept apart. -/
  path : String
  deriving DecidableEq, Repr, Inhabited

namespace SolutionEntry

/-- Blanks between the parts of a line. -/
def isSpace (c : Char) : Bool := c == ' ' || c == '\t' || c == '\n' || c == '\x0c' || c == '\r'

/-- The rest behind a mark, around which there may be blanks. -/
def behind? (mark : Char) (cs : List Char) : Option (List Char) :=
  match cs.dropWhile isSpace with
  | c :: rest => if c == mark then some (rest.dropWhile isSpace) else none
  | [] => none

/-- A text in quotation marks, and the rest. -/
def quoted? : List Char → Option (String × List Char)
  | '"' :: cs => match cs.dropWhile (· != '"') with
    | _ :: rest => some (String.ofList (cs.takeWhile (· != '"')), rest)
    | [] => none
  | _ => none

/-- The project that a line names: `Project("\x7bid\x7d") = "name", "path"`, whatever follows. Stray
bytes are kept apart in the line. -/
def ofLine? (line : String) : Option SolutionEntry := do
  let cs := (Text.trimBlank line).toList
  let head := "Project(\"\x7b".toList
  if !head.isPrefixOf cs then none
  let cs := (cs.drop head.length).dropWhile (· != '}')
  let tail := "\x7d\")".toList
  if !tail.isPrefixOf cs then none
  let (name, cs) ← quoted? (← behind? '=' (cs.drop tail.length))
  let (path, _) ← quoted? (← behind? ',' cs)
  return { name := Text.Stray.shown name, path := ProjectItems.slashed path }

/-- Whether the entry is a project that can be loaded. -/
def isProject (e : SolutionEntry) : Bool :=
  ProjectItems.sameFolded (Path.extension e.path) ".csproj"

/-- How long a line of a solution may be. -/
def maxLine : Nat := 65535

/-- The projects that the lines of a solution name; nothing if a line is too long. -/
def ofBytes? (bytes : List UInt8) : Option (List SolutionEntry) :=
  let lines := bytes.splitOn 0x0A
  if lines.any (·.length > maxLine) then none
  else some ((lines.filterMap fun l => ofLine? (Text.Stray.keep l)).filter isProject)

end SolutionEntry

end CSharpAudit
