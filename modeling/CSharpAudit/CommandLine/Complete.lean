import CSharpAudit.CommandLine.Command

/-!
# Completing a command line

While a command line is typed, its last word is not yet whole. If it begins with a hyphen, it can
become a flag of the command that the words before it call; the command for scripts offers the names
of shells; all else is left to the shell, which may offer files.

## Main definitions

* `Offer` — what a word can become
* `Completion.Target` — whether the last word is the value of a flag
* `Completion.offer?` — what the last of some words can become
-/

namespace CSharpAudit

/-- What a word can become. -/
structure Offer where
  /-- Texts, each with what it is for. -/
  choices : List (String × String) := []
  /-- Whether the shell may offer files. -/
  files : Bool := true
  /-- Why nothing can be said. -/
  fault : Option String := none
  deriving Repr, Inhabited

namespace Completion

variable {σ : Type}

/-- What is being typed. -/
structure Target (σ : Type) where
  /-- The flag whose value is being typed. -/
  flag : Option (Flag σ) := none
  /-- The whole words before it. -/
  args : List String
  word : String
  /-- The name of a flag that there is not. -/
  unknown : Option String := none

/-- The last byte of a text. A byte that is only a part of a character is shown as U+FFFD. -/
def lastByte (cs : List Char) : String :=
  String.ofList ((cs.getLast?.map fun c =>
    if c.utf8Size == 1 then c else Text.Utf8.replacement).toList)

/-- The name of the flag that some text before a value names: all behind two hyphens, or the last
letter of a group. -/
def flagName : List Char → String
  | '-' :: '-' :: name => String.ofList name
  | cs => lastByte cs

/-- The name of the flag whose value an argument leaves to the next one. -/
def openFlag? (arg : String) : Option String :=
  match arg.toList with
  | '-' :: '-' :: [] | ['-'] => none
  | '-' :: cs => if cs.contains '=' then none else some (flagName ('-' :: cs))
  | _ => none

/-- The flag of a name; a single letter is a short name. -/
def findFlag? (flags : List (Flag σ)) (name : String) : Option (Flag σ) :=
  match name.toList with
  | [c] => flags.find? (·.short == some c)
  | _ => flags.find? (·.name == name)

/-- Whether a word, typed behind some others, is the value of a flag. -/
def target (flags : List (Flag σ)) (args : List String) (word : String) : Target σ :=
  let isFlag := word.startsWith "-"
  let assigned := isFlag && word.toList.contains '='
  if isFlag && !assigned then { args, word }
  else
    let before := word.toList.takeWhile (· != '=')
    let value := if assigned then String.ofList (word.toList.drop (before.length + 1)) else word
    let name := if assigned then flagName before else ""
    let (name, shorter) := if !name.isEmpty then (name, args)
      else match args.getLast?.bind openFlag? with
        | some name => (name, args.dropLast)
        | none => ("", args)
    if name.isEmpty then { args := shorter, word := value }
    else match findFlag? flags name with
      | none => { args, word, unknown := some name }
      | some f =>
        if !assigned && f.isSwitch then { args, word := value }
        else { flag := some f, args := shorter, word := value }

/-- What a word can become as a flag. A flag that is given and cannot be repeated is left out. -/
def flagChoices (flags : List (Flag σ)) (given : List String) (word : String) :
    List (String × String) :=
  (flags.filter fun f => f.isRepeated || !given.contains f.name).flatMap fun f =>
    (("--" ++ f.name) :: (f.short.map fun c => "-" ++ c.toString).toList).filterMap fun text =>
      if text.startsWith word then some (text, f.usage) else none

/-- The shells whose names begin with a word. -/
def shellChoices (word : String) : List (String × String) :=
  (Shell.all.filter (·.name.startsWith word)).map fun s => (s.name, s.summary)

/-- What a word behind some arguments of a command can become. -/
def offerFor (c : Command) (flags : List (Flag σ)) (start : σ) (args : List String)
    (word : String) : Offer :=
  let t := target flags args word
  match Flag.parse flags start t.args with
  | .error e =>
    { fault := some ("Error while parsing flags from args [" ++ " ".intercalate t.args ++ "]: "
        ++ e.message) }
  | .ok p =>
    let isFlag := t.word.startsWith "-" && !t.word.toList.contains '='
    match t.unknown.filter fun _ => !p.closed with
    | some name =>
      { fault := some ("Subcommand '" ++ c.name ++ "' does not support flag '" ++ name ++ "'") }
    | none =>
      if p.given.contains "help" then { files := false }
      else if t.flag.isNone && isFlag && !p.closed then
        { choices := flagChoices flags p.given t.word, files := false }
      else
        let choices := match c with
          | .completion => if t.flag.isNone && p.inputs.isEmpty then shellChoices t.word else []
          | _ => []
        { choices, files := c == .audit || t.flag.isSome && !p.closed }

/-- What the last of some words can become; nothing if there is no word. -/
def offer? (args : List String) : Option Offer :=
  args.getLast?.map fun word =>
    match args.dropLast with
    | [] => offerFor .audit Options.flags {} [] word
    | first :: rest =>
      if first == Command.completionWord then
        let (c, rest) := Command.findScript rest
        offerFor c c.scriptFlags {} rest word
      else offerFor .audit Options.flags {} (first :: rest) word

end Completion

namespace Offer

/-- The lines that a script reads: one for each choice, and a number for what the shell may do. -/
def lines (o : Offer) (described : Bool) : List String :=
  o.choices.map (fun (text, usage) => if described then text ++ "\t" ++ usage else text)
    ++ [if o.files then ":0" else ":4"]

/-- The lines that tell users how it went. -/
def notes (o : Offer) : List String :=
  (o.fault.map fun message => "[Debug] [Error] " ++ message).toList
    ++ ["Completion ended with directive: ShellCompDirective"
      ++ if o.files then "Default" else "NoFileComp"]

end Offer

end CSharpAudit
