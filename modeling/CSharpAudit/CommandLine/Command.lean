import CSharpAudit.CommandLine.Options
import CSharpAudit.CommandLine.Shell

/-!
# Commands

Without a command the program analyses its inputs. The first word that is no flag, nor the value of
one, may be a command: one asks for scripts for shells, and one, which such scripts call, for what a
word that is being typed can become.

## Main definitions

* `Command` — the commands there are
* `Command.find` — the command that some arguments call, and the arguments it gets
* `Command.usage`, `Command.help` — what is told of a command
-/

namespace CSharpAudit

/-- The commands there are. -/
inductive Command where
  /-- The analysis of inputs. -/
  | audit
  /-- What scripts there are. -/
  | completion
  /-- The script for a shell. -/
  | script (shell : Shell)
  /-- What a word can become, with what it is for if `described` is set. -/
  | complete (described : Bool)
  deriving DecidableEq, Repr, Inhabited

namespace Command

/-- Whether an argument is a flag whose value is the next one. Only long and short names without an
equals sign are, unless they name a switch; the flag for help is not among those known here. -/
def takesNext (switches : List (String × Option Char)) (arg : String) : Bool :=
  !arg.toList.contains '=' && match arg.toList with
    | '-' :: '-' :: name => !switches.any (·.1 == String.ofList name)
    | '-' :: letter => arg.utf8ByteSize == 2 && !switches.any (·.2 == letter.head?)
    | _ => false

/-- The first word that is no flag nor the value of one, and the arguments without it. A flag that
wants a value and has at most one argument behind it ends the search. -/
def firstWord? (switches : List (String × Option Char)) :
    List String → Option (String × List String)
  | [] => none
  | "--" :: _ => none
  | arg :: value :: next :: rest =>
    if takesNext switches arg then
      (firstWord? switches (next :: rest)).map fun (word, args) => (word, arg :: value :: args)
    else if arg.isEmpty || arg.startsWith "-" then
      (firstWord? switches (value :: next :: rest)).map fun (word, args) => (word, arg :: args)
    else some (arg, value :: next :: rest)
  | arg :: rest =>
    if takesNext switches arg then none
    else if arg.isEmpty || arg.startsWith "-" then
      (firstWord? switches rest).map fun (word, args) => (word, arg :: args)
    else some (arg, rest)

/-- The names of the switches of an analysis but that for help. -/
def switches : List (String × Option Char) :=
  (Options.flags.filter fun f => f.isSwitch && f.name != "help").map fun f => (f.name, f.short)

/-- The word that calls for scripts. -/
def completionWord : String := "completion"

/-- The word that calls for what a word can become. -/
def completeWord : String := "__complete"

/-- The same without what it is for. -/
def completePlainWord : String := "__completeNoDesc"

/-- The command for scripts that some arguments behind its word call. -/
def findScript (args : List String) : Command × List String :=
  match firstWord? [] args with
  | some (word, rest) => match Shell.ofName? word with
    | some shell => (.script shell, rest)
    | none => (.completion, args)
  | none => (.completion, args)

/-- The command that some arguments call, and the arguments it gets. -/
def find (args : List String) : Command × List String :=
  match firstWord? switches args with
  | some (word, rest) =>
    if word == completionWord then findScript rest
    else if word == completeWord then (.complete true, rest)
    else if word == completePlainWord then (.complete false, rest)
    else (.audit, args)
  | none => (.audit, args)

/-- The name of a command. -/
def name : Command → String
  | audit => "sharpcheck"
  | completion => completionWord
  | script shell => shell.name
  | complete _ => completeWord

/-- The words that call a command. -/
def path : Command → String
  | audit => "sharpcheck"
  | script shell => "sharpcheck " ++ completionWord ++ " " ++ shell.name
  | c => "sharpcheck " ++ c.name

/-- The flags of the commands for scripts. -/
def scriptFlags (c : Command) : List (Flag ScriptOptions) :=
  ScriptOptions.helpFlag c.name :: match c with
    | script _ => [ScriptOptions.plainFlag]
    | _ => []

/-- The end of a line that says how a command is called. -/
def lineEnd : Command → String
  | audit => " [solutions, projects, files or directories] [flags]"
  | completion => " [command]"
  | script .bash => ""
  | script _ => " [flags]"
  | complete _ => " [command-line]"

/-- The lines on the commands below a command. -/
def belowLines : Command → List String
  | completion =>
    let widest := 11
    ["", "Available Commands:"] ++ Shell.all.map fun s =>
      let gap := String.ofList (List.replicate (widest + 1 - s.name.length) ' ')
      "  " ++ s.name ++ gap ++ s.summary
  | _ => []

/-- The lines of the usage of a command. -/
def usageLines (c : Command) : List String :=
  let flags := match c with
    | audit => Flag.usageLines Options.flags
    | c => Flag.usageLines c.scriptFlags
  let aliases := match c with
    | complete _ => ["", "Aliases:", "  " ++ completeWord ++ ", " ++ completePlainWord]
    | _ => []
  let more := match c with
    | completion =>
      ["", "Use \"" ++ c.path ++ " [command] --help\" for more information about a command."]
    | _ => []
  ["Usage:", "  " ++ c.path ++ c.lineEnd] ++ aliases ++ c.belowLines ++ ["", "Flags:"] ++ flags
    ++ more

/-- How a command is called. -/
def usage (c : Command) : String := "\n".intercalate c.usageLines ++ "\n"

/-- What a command does. -/
def introduction : Command → String
  | audit => Options.introduction
  | completion => "Generate the autocompletion script for sharpcheck for the specified shell.
See each sub-command's help for details on how to use the generated script."
  | script shell => shell.manual
  | complete _ => completeWord ++ " is a special command that is used by the shell completion logic
to request completion choices for the specified command-line."

/-- The help on a command. -/
def help (c : Command) : String := c.introduction ++ "\n\n" ++ c.usage

end Command

end CSharpAudit
