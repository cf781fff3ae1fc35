import CSharpAudit.CommandLine.Flag

/-!
# Shells

A shell can complete a command line while it is typed. The scripts that teach this to a shell are
asked for by commands of their own, which have manuals.

## Main definitions

* `Shell` — the shells there are
* `Shell.script`, `Shell.manual` — the script for a shell and how it is used
* `ScriptOptions` — what the flags of these commands ask for
-/

namespace CSharpAudit

/-- The shells there are, in the order of their names. -/
inductive Shell where
  | bash
  | fish
  | powershell
  | zsh
  deriving DecidableEq, Repr, Inhabited

namespace Shell

/-- All shells. -/
def all : List Shell := [bash, fish, powershell, zsh]

/-- The name of a shell. -/
def name : Shell → String
  | bash => "bash"
  | fish => "fish"
  | powershell => "powershell"
  | zsh => "zsh"

/-- The shell of a name. -/
def ofName? (name : String) : Option Shell := all.find? (·.name == name)

/-- What the command for a shell does. -/
def summary (s : Shell) : String := "Generate the autocompletion script for " ++ s.name

/-- How the script for a shell is used. -/
def manual : Shell → String
  | bash => "Generate the autocompletion script for the bash shell.

This script depends on the 'bash-completion' package.
If it is not installed already, you can install it via your OS's package manager.

To load completions in your current shell session:

\tsource <(sharpcheck completion bash)

To load completions for every new session, execute once:

#### Linux:

\tsharpcheck completion bash > /etc/bash_completion.d/sharpcheck

#### macOS:

\tsharpcheck completion bash > $(brew --prefix)/etc/bash_completion.d/sharpcheck

You will need to start a new shell for this setup to take effect."
  | fish => "Generate the autocompletion script for the fish shell.

To load completions in your current shell session:

\tsharpcheck completion fish | source

To load completions for every new session, execute once:

\tsharpcheck completion fish > ~/.config/fish/completions/sharpcheck.fish

You will need to start a new shell for this setup to take effect."
  | powershell => "Generate the autocompletion script for powershell.

To load completions in your current shell session:

\tsharpcheck completion powershell | Out-String | Invoke-Expression

To load completions for every new session, add the output of the above command
to your powershell profile."
  | zsh => "Generate the autocompletion script for the zsh shell.

If shell completion is not already enabled in your environment you will need
to enable it.  You can execute the following once:

\techo \"autoload -U compinit; compinit\" >> ~/.zshrc

To load completions in your current shell session:

\tsource <(sharpcheck completion zsh)

To load completions for every new session, execute once:

#### Linux:

\tsharpcheck completion zsh > \"$\x7bfpath[1]\x7d/_sharpcheck\"

#### macOS:

\tsharpcheck completion zsh > $(brew --prefix)/share/zsh/site-functions/_sharpcheck

You will need to start a new shell for this setup to take effect."

/-- The script for a shell. `request` is the command that tells what a word can become; its last
line is not a choice. -/
def script (request : String) : Shell → String
  | bash => "_sharpcheck() \x7b
    local IFS=$'\\n' words=(\"$\x7bCOMP_WORDS[@]:1:COMP_CWORD\x7d\")
    COMPREPLY=($(sharpcheck " ++ request ++ " \"$\x7bwords[@]\x7d\" 2>/dev/null | sed '$d'))
    [ $\x7b#COMPREPLY[@]\x7d -gt 1 ] || COMPREPLY=(\"$\x7bCOMPREPLY[@]%%$'\\t'*\x7d\")
\x7d
complete -o default -F _sharpcheck sharpcheck
"
  | fish => "function _sharpcheck
    sharpcheck " ++ request ++ " (commandline -opc)[2..-1] (commandline -ct) 2>/dev/null | sed '$d'
end
complete -c sharpcheck -a '(_sharpcheck)'
"
  | powershell => "Register-ArgumentCompleter -Native -CommandName sharpcheck -ScriptBlock \x7b
    param($word, $line)
    $words = @($line.CommandElements | Select-Object -Skip 1 | ForEach-Object \x7b \"$_\" \x7d)
    if ($word -eq '') \x7b $words += '\"\"' \x7d
    $lines = sharpcheck " ++ request ++ " @words 2>$null | Select-Object -SkipLast 1
    $lines | ForEach-Object \x7b ($_ -split [char] 9)[0] \x7d
\x7d
"
  | zsh => "#compdef sharpcheck
_sharpcheck() \x7b
    local lines=$(sharpcheck " ++ request ++ " \"$\x7b(@)words[2,CURRENT]\x7d\" 2>/dev/null)
    local -a choices=(\"$\x7b(@f)lines\x7d\")
    choices=(\"$\x7b(@)choices[1,-2]/$'\\t'/:\x7d\")
    _describe 'choices' choices || _files
\x7d
compdef _sharpcheck sharpcheck
"

end Shell

/-- What the flags of the commands for scripts ask for. -/
structure ScriptOptions where
  help : Bool := false
  /-- Whether nothing is said of what is offered. -/
  plain : Bool := false
  deriving Repr, Inhabited

namespace ScriptOptions

/-- The flag for help on a command. -/
def helpFlag (command : String) : Flag ScriptOptions :=
  { name := "help", short := some 'h', kind := .switch fun o v => { o with help := v }
    usage := Flag.helpUsage command }

/-- The flag for scripts that say nothing of what is offered. -/
def plainFlag : Flag ScriptOptions :=
  { name := "no-descriptions", kind := .switch fun o v => { o with plain := v }
    usage := "disable completion descriptions" }

end ScriptOptions

end CSharpAudit
