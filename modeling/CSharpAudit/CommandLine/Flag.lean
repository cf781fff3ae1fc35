import CSharpAudit.CommandLine.Record
import CSharpAudit.Text.Quoted
import CSharpAudit.Text.Utf8

/-!
# Flags

A flag has a long name and may have a short one of one letter. A value follows an equals sign, or is
the next argument; short flags may be written together. Arguments that are no flags are the inputs,
and so is all behind two hyphens.

## Main definitions

* `Flag` — a flag, and how it changes what is asked for
* `FlagError` — what is wrong with some arguments
* `Parsed` — what some arguments say
* `Flag.parse` — what some arguments say, for given flags
* `Flag.usageLines` — what is told of some flags
-/

namespace CSharpAudit

/-- How a flag changes what is asked for. -/
inductive FlagKind (σ : Type) where
  | text (set : σ → String → σ)
  | switch (set : σ → Bool → σ)
  | texts (add : σ → List String → σ)

/-- A flag. -/
structure Flag (σ : Type) where
  name : String
  short : Option Char := none
  kind : FlagKind σ
  usage : String
  /-- What a text is if it is not given. -/
  default : String := ""

/-- What is wrong with some arguments. -/
inductive FlagError where
  | badSyntax (arg : String)
  | unknown (name : String)
  | unknownShort (group : String)
  | missingValue (arg : String)
  | missingShortValue (group : String)
  | invalid (value title reason : String)
  deriving DecidableEq, Repr, Inhabited

/-- The first byte of a group of short flags, as a quoted character. -/
def FlagError.letter (group : String) : String :=
  Text.Quoted.char (((Text.Utf8.bytes group).head?.map fun b => Char.ofNat b.toNat).getD '\x00')

/-- The message for users. -/
def FlagError.message : FlagError → String
  | badSyntax arg => "bad flag syntax: " ++ arg
  | unknown name => "unknown flag: --" ++ name
  | unknownShort group => "unknown shorthand flag: " ++ letter group ++ " in -" ++ group
  | missingValue arg => "flag needs an argument: " ++ arg
  | missingShortValue group => "flag needs an argument: " ++ letter group ++ " in -" ++ group
  | invalid value title reason =>
    "invalid argument " ++ Text.Quoted.text value ++ " for " ++ Text.Quoted.text title
      ++ " flag: " ++ reason

/-- What some arguments say. -/
structure Parsed (σ : Type) where
  asked : σ
  /-- The names of the flags that are given. -/
  given : List String := []
  inputs : List String := []
  /-- Whether two hyphens end the flags. -/
  closed : Bool := false

namespace Flag

variable {σ : Type}

/-- Whether a flag stands without a value. -/
def isSwitch (f : Flag σ) : Bool := match f.kind with
  | .switch _ => true
  | _ => false

/-- Whether a flag can be given several times. -/
def isRepeated (f : Flag σ) : Bool := match f.kind with
  | .texts _ => true
  | _ => false

/-- The names of a flag. -/
def title (f : Flag σ) : String :=
  (f.short.map fun c => "-" ++ c.toString ++ ", ").getD "" ++ "--" ++ f.name

/-- The truth value that a word stands for. -/
def truth? (s : String) : Option Bool :=
  if ["1", "t", "T", "TRUE", "true", "True"].contains s then some true
  else if ["0", "f", "F", "FALSE", "false", "False"].contains s then some false
  else none

/-- What is asked for once a flag has a value. -/
def change (f : Flag σ) (s : σ) (value : String) : Except FlagError σ :=
  match f.kind with
  | .text set => .ok (set s value)
  | .texts add => match Record.parse value with
    | .ok vs => .ok (add s vs)
    | .error reason => .error (.invalid value f.title reason)
  | .switch set => match truth? value with
    | some b => .ok (set s b)
    | none => .error (.invalid value f.title
        ("strconv.ParseBool: parsing " ++ Text.Quoted.text value ++ ": invalid syntax"))

/-- Gives a flag a value. -/
def give (f : Flag σ) (p : Parsed σ) (value : String) : Except FlagError (Parsed σ) := do
  return { p with asked := ← f.change p.asked value, given := p.given ++ [f.name] }

/-- Reads a long flag, without its hyphens, and gives the arguments that are left. -/
def readLong (flags : List (Flag σ)) (p : Parsed σ) (arg body : String) (rest : List String) :
    Except FlagError (Parsed σ × List String) := do
  let name := String.ofList (body.toList.takeWhile (· != '='))
  let value := body.toList.dropWhile (· != '=')
  if name.isEmpty || name.startsWith "-" then throw (.badSyntax arg)
  let some f := flags.find? (·.name == name) | throw (.unknown name)
  match value, rest with
  | _ :: value, rest => return (← f.give p (String.ofList value), rest)
  | [], rest =>
    if f.isSwitch then return (← f.give p "true", rest)
    else match rest with
      | [] => throw (.missingValue arg)
      | value :: rest => return (← f.give p value, rest)

/-- What marks arguments that are meant for someone else: the rest of a group is skipped. -/
def foreignMark : List Char := "test.".toList

/-- Reads a group of short flags, without their hyphen, and gives the arguments that are left. -/
def readShort (flags : List (Flag σ)) (p : Parsed σ) (rest : List String) :
    List Char → Except FlagError (Parsed σ × List String)
  | [] => .ok (p, rest)
  | c :: group => do
    if foreignMark.isPrefixOf (c :: group) then return (p, rest)
    let whole := String.ofList (c :: group)
    let some f := flags.find? (·.short == some c) | throw (.unknownShort whole)
    match group with
    | '=' :: v :: value => return (← f.give p (String.ofList (v :: value)), rest)
    | group =>
      if f.isSwitch then readShort flags (← f.give p "true") rest group
      else if !group.isEmpty then return (← f.give p (String.ofList group), rest)
      else match rest with
        | [] => throw (.missingShortValue whole)
        | value :: rest => return (← f.give p value, rest)

/-- Reads the arguments one by one. -/
def parseFrom (flags : List (Flag σ)) :
    Nat → Parsed σ → List String → Except FlagError (Parsed σ)
  | 0, p, _ => .ok p
  | _, p, [] => .ok p
  | fuel + 1, p, arg :: rest => match arg.toList with
    | '-' :: '-' :: [] => .ok { p with inputs := p.inputs ++ rest, closed := true }
    | '-' :: '-' :: body => do
      let (p, rest) ← readLong flags p arg (String.ofList body) rest
      parseFrom flags fuel p rest
    | '-' :: c :: group => do
      let (p, rest) ← readShort flags p rest (c :: group)
      parseFrom flags fuel p rest
    | _ => parseFrom flags fuel { p with inputs := p.inputs ++ [arg] } rest

/-- What some arguments say; without them `start` is asked for. -/
def parse (flags : List (Flag σ)) (start : σ) (args : List String) :
    Except FlagError (Parsed σ) :=
  parseFrom flags args.length { asked := start } args

/-! ### Help -/

/-- What is said of the kind of a value. -/
def valueName (f : Flag σ) : String := match f.kind with
  | .text _ => " string"
  | .texts _ => " strings"
  | .switch _ => ""

/-- The names of a flag at the head of its line. -/
def lineHead (f : Flag σ) : String :=
  (if f.short.isSome then "  " else "      ") ++ f.title ++ f.valueName

/-- A line for each flag, with what it is for in a column of its own. -/
def usageLines (flags : List (Flag σ)) : List String :=
  let widest := (flags.map fun f => f.lineHead.length).foldl max 0
  flags.map fun f =>
    let head := f.lineHead
    let gap := String.ofList (List.replicate (widest + 3 - head.length) ' ')
    let default := if f.default.isEmpty then "" else
      " (default " ++ Text.Quoted.text f.default ++ ")"
    head ++ gap ++ f.usage ++ default

/-- What a flag for help is for. -/
def helpUsage (command : String) : String := "help for " ++ command

end Flag

end CSharpAudit
