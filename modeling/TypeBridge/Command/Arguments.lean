/-!
# Command-line arguments

Arguments are read from left to right.  Switches may stand alone, share one dash, or carry a value;
the first request for help or for the version settles everything.
-/

namespace TypeBridge

inductive Shell where
  | bash
  | elvish
  | fish
  | powershell
  | zsh
  deriving DecidableEq, Repr

namespace Shell

def all : List Shell :=
  [bash, elvish, fish, powershell, zsh]

def name : Shell → String
  | bash => "bash"
  | elvish => "elvish"
  | fish => "fish"
  | powershell => "powershell"
  | zsh => "zsh"

def ofName? (name : String) : Option Shell :=
  all.find? (·.name == name)

end Shell

/-- What the program is asked to do. -/
inductive Command where
  /-- Write the generated files, or show them when it is a dry run.  The phases of the pass may be
  recorded. -/
  | generate (config : String) (output : Option String) (dryRun recorded : Bool)
  | check (config : String)
  | list (config : String)
  | completions (shell : Shell)
  deriving DecidableEq, Repr

inductive CommandName where
  | generate
  | check
  | list
  | completions
  deriving DecidableEq, Repr

namespace CommandName

def all : List CommandName :=
  [generate, check, list, completions]

def word : CommandName → String
  | generate => "generate"
  | check => "check"
  | list => "list"
  | completions => "completions"

def ofWord? (word : String) : Option CommandName :=
  all.find? (·.word == word)

end CommandName

inductive HelpTopic where
  | program
  | command (name : CommandName)
  | help
  deriving DecidableEq, Repr

/-- The topic of the word behind `help`. -/
def HelpTopic.ofWord? (word : String) : Option HelpTopic :=
  if word = "help" then some .help else (CommandName.ofWord? word).map .command

/-- What the program is asked for. -/
inductive Request where
  | version
  | help (topic : HelpTopic)
  | run (command : Command)
  deriving DecidableEq, Repr

/-- The configuration file that is read when none is given. -/
def defaultConfig : String := "glot.toml"

namespace Arguments

inductive Switch where
  | config
  | verbose
  | output
  | dryRun
  | visualize
  | help
  | version
  deriving DecidableEq, Repr

namespace Switch

/-- All switches, in the order in which they are explained. -/
def all : List Switch :=
  [config, verbose, output, dryRun, visualize, help, version]

def name : Switch → String
  | config => "config"
  | verbose => "verbose"
  | output => "output"
  | dryRun => "dry-run"
  | visualize => "visualize"
  | help => "help"
  | version => "version"

def letter? : Switch → Option Char
  | config => some 'c'
  | verbose => some 'v'
  | output => some 'o'
  | dryRun | visualize => none
  | help => some 'h'
  | version => some 'V'

def ofName? (name : String) : Option Switch :=
  all.find? (·.name == name)

def ofLetter? (letter : Char) : Option Switch :=
  all.find? (·.letter? == some letter)

/-- Whether a value belongs to the switch. -/
def takesValue : Switch → Bool
  | config | output => true
  | verbose | help | version | dryRun | visualize => false

/-- Whether the switch may stand behind a command, or in front of all commands. -/
def isAllowed (command : Option CommandName) : Switch → Bool
  | verbose | help => true
  | version => command.isNone
  | config => command.any (· != .completions)
  | output | dryRun | visualize => command == some .generate

end Switch

/-- What is read so far: a command, the switches behind it with their values, and the shell that it
is asked about. -/
structure Draft where
  command : Option CommandName
  given : List (Switch × String)
  shell : Option Shell
  deriving DecidableEq, Repr

/-- What help is about behind a command, or in front of all commands. -/
def Draft.topic (draft : Draft) : HelpTopic :=
  (draft.command.map .command).getD .program

/-- Where reading stands. -/
inductive Stage where
  | reading (draft : Draft)
  /-- The next argument is the value of a switch. -/
  | awaiting (draft : Draft) (switch : Switch)
  /-- Behind two dashes there is room for words only. -/
  | closed (draft : Draft)
  /-- Behind the word `help` one topic may be named. -/
  | explaining (named : Option HelpTopic)
  | settled (request : Request)
  deriving DecidableEq, Repr

/-- Take a switch with its value.  No value is empty, and only verbosity may be asked for twice. -/
def give (draft : Draft) (switch : Switch) (value : String) : Option Stage :=
  match switch with
  | .verbose => some (.reading draft)
  | .help => some (.settled (.help draft.topic))
  | .version => some (.settled .version)
  | _ =>
    if (draft.given.lookup switch).isSome || (switch.takesValue && value.isEmpty) then none
    else some (.reading { draft with given := draft.given ++ [(switch, value)] })

/-- Read the long name of a switch, with a value behind an equals sign if there is one. -/
def readLong (draft : Draft) (chars : List Char) : Option Stage := do
  let name := chars.takeWhile (· != '=')
  let switch ← Switch.ofName? (String.ofList name)
  if !switch.isAllowed draft.command then none
  else
    match chars.drop name.length, switch.takesValue with
    | [], true => some (.awaiting draft switch)
    | [], false => give draft switch ""
    | _ :: value, true => give draft switch (String.ofList value)
    | _ :: _, false => none

/-- Read the letters behind one dash.  What is behind a letter that takes a value is the value. -/
def readLetters (draft : Draft) : List Char → Option Stage
  | [] => some (.reading draft)
  | letter :: rest =>
    match (Switch.ofLetter? letter).filter (·.isAllowed draft.command) with
    | none => none
    | some switch =>
      if switch.takesValue then
        match rest with
        | [] => some (.awaiting draft switch)
        | '=' :: value => give draft switch (String.ofList value)
        | value => give draft switch (String.ofList value)
      else
        match give draft switch "" with
        | some (.reading next) => readLetters next rest
        | stage => stage

def readShell (draft : Draft) (word : String) : Option Draft :=
  if draft.command = some .completions ∧ draft.shell.isNone then
    (Shell.ofName? word).map fun shell => { draft with shell := some shell }
  else none

/-- Read an argument that is no switch. -/
def readWord (draft : Draft) (word : String) : Option Stage :=
  if draft.command.isSome then (readShell draft word).map .reading
  else if word = "help" then some (.explaining none)
  else (CommandName.ofWord? word).map fun command =>
    .reading { draft with command := some command }

/-- Whether an argument is written as a switch. -/
def isSwitch (arg : String) : Bool :=
  match arg.toList with
  | '-' :: _ :: _ => true
  | _ => false

def step (stage : Stage) (arg : String) : Option Stage :=
  match stage with
  | .settled request => some (.settled request)
  | .closed draft => (readShell draft arg).map .closed
  | .explaining none => (HelpTopic.ofWord? arg).map fun topic => .explaining (some topic)
  | .explaining (some _) => none
  | .awaiting draft switch => if isSwitch arg then none else give draft switch arg
  | .reading draft =>
    match arg.toList with
    | ['-', '-'] => some (.closed draft)
    | '-' :: '-' :: name => readLong draft name
    | '-' :: letter :: rest => readLetters draft (letter :: rest)
    | _ => readWord draft arg

def Draft.toCommand? (draft : Draft) : Option Command :=
  let config := (draft.given.lookup .config).getD defaultConfig
  match draft.command with
  | none => none
  | some .check => some (.check config)
  | some .list => some (.list config)
  | some .generate =>
    some (.generate config (draft.given.lookup .output) (draft.given.lookup .dryRun).isSome
      (draft.given.lookup .visualize).isSome)
  | some .completions => draft.shell.map .completions

/-- What is asked for when no argument is left. -/
def finish : Stage → Option Request
  | .settled request => some request
  | .explaining named => some (.help (named.getD .program))
  | .awaiting _ _ => none
  | .reading draft | .closed draft => draft.toCommand?.map .run

end Arguments

/-- The request of some arguments, if they make sense. -/
def Request.ofArguments? (args : List String) : Option Request :=
  (args.foldlM Arguments.step (.reading ⟨none, [], none⟩)).bind Arguments.finish

end TypeBridge
