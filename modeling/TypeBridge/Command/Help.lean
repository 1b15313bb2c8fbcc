import TypeBridge.Command.Arguments

/-!
# Help pages

What the program and its commands are for, and what may follow their names.  A page explains terms
in sections; the explanations of a section begin in one column.
-/

namespace TypeBridge

/-- Terms with their explanations, below a heading. -/
structure HelpSection where
  heading : String
  entries : List (String × String)
  deriving DecidableEq, Repr

namespace HelpSection

def width (part : HelpSection) : Nat :=
  part.entries.foldl (fun widest entry => max widest entry.1.length) 0

def lines (part : HelpSection) : List String :=
  "" :: (part.heading ++ ":") :: part.entries.map fun (term, explanation) =>
    "  " ++ String.ofList (term.toList.rightpad part.width ' ') ++ "  " ++ explanation

end HelpSection

structure HelpPage where
  purpose : String
  usage : String
  parts : List HelpSection
  deriving DecidableEq, Repr

def HelpPage.lines (page : HelpPage) : List String :=
  page.purpose :: "" :: ("Usage: " ++ page.usage) :: page.parts.flatMap HelpSection.lines

def CommandName.purpose : CommandName → String
  | generate => "Generate declarations and adapters from glot.toml"
  | check => "Run the pass without writing anything and print its diagnostics"
  | list => "List the declaration and recipe candidates of the model"
  | completions => "Generate shell completions"

namespace Arguments.Switch

/-- A switch as it is written, with its value or a sign that it may be repeated. -/
def term (switch : Switch) : String :=
  let front := (switch.letter?.map fun letter => "-" ++ letter.toString ++ ", ").getD "    "
  let behind :=
    match switch with
    | config => " <CONFIG>"
    | output => " <OUTPUT>"
    | verbose => "..."
    | dryRun | visualize | help | version => ""
  front ++ "--" ++ switch.name ++ behind

def explanation : Switch → String
  | config => "Path to glot.toml (defaults to ./glot.toml) [default: " ++ defaultConfig ++ "]"
  | verbose => "Increase log verbosity (-v, -vv, -vvv)"
  | output => "Output directory (overrides the `output` setting of glot.toml)"
  | dryRun => "Preview generated files without writing to disk"
  | visualize => "Dump a JSON snapshot of the pass after each phase into <output>/.glot"
  | help => "Print help"
  | version => "Print version"

end Arguments.Switch

namespace HelpTopic

/-- What the command `help` is for. -/
def helpPurpose : String :=
  "Print this message or the help of the given subcommand(s)"

/-- The switches that may stand behind a command, or in front of all commands. -/
def options (command : Option CommandName) : HelpSection where
  heading := "Options"
  entries := (Arguments.Switch.all.filter (·.isAllowed command)).map fun switch =>
    (switch.term, switch.explanation)

/-- What has to follow a command. -/
def shellArgument : HelpSection where
  heading := "Arguments"
  entries := [("<SHELL>", "Shell to generate completions for [possible values: "
    ++ ", ".intercalate (Shell.all.map Shell.name) ++ "]")]

def page : HelpTopic → HelpPage
  | program =>
    ⟨"Generate TypeScript declarations and recipe adapters from a host AST model",
      "glot [OPTIONS] <COMMAND>",
      [⟨"Commands", CommandName.all.map (fun name => (name.word, name.purpose))
        ++ [("help", helpPurpose)]⟩, options none]⟩
  | command .completions =>
    ⟨CommandName.completions.purpose, "glot completions [OPTIONS] <SHELL>",
      [shellArgument, options (some .completions)]⟩
  | command name => ⟨name.purpose, "glot " ++ name.word ++ " [OPTIONS]", [options (some name)]⟩
  | help =>
    ⟨helpPurpose, "glot help [COMMAND]...",
      [⟨"Arguments", [("[COMMAND]...", "Print help for the subcommand(s)")]⟩]⟩

end HelpTopic

end TypeBridge
