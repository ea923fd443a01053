/-! # Command-line specifications

A command line is described by a `CommandSpec`: its arguments (options that take one value,
switches, the help and version actions, and positional arguments) and how each is shown. An
`AppSpec` is a root command with, possibly, subcommands.

This module also holds the two ways an argument is written in messages: `ArgSpec.display` (the
long name, or else the short one, and the value placeholder) and the usage lines: the full usage
of `helpUsage`, and the usage of `smartUsage` that lists only the required arguments and those
given.
-/
namespace ChangeLedger

inductive ArgAction
  /-- Takes one value. -/
  | set
  /-- A switch: given means true. -/
  | setTrue
  | help
  | version
  deriving DecidableEq, Repr

inductive ValueFault
  /-- An empty value where one is required. -/
  | missing
  /-- The value does not parse; the reason follows it in the message. -/
  | refused (reason : String)
  | notOneOf (choices : List String)
  deriving DecidableEq, Repr

/-- One argument of a command. -/
structure ArgSpec where
  id : String
  short : Option Char := none
  long : Option String := none
  /-- The placeholder of the value (options and positional arguments). -/
  valueName : String := ""
  action : ArgAction := .set
  /-- The place among the positional arguments, for a positional argument. -/
  index : Option Nat := none
  /-- Whether a positional argument takes any number of values (shown with `...`). -/
  multiple : Bool := false
  required : Bool := false
  /-- The environment variable read when the argument is not given. -/
  env : Option String := none
  default : Option String := none
  help : String := ""
  check : String → Option ValueFault := fun _ => none

namespace ArgSpec

def isPositional (a : ArgSpec) : Bool := a.index.isSome

def takesValue (a : ArgSpec) : Bool := a.action = .set

/-- The value placeholder: `<NAME>`, `[NAME]` for an optional positional, `...` for many values. -/
def placeholder (a : ArgSpec) (required : Bool) : String :=
  (if a.isPositional && !required then "[" ++ a.valueName ++ "]" else "<" ++ a.valueName ++ ">") ++
    (if a.multiple then "..." else "")

def displayAs (a : ArgSpec) (required : Bool) : String :=
  let name := match a.long, a.short with
    | some l, _ => "--" ++ l
    | none, some s => "-" ++ String.singleton s
    | none, none => ""
  if a.isPositional then name ++ a.placeholder required
  else if a.takesValue then name ++ " " ++ a.placeholder required
  else name

def display (a : ArgSpec) : String := a.displayAs a.required

end ArgSpec

/-- One command: its names, texts and arguments (help and version included, last). -/
structure CommandSpec where
  name : String
  /-- The command path shown in usage lines. -/
  usageName : String
  /-- The name printed with the version. -/
  displayName : String
  version : String
  about : String
  args : List ArgSpec

/-- A root command and its subcommands. -/
structure AppSpec where
  root : CommandSpec
  subcommands : List CommandSpec := []
  subcommandRequired : Bool := false

def helpSubcommandAbout : String := "Print this message or the help of the given subcommand(s)"

namespace AppSpec

def hasSubcommands (app : AppSpec) : Bool := !app.subcommands.isEmpty

/-- The built-in `help` subcommand: one optional positional taking a subcommand path. -/
def helpCommand (app : AppSpec) : CommandSpec where
  name := "help"
  usageName := app.root.usageName ++ " help"
  displayName := app.root.displayName ++ "-help"
  version := app.root.version
  about := helpSubcommandAbout
  args := [{ id := "subcommand", valueName := "COMMAND", index := some 0, multiple := true,
             help := "Print help for the subcommand(s)" }]

def subcommandNames (app : AppSpec) : List String :=
  if app.hasSubcommands then app.subcommands.map (·.name) ++ ["help"] else []

def findSubcommand (app : AppSpec) (name : String) : Option CommandSpec :=
  app.subcommands.find? (·.name == name)

end AppSpec

namespace CommandSpec

def findLong (c : CommandSpec) (l : String) : Option ArgSpec := c.args.find? (·.long == some l)

def findShort (c : CommandSpec) (s : Char) : Option ArgSpec := c.args.find? (·.short == some s)

def findId (c : CommandSpec) (id : String) : Option ArgSpec := c.args.find? (·.id == id)

def positionalAt (c : CommandSpec) (i : Nat) : Option ArgSpec := c.args.find? (·.index == some i)

def longNames (c : CommandSpec) : List String := c.args.filterMap (·.long)

def positionals (c : CommandSpec) : List ArgSpec :=
  (c.args.filter (·.isPositional)).mergeSort fun a b => a.index.getD 0 ≤ b.index.getD 0

def options (c : CommandSpec) : List ArgSpec := c.args.filter (!·.isPositional)

def needsOptionsTag (c : CommandSpec) : Bool :=
  c.options.any fun a => (a.action = .set || a.action = .setTrue) && !a.required

/-- The arguments a usage line names: required ones and those in `used`, options first. -/
def usageArgs (c : CommandSpec) (used : List String) (allPositionals : Bool) : List String :=
  let wanted := (c.args.filter (·.required)).map (·.id) ++ used
  let opts := (c.options.filter fun a => wanted.contains a.id)
  let optTexts := (wanted.filterMap fun id => (opts.find? (·.id == id)).map (·.displayAs true))
  let optTexts := optTexts.foldl (fun acc s => if acc.contains s then acc else acc ++ [s]) []
  let posTexts := c.positionals.filterMap fun a =>
    if wanted.contains a.id then some (a.displayAs true)
    else if allPositionals then some (a.displayAs false) else none
  optTexts ++ posTexts

end CommandSpec

def helpUsage (c : CommandSpec) (subcommandRequired : Option Bool) : String :=
  let parts := [c.usageName] ++ (if c.needsOptionsTag then ["[OPTIONS]"] else []) ++
    c.usageArgs [] true ++
    (match subcommandRequired with
      | some true => ["<COMMAND>"]
      | some false => ["[COMMAND]"]
      | none => [])
  " ".intercalate parts

/-- The usage line naming only required arguments and the arguments in `used`. -/
def smartUsage (c : CommandSpec) (used : List String) (subcommandRequired : Bool) : String :=
  " ".intercalate ([c.usageName] ++ c.usageArgs used true ++
    (if subcommandRequired then ["<COMMAND>"] else []))

end ChangeLedger
