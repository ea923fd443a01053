import ChangeLedger.Cli.Spec
/-! # Help text

The help of a command is its description, its usage line, and sections for its subcommands,
positional arguments and options. Each section is a column of names and a column of
descriptions. The description of an argument ends with the environment variable it reads (and
that variable's current value) and its default.

Lines are not wrapped. When the name column is wide (more than 40 of the 100 columns of the page)
and some description would not fit beside it, every description of the section goes on the line
after its name instead, indented by ten.
-/
namespace ChangeLedger

def pageWidth : Nat := 100

def spaces (n : Nat) : String := String.ofList (List.replicate n ' ')

def textWidth (s : String) : Nat := s.length

/-- The notes after a description: the environment variable with its value, and the default. -/
def ArgSpec.notes (a : ArgSpec) (envValue : String → Option String) : String :=
  let envNote := match a.env with
    | some e => ["[env: " ++ e ++ "=" ++ (envValue e).getD "" ++ "]"]
    | none => []
  let defaultNote := match a.default with
    | some d => if a.takesValue then
        ["[default: " ++ (if d.toList.any Char.isWhitespace then "\"" ++ d ++ "\"" else d) ++ "]"]
      else []
    | none => []
  " ".intercalate (envNote ++ defaultNote)

def ArgSpec.nameColumn (a : ArgSpec) : String :=
  let shortPart := match a.short, a.long with
    | some s, _ => "-" ++ String.singleton s
    | none, some _ => "    "
    | none, none => ""
  let longPart := match a.long with
    | some l => (if a.short.isSome then ", " else "") ++ "--" ++ l
    | none => ""
  let suffix := if a.isPositional then a.placeholder a.required
    else if a.takesValue then " " ++ a.placeholder a.required else ""
  shortPart ++ longPart ++ suffix

def ArgSpec.claimedWidth (a : ArgSpec) : Nat :=
  textWidth a.display + (if a.isPositional then 0 else 4)

def ArgSpec.describe (a : ArgSpec) (envValue : String → Option String) : String :=
  let notes := a.notes envValue
  if notes.isEmpty then a.help else if a.help.isEmpty then notes else a.help ++ " " ++ notes

/-- Whether a description must move below its name, given the name column's width. -/
def movesBelow (longest : Nat) (descriptionWidth : Nat) : Bool :=
  let taken := longest + 4
  taken ≤ pageWidth && taken > 40 && descriptionWidth > pageWidth - taken

def argSection (args : List ArgSpec) (envValue : String → Option String) : List String :=
  let longest := args.foldl (fun m a =>
    if a.takesValue || a.long.isSome || a.short.isNone then max m a.claimedWidth else m) 2
  let below := args.any fun a =>
    movesBelow longest (textWidth a.help + textWidth (a.notes envValue))
  args.map fun a =>
    let name := a.nameColumn
    let text := a.describe envValue
    if below then "  " ++ name ++ "\n" ++ spaces 10 ++ text
    else if text.isEmpty then "  " ++ name
    else
      let pad := if a.isPositional then longest + 2 - textWidth a.display
        else longest + 2 + (if a.long.isSome then 0 else 4) - (textWidth a.display + 4)
      "  " ++ name ++ spaces pad ++ text

def subcommandSection (subs : List (String × String)) : List String :=
  let longest := subs.foldl (fun m p => max m (textWidth p.1)) 2
  subs.map fun (name, about) =>
    if about.isEmpty then "  " ++ name
    else "  " ++ name ++ spaces (longest + 2 - textWidth name) ++ about

/-- The help of a command, given its subcommand list and its full usage line. -/
def helpText (c : CommandSpec) (subs : List (String × String)) (usage : String)
    (envValue : String → Option String) : String :=
  let sections :=
    (if subs.isEmpty then [] else ["Commands:\n" ++ "\n".intercalate (subcommandSection subs)]) ++
    (if c.positionals.isEmpty then []
     else ["Arguments:\n" ++ "\n".intercalate (argSection c.positionals envValue)]) ++
    (if c.options.isEmpty then []
     else ["Options:\n" ++ "\n".intercalate (argSection c.options envValue)])
  let head := if c.about.isEmpty then "" else c.about ++ "\n\n"
  head ++ "Usage: " ++ usage ++ "\n\n" ++ "\n\n".intercalate sections ++ "\n"

def versionText (c : CommandSpec) : String := c.displayName ++ " " ++ c.version ++ "\n"

end ChangeLedger
