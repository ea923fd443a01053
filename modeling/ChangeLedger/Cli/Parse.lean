import ChangeLedger.Cli.Fault
import ChangeLedger.Cli.Help
/-! # Parsing a command line

The words of a command line are read left to right:

* `--name=value`, `--name value`, `-x value`, `-xvalue` and `-x=value` give options; switches and
  the help and version actions take no value, and short ones may be bundled (`-hV`);
* `--` makes every later word positional;
* at the root, a subcommand name hands the remaining words to that subcommand (`help` prints the
  help of the command it names);
* any other word is the next positional argument.

An option's value is checked when the option is complete, which is at the next argument, or at
the end. A checked value that fails stops the parse, except when the next word is unknown: then
the unknown word is reported. After the words, options not given are read from their
environment variables, then defaults fill in, and last required arguments and the subcommand
are checked.

`parseApp` returns the values of the root and of the subcommand given, or the `CliFault` that
stopped the parse.
-/
namespace ChangeLedger

inductive ValueSource
  | commandLine
  | environment
  | defaultValue
  deriving DecidableEq, Repr

structure Matched where
  id : String
  values : List String
  source : ValueSource
  deriving DecidableEq, Repr

/-- The arguments given, in the order they were completed. -/
abbrev Matches := List Matched

namespace Matches

def lookup (m : Matches) (id : String) : Option Matched := List.find? (·.id == id) m

def value? (m : Matches) (id : String) : Option String := (m.lookup id).bind (·.values.head?)

def has (m : Matches) (id : String) : Bool := (m.lookup id).isSome

def explicit (m : Matches) : List String :=
  (List.filter (fun x => x.source != .defaultValue) m).map (·.id)

end Matches

/-- What a parse knows about the command it reads. -/
structure ParseScope where
  app : AppSpec
  cmd : CommandSpec
  /-- Whether this is the root (which has the subcommands). -/
  atRoot : Bool
  env : List (String × String)

namespace ParseScope

def envValue (s : ParseScope) (name : String) : Option String := s.env.lookup name

def subcommandList (s : ParseScope) : List (String × String) :=
  if s.atRoot && s.app.hasSubcommands then
    s.app.subcommands.map (fun c => (c.name, c.about)) ++ [("help", helpSubcommandAbout)]
  else []

def fullUsage (s : ParseScope) : String :=
  helpUsage s.cmd (if s.atRoot && s.app.hasSubcommands then some s.app.subcommandRequired else none)

def usageFor (s : ParseScope) (used : List String) : String :=
  if used.isEmpty then s.fullUsage
  else smartUsage s.cmd used (s.atRoot && s.app.subcommandRequired)

def help (s : ParseScope) : String :=
  helpText s.cmd s.subcommandList s.fullUsage s.envValue

def valueHint (s : ParseScope) (arg : String) : List String :=
  if s.cmd.positionals.isEmpty then []
  else ["to pass '" ++ arg ++ "' as a value, use '-- " ++ arg ++ "'"]

/-- For an unknown long name at the root: the first later subcommand with a similar long name. -/
def laterSubcommandFlag (s : ParseScope) (name : String) (later : List String) :
    Option (String × String) :=
  if !s.atRoot then none
  else
    let found := s.app.subcommands.filterMap fun c =>
      match closestName name c.longNames, later.findIdx? (· == c.name) with
      | some flag, some place => some (place, c.name, flag)
      | _, _ => none
    ((found.mergeSort fun a b => a.1 ≤ b.1).head?).map fun (_, sub, flag) => (sub, flag)

end ParseScope

/-- The state of reading one command's words. -/
structure LevelState where
  matched : Matches := []
  /-- The argument whose value is being collected, with the values so far. -/
  pending : Option (ArgSpec × List String) := none
  position : Nat := 0
  /-- Whether `--` was seen. -/
  trailing : Bool := false

def checkValues (a : ArgSpec) : List String → Except CliFault Unit
  | [] => pure ()
  | v :: vs =>
    match a.check v with
    | none => checkValues a vs
    | some .missing => throw (.invalidValue a.display "" [])
    | some (.notOneOf cs) => throw (.invalidValue a.display v cs)
    | some (.refused r) => throw (.valueValidation a.display v r)

/-- Record an argument and check its values; it counts as given even when a value fails. -/
def record (scope : ParseScope) (st : LevelState) (a : ArgSpec) (values : List String)
    (source : ValueSource) : LevelState × Option CliFault :=
  match a.action with
  | .help => (st, some (.displayHelp scope.help))
  | .version => (st, some (.displayVersion (versionText scope.cmd)))
  | .set | .setTrue =>
    let values := if a.action = .setTrue && values.isEmpty then ["true"] else values
    if source = .commandLine && a.action = .set && values.isEmpty then
      (st, some (.invalidValue a.display "" []))
    else if source = .commandLine && st.matched.has a.id then
      (st, some (.argumentConflict a.display scope.fullUsage))
    else
      let st := { st with matched := st.matched ++ [⟨a.id, values, source⟩] }
      match checkValues a values with
      | .ok () => (st, none)
      | .error f => (st, some f)

def resolvePending (scope : ParseScope) (st : LevelState) : LevelState × Option CliFault :=
  match st.pending with
  | none => (st, none)
  | some (a, values) => record scope { st with pending := none } a values .commandLine

def resolve (scope : ParseScope) (st : LevelState) : Except CliFault LevelState :=
  match resolvePending scope st with
  | (st, none) => .ok st
  | (_, some f) => .error f

def react (scope : ParseScope) (st : LevelState) (a : ArgSpec) (values : List String) :
    Except CliFault LevelState := do
  let st ← resolve scope st
  match record scope st a values .commandLine with
  | (st, none) => pure st
  | (_, some f) => throw f

def optionValue (scope : ParseScope) (st : LevelState) (a : ArgSpec) (attached : Option String) :
    Except CliFault LevelState := do
  match attached with
  | some v => react scope st a [v]
  | none =>
    let st ← resolve scope st
    pure { st with pending := some (a, []) }

def shortBundle (scope : ParseScope) (st : LevelState) : List Char → Except CliFault LevelState
  | [] => pure st
  | c :: rest =>
    match scope.cmd.findShort c with
    | none =>
      let arg := "-" ++ String.singleton c
      throw (.unknownArgument arg none (scope.valueHint arg) scope.fullUsage)
    | some a =>
      if a.takesValue then
        let v := String.ofList rest
        let attached := if v.isEmpty then none
          else some (if v.startsWith "=" then String.ofList (rest.drop 1) else v)
        optionValue scope st a attached
      else do
        let st ← react scope st a []
        shortBundle scope st rest

/-- A long option, `--name` or `--name=value`; an unknown name gets the closest one as a tip. -/
def longOption (scope : ParseScope) (st : LevelState) (name : String) (attached : Option String)
    (later : List String) : Except CliFault LevelState :=
  match scope.cmd.findLong name with
  | some a =>
    if a.takesValue then optionValue scope st a attached
    else match attached with
      | some v =>
        let used := st.matched.explicit ++ [a.id]
        throw (.tooManyValues v a.display (scope.usageFor used))
      | none => react scope st a []
  | none =>
    let (st, _) := resolvePending scope st
    let arg := "--" ++ name
    match closestName name scope.cmd.longNames with
    | some similar =>
      let used := st.matched.explicit ++ ((scope.cmd.findLong similar).map (·.id)).toList
      throw (.unknownArgument arg (some ("--" ++ similar)) [] (scope.usageFor used))
    | none =>
      let hints := match scope.laterSubcommandFlag name later with
        | some (sub, flag) => ["'" ++ sub ++ " --" ++ flag ++ "' exists"]
        | none => scope.valueHint arg
      throw (.unknownArgument arg none hints (scope.usageFor st.matched.explicit))

def positionalWord (scope : ParseScope) (st : LevelState) (word : String) :
    Except CliFault LevelState :=
  match scope.cmd.positionalAt st.position with
  | some a => do
    let st ← resolve scope st
    pure { st with pending := some (a, [word]), position := st.position + 1 }
  | none =>
    let names := if scope.atRoot then scope.app.subcommandNames else []
    let similar := similarNames word names
    if st.trailing && names.contains word then
      throw (.unknownArgument word none
        ["subcommand '" ++ word ++ "' exists; to use it, remove the '--' before it"] scope.fullUsage)
    else if !similar.isEmpty then throw (.invalidSubcommand word similar scope.fullUsage true)
    else if scope.atRoot && scope.app.hasSubcommands then
      throw (.invalidSubcommand word [] scope.fullUsage true)
    else throw (.unknownArgument word none [] scope.fullUsage)

/-- The help named by the subcommand path after `help`. -/
def helpFor (scope : ParseScope) : List String → CliFault
  | [] => .displayHelp scope.help
  | w :: ws =>
    let next := if !scope.atRoot then none
      else if w = "help" then some scope.app.helpCommand
      else scope.app.findSubcommand w
    match next with
    | some c => helpFor { scope with cmd := c, atRoot := false } ws
    | none => .invalidSubcommand w [] scope.fullUsage (scope.cmd.args.any (·.action = .help))

def splitAttached (body : String) : String × Option String :=
  match body.splitOn "=" with
  | [] => (body, none)
  | [n] => (n, none)
  | n :: vs => (n, some ("=".intercalate vs))

/-- Read the words of one command; a subcommand name ends the reading with the words after it. -/
def readWords (scope : ParseScope) :
    LevelState → List String → Except CliFault (LevelState × Option (String × List String))
  | st, [] => pure (st, none)
  | st, w :: ws => do
    if st.trailing then
      let st ← positionalWord scope st w
      readWords scope st ws
    else if scope.atRoot && scope.app.subcommandNames.contains w then
      if w = "help" then throw (helpFor scope ws)
      else pure (st, some (w, ws))
    else if w = "--" then
      let st ← resolve scope st
      readWords scope { st with trailing := true } ws
    else if w.startsWith "--" then
      let (name, attached) := splitAttached (String.ofList (w.toList.drop 2))
      let st ← longOption scope st name attached ws
      readWords scope st ws
    else if w.startsWith "-" && w != "-" then
      let st ← shortBundle scope st (w.toList.drop 1)
      readWords scope st ws
    else
      match st.pending with
      | some (a, []) =>
        if a.isPositional then
          let st ← positionalWord scope st w
          readWords scope st ws
        else readWords scope { st with pending := some (a, [w]) } ws
      | _ =>
        let st ← positionalWord scope st w
        readWords scope st ws

def addEnvironment (scope : ParseScope) (st : LevelState) : List ArgSpec → Except CliFault LevelState
  | [] => pure st
  | a :: as =>
    match a.env.bind scope.envValue with
    | some v =>
      if st.matched.has a.id then addEnvironment scope st as
      else match record scope st a [v] .environment with
        | (st, none) => addEnvironment scope st as
        | (_, some f) => throw f
    | none => addEnvironment scope st as

def addDefaults (st : LevelState) (args : List ArgSpec) : LevelState :=
  args.foldl (fun st a =>
    match a.default with
    | some d => if st.matched.has a.id then st
      else { st with matched := st.matched ++ [⟨a.id, [d], .defaultValue⟩] }
    | none => st) st

/-- Finish one command: pending value, environment, defaults, then missing arguments. -/
def finishLevel (scope : ParseScope) (st : LevelState) (hasSubcommand : Bool) :
    Except CliFault Matches := do
  let st ← resolve scope st
  let st ← addEnvironment scope st scope.cmd.args
  let st := addDefaults st scope.cmd.args
  if scope.atRoot && !hasSubcommand && scope.app.subcommandRequired then
    throw (.missingSubcommand scope.cmd.name scope.app.subcommandNames scope.fullUsage)
  let missing := scope.cmd.args.filter fun a => a.required && !st.matched.has a.id
  if !missing.isEmpty then
    let shown := (missing.filter (!·.isPositional)).map (·.displayAs true) ++
      ((missing.filter (·.isPositional)).mergeSort fun a b => a.index.getD 0 ≤ b.index.getD 0).map
        (·.displayAs true)
    throw (.missingRequired shown (scope.usageFor st.matched.explicit))
  pure st.matched

structure ParsedLine where
  root : Matches
  subcommand : Option (String × Matches)

/-- Parse the words of a command line (without the program name) for an application. -/
def parseApp (app : AppSpec) (env : List (String × String)) (words : List String) :
    Except CliFault ParsedLine := do
  let rootScope : ParseScope := ⟨app, app.root, true, env⟩
  let (st, sub) ← readWords rootScope {} words
  match sub with
  | none =>
    let m ← finishLevel rootScope st false
    pure ⟨m, none⟩
  | some (name, rest) =>
    match app.findSubcommand name with
    | none =>
      let m ← finishLevel rootScope st false
      pure ⟨m, none⟩
    | some c =>
      let subScope : ParseScope := ⟨app, c, false, env⟩
      let (subSt, _) ← readWords subScope {} rest
      let subM ← finishLevel subScope subSt false
      let m ← finishLevel rootScope st true
      pure ⟨m, some (name, subM)⟩

end ChangeLedger
