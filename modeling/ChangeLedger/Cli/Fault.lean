import ChangeLedger.Cli.Similar
/-! # Command-line faults

A `CliFault` ends a parse: a request for help or for the version (printed to standard output,
exit status 0), or a mistake in the command line (printed to standard error, exit status 2).

A mistake is rendered as `error: ` and its description, then tips (similar names, how to pass
a word that looks like a flag as a value), then the
usage line when the mistake is about which arguments were given, and last a pointer to `--help`.
-/
namespace ChangeLedger

/-- Why a parse stopped. -/
inductive CliFault
  /-- Help was asked for; the text is the help. -/
  | displayHelp (text : String)
  /-- The version was asked for; the text is the version line. -/
  | displayVersion (text : String)
  /-- An argument no command knows, with the closest known long name and further tips. -/
  | unknownArgument (arg : String) (similar : Option String) (hints : List String) (usage : String)
  /-- A value that is empty where one is required, or none of the allowed choices. -/
  | invalidValue (arg value : String) (choices : List String)
  /-- A value that does not parse. -/
  | valueValidation (arg value reason : String)
  /-- An argument given twice. -/
  | argumentConflict (arg : String) (usage : String)
  /-- A value attached to an argument that takes none. -/
  | tooManyValues (value arg : String) (usage : String)
  | missingRequired (missing : List String) (usage : String)
  | missingSubcommand (name : String) (subcommands : List String) (usage : String)
  /-- A word that is no subcommand, with similar subcommand names (least similar first);
  `pointer` tells whether the command has a `--help` flag to point to. -/
  | invalidSubcommand (name : String) (similar : List String) (usage : String) (pointer : Bool)
  deriving DecidableEq, Repr

namespace CliFault

def kindName : CliFault → String
  | .displayHelp _ => "DisplayHelp"
  | .displayVersion _ => "DisplayVersion"
  | .unknownArgument .. => "UnknownArgument"
  | .invalidValue .. => "InvalidValue"
  | .valueValidation .. => "ValueValidation"
  | .argumentConflict .. => "ArgumentConflict"
  | .tooManyValues .. => "TooManyValues"
  | .missingRequired .. => "MissingRequiredArgument"
  | .missingSubcommand .. => "MissingSubcommand"
  | .invalidSubcommand .. => "InvalidSubcommand"

def isRequest : CliFault → Bool
  | .displayHelp _ | .displayVersion _ => true
  | _ => false

def exitCode (f : CliFault) : Nat := if f.isRequest then 0 else 2

def listedValue (v : String) : String :=
  if v.toList.any Char.isWhitespace then "\"" ++ v ++ "\"" else v

def tip (text : String) : String := "\n\n  tip: " ++ text

def similarTip (kind : String) : List String → String
  | [] => ""
  | [n] => tip ("a similar " ++ kind ++ " exists: '" ++ n ++ "'")
  | ns => tip ("some similar " ++ kind ++ "s exist: " ++ ", ".intercalate (ns.map fun n => "'" ++ n ++ "'"))

def body : CliFault → String
  | .displayHelp t | .displayVersion t => t
  | .unknownArgument arg similar hints usage =>
    let tips := (similar.map fun n => "a similar argument exists: '" ++ n ++ "'").toList ++ hints
    "unexpected argument '" ++ arg ++ "' found" ++
      (if tips.isEmpty then "" else "\n" ++ String.join (tips.map ("\n  tip: " ++ ·))) ++
      "\n\nUsage: " ++ usage
  | .invalidValue arg value choices =>
    (if value.isEmpty then "a value is required for '" ++ arg ++ "' but none was supplied"
     else "invalid value '" ++ value ++ "' for '" ++ arg ++ "'") ++
    (if choices.isEmpty then ""
     else "\n  [possible values: " ++ ", ".intercalate (choices.map listedValue) ++ "]") ++
    similarTip "value" (closestName value choices).toList
  | .valueValidation arg value reason =>
    "invalid value '" ++ value ++ "' for '" ++ arg ++ "': " ++ reason
  | .argumentConflict arg usage =>
    "the argument '" ++ arg ++ "' cannot be used multiple times" ++ "\n\nUsage: " ++ usage
  | .tooManyValues value arg usage =>
    "unexpected value '" ++ value ++ "' for '" ++ arg ++ "' found; no more were expected" ++
      "\n\nUsage: " ++ usage
  | .missingRequired missing usage =>
    "the following required arguments were not provided:" ++
      String.join (missing.map ("\n  " ++ ·)) ++ "\n\nUsage: " ++ usage
  | .missingSubcommand name subs usage =>
    "'" ++ name ++ "' requires a subcommand but one was not provided" ++
      (if subs.isEmpty then "" else "\n  [subcommands: " ++ ", ".intercalate subs ++ "]") ++
      "\n\nUsage: " ++ usage
  | .invalidSubcommand name similar usage _ =>
    "unrecognized subcommand '" ++ name ++ "'" ++ similarTip "subcommand" similar ++
      "\n\nUsage: " ++ usage

/-- Whether a rendered mistake ends by pointing to `--help`. -/
def pointsToHelp : CliFault → Bool
  | .invalidSubcommand _ _ _ pointer => pointer
  | _ => true

/-- The text the fault prints: the help or version text itself, or the rendered mistake. -/
def render (f : CliFault) : String :=
  if f.isRequest then f.body
  else "error: " ++ f.body ++
    (if f.pointsToHelp then "\n\nFor more information, try '--help'.\n" else "\n")

def firstLine (f : CliFault) : String := (f.render.splitOn "\n").headD ""

end CliFault

end ChangeLedger
