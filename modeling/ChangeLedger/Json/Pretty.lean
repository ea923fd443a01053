import ChangeLedger.Cli.Help
/-! # Writing JSON

JSON text as the programs print it: strings escape `"`, `\` and control characters (the usual
short escapes where they exist, `\u00xx` otherwise) and keep every other character as it is.

`PrettyJson` is a value rendered at an indentation: objects and arrays put each member on its own
line, two spaces deeper than the bracket, and empty ones stay `{}` and `[]`. `compactObject`
writes an object on one line with no blanks.
-/
namespace ChangeLedger

def hexByte (n : Nat) : String :=
  let digit := fun (d : Nat) => if d < 10 then Char.ofNat (48 + d) else Char.ofNat (87 + d)
  String.ofList [digit (n / 16 % 16), digit (n % 16)]

def jsonEscape (c : Char) : String :=
  if c = '"' then "\\\""
  else if c = '\\' then "\\\\"
  else if c = '\n' then "\\n"
  else if c = '\r' then "\\r"
  else if c = '\t' then "\\t"
  else if c.toNat = 8 then "\\b"
  else if c.toNat = 12 then "\\f"
  else if c.toNat < 32 then "\\u00" ++ hexByte c.toNat
  else String.singleton c

def jsonQuoted (s : String) : String := "\"" ++ String.join (s.toList.map jsonEscape) ++ "\""

/-- A JSON value rendered at a given indentation. -/
abbrev PrettyJson := Nat → String

namespace PrettyJson

def str (s : String) : PrettyJson := fun _ => jsonQuoted s

def nat (n : Nat) : PrettyJson := fun _ => toString n

def null : PrettyJson := fun _ => "null"

def bool (b : Bool) : PrettyJson := fun _ => if b then "true" else "false"

def opt {α : Type} (f : α → PrettyJson) : Option α → PrettyJson
  | some a => f a
  | none => null

def object (fields : List (String × PrettyJson)) : PrettyJson := fun n =>
  if fields.isEmpty then "\x7b\x7d"
  else "\x7b\n" ++ ",\n".intercalate (fields.map fun (k, v) =>
    spaces (n + 2) ++ jsonQuoted k ++ ": " ++ v (n + 2)) ++ "\n" ++ spaces n ++ "\x7d"

def array (items : List PrettyJson) : PrettyJson := fun n =>
  if items.isEmpty then "[]"
  else "[\n" ++ ",\n".intercalate (items.map fun v => spaces (n + 2) ++ v (n + 2)) ++ "\n" ++
    spaces n ++ "]"

def render (v : PrettyJson) : String := v 0

end PrettyJson

/-- An object on one line, from members already written as JSON. -/
def compactObject (fields : List (String × String)) : String :=
  "\x7b" ++ ",".intercalate (fields.map fun (k, v) => jsonQuoted k ++ ":" ++ v) ++ "\x7d"

end ChangeLedger
