import ChangeLedger.Cli.Fault
/-! # Program results

What a program run leaves behind: its exit status and the text of its two output streams.

An error that ends a program is reported as `Error: ` and the error, then, after a blank line,
`Caused by:` and the chain of underlying causes, indented; when there are several causes they are
numbered from 0 in a column of width five.
-/
namespace ChangeLedger

/-- What a program run printed and how it ended. -/
structure ProgramOutput where
  code : Nat
  stdout : String
  stderr : String
  deriving DecidableEq, Repr

def padLeft (width : Nat) (s : String) : String :=
  String.ofList (List.replicate (width - s.length) ' ') ++ s

def padRight (width : Nat) (s : String) : String :=
  s ++ String.ofList (List.replicate (width - s.length) ' ')

def errorReport (top : String) (causes : List String) : String :=
  let chain := match causes with
    | [] => ""
    | [c] => "\n\nCaused by:\n    " ++ c
    | cs => "\n\nCaused by:" ++
      String.join ((cs.zip (List.range cs.length)).map fun (c, i) =>
        "\n" ++ padLeft 5 (toString i) ++ ": " ++ c)
  "Error: " ++ top ++ chain ++ "\n"

/-- A stopped parse: help and version on standard output with status 0, mistakes on standard
error with status 2. -/
def ProgramOutput.ofFault (f : CliFault) : ProgramOutput :=
  if f.isRequest then ⟨0, f.render, ""⟩ else ⟨2, "", f.render⟩

def ProgramOutput.failed (top : String) (causes : List String) : ProgramOutput :=
  ⟨1, "", errorReport top causes⟩

end ChangeLedger
