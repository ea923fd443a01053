import ChangeLedger.Table.Basic
/-! # The run directory

The runner sees a directory tree: directories, plain files (bytes) and database files. Paths are
relative to the run directory; they are compared after dropping empty and `.` parts and
resolving `..` parts by name.

Creating a directory with its parents fails when a part of the path is not a directory: with
`File exists` when the last part is a file, with `Not a directory` when an earlier part is.
Opening a path for reading fails with `No such file or directory` when nothing is there and with
`Not a directory` when a part before the last is a file; a directory opens but cannot be read.
-/
namespace ChangeLedger

inductive DiskNode
  | directory
  | file (bytes : List UInt8)
  | database (db : Database)

/-- The tree, as the paths (by parts) of its entries. -/
structure Disk where
  entries : List (List String × DiskNode) := []

def pathParts (p : String) : List String :=
  let raw := p.splitOn "/"
  let lead := if p.startsWith "/" then ["/"] else []
  lead ++ (raw.filter fun s => !s.isEmpty && s != ".").foldl
    (fun acc s => if s = ".." then acc.dropLast else acc ++ [s]) []

/-- Drop trailing separators and `.` parts from a path written back to front; a leading `.` stays. -/
def trimTailReversed : List Char → List Char
  | '/' :: rest => trimTailReversed rest
  | '.' :: tail@('/' :: _) => trimTailReversed tail
  | cs => cs

/-- The text of a path's parent as the path writes it; empty when it has none. -/
def parentText (p : String) : String :=
  match (trimTailReversed p.toList.reverse).dropWhile (· ≠ '/') with
  | [] => ""
  | rest =>
    match trimTailReversed rest with
    | [] => if p.startsWith "/" then "/" else ""
    | parent => String.ofList parent.reverse

inductive OsFailure
  | notFound
  | alreadyExists
  | notADirectory
  | isADirectory
  deriving DecidableEq, Repr

def OsFailure.message : OsFailure → String
  | .notFound => "No such file or directory (os error 2)"
  | .alreadyExists => "File exists (os error 17)"
  | .notADirectory => "Not a directory (os error 20)"
  | .isADirectory => "Is a directory (os error 21)"

namespace Disk

def node? (d : Disk) (parts : List String) : Option DiskNode := d.entries.lookup parts

/-- Whether a path names a directory; the run directory and the root always do. -/
def isDirectory (d : Disk) (parts : List String) : Bool :=
  parts.isEmpty || parts = ["/"] ||
    match d.node? parts with
    | some .directory => true
    | _ => false

def put (d : Disk) (parts : List String) (n : DiskNode) : Disk :=
  { entries := (d.entries.filter (·.1 != parts)) ++ [(parts, n)] }

def createDirs (d : Disk) (parts : List String) : Except OsFailure Disk :=
  let prefixes := (List.range parts.length).map fun i => parts.take (i + 1)
  prefixes.foldlM (fun d pre =>
    if d.isDirectory pre then .ok d
    else match d.node? pre with
      | some _ => .error (if pre.length = parts.length then .alreadyExists else .notADirectory)
      | none => .ok (d.put pre .directory)) d

/-- Whether some part before the last names something other than a directory. -/
def blockedAbove (d : Disk) (parts : List String) : Bool :=
  ((List.range (parts.length - 1)).map fun i => parts.take (i + 1)).any fun pre =>
    !d.isDirectory pre && (d.node? pre).isSome

def openRead (d : Disk) (parts : List String) : Except OsFailure DiskNode :=
  if d.blockedAbove parts then .error .notADirectory
  else if d.isDirectory parts then .ok .directory
  else match d.node? parts with
    | some n => .ok n
    | none => .error .notFound

def database? (d : Disk) (parts : List String) : Option Database :=
  match d.node? parts with
  | some (.database db) => some db
  | _ => none

end Disk

end ChangeLedger
