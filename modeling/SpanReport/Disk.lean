import SpanReport.Path

/-!
# Disks

A disk holds files and directories by location, a list of names from the root
on. A location above another one is a directory. Reading follows a path from
the working directory, part by part; creating a file makes the directories
that are missing on its way. There are no links, so a path always resolves, and
double points lead to the directory above. Whoever runs the program may read
and write everything, and a disk is never full.
-/

namespace SpanReport

inductive DiskFault
  | missing
  | fileExists
  | isDirectory
  | notDirectory
  | longName
  deriving DecidableEq, Repr

namespace DiskFault

def number : DiskFault → Nat
  | .missing => 2
  | .fileExists => 17
  | .notDirectory => 20
  | .isDirectory => 21
  | .longName => 36

def message : DiskFault → String
  | .missing => "No such file or directory"
  | .fileExists => "File exists"
  | .notDirectory => "Not a directory"
  | .isDirectory => "Is a directory"
  | .longName => "File name too long"

end DiskFault

abbrev Location := List String

inductive Node
  | file (bytes : List UInt8)
  | directory
  deriving DecidableEq

structure Disk where
  nodes : List (Location × Node) := []
  working : Location := []

namespace Disk

def node? (d : Disk) (l : Location) : Option Node :=
  match d.nodes.lookup l with
  | some node => some node
  | none =>
    if l = d.working || d.nodes.any fun (other, _) => l.isPrefixOf other then some .directory
    else if l.isPrefixOf d.working then some .directory
    else none

/-- The most bytes that one name has, and a whole path. -/
def longestName : Nat := 255

def longestPath : Nat := 4095

def walk (d : Disk) (l : Location) : List String → Except DiskFault Location
  | [] => .ok l
  | part :: rest =>
    match d.node? l with
    | none => .error .missing
    | some (.file _) => .error .notDirectory
    | some .directory =>
      if part = ".." then d.walk l.dropLast rest
      else if longestName < part.utf8ByteSize then .error .longName
      else d.walk (l ++ [part]) rest

def origin (d : Disk) (p : Path) : Location := if p.isAbsolute then [] else d.working

def read (d : Disk) (p : Path) : Except DiskFault (List UInt8) :=
  if longestPath < p.text.utf8ByteSize then .error .longName
  else match d.walk (d.origin p) p.parts with
    | .error fault => .error fault
    | .ok l => match d.node? l with
      | none => .error .missing
      | some .directory => .error .isDirectory
      | some (.file bytes) => .ok bytes

-- ---------------------------------------------------------------------------
-- Creating files
-- ---------------------------------------------------------------------------

/-- The location of a path that need not exist: double points go up whatever
stands before them. -/
def resolve (d : Disk) (p : Path) : Location :=
  p.parts.foldl (fun l part => if part = ".." then l.dropLast else l ++ [part]) (d.origin p)

/-- Whether the directories from one location down to another are there or can
be made. -/
def checkDirectories (d : Disk) (l : Location) : List String → Except DiskFault Unit
  | [] => .ok ()
  | name :: rest =>
    if longestName < name.utf8ByteSize then .error .longName
    else match d.node? (l ++ [name]) with
      | some (.file _) => .error (if rest = [] then .fileExists else .notDirectory)
      | _ => d.checkDirectories (l ++ [name]) rest

def openForWriting (d : Disk) (p : Path) : Except DiskFault Location :=
  let l := d.resolve p
  if longestPath < (Path.mk "/" l).text.utf8ByteSize then .error .longName
  else match d.checkDirectories [] l.dropLast with
  | .error fault => .error fault
  | .ok () =>
    if l.getLast?.any fun name => decide (longestName < name.utf8ByteSize) then .error .longName
    else match d.node? l with
      | some .directory => .error .isDirectory
      | _ => .ok l

def write (d : Disk) (l : Location) (bytes : List UInt8) : Disk :=
  { d with nodes := (l, .file bytes) :: d.nodes.filter (·.1 != l) }

end Disk

end SpanReport
