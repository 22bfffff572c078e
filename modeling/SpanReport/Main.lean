import Std.Time
import SpanReport.CommandLine.Run

/-!
# The program

Before a run, what the run may look at is taken from the machine: the
environment, the standard streams, and the part of the file system on the way
to the files that the arguments and the descriptions name. After it, what the
run printed and wrote is given back.
-/

namespace SpanReport.Main

def machineName (l : Location) : String := "/" ++ "/".intercalate l

def look (l : Location) : IO (Option Node) := do
  let path := (← IO.currentDir) / machineName l
  if ← path.isDir then return some .directory
  try
    let bytes ← IO.FS.readBinFile path
    return some (.file bytes.toList)
  catch _ => return none

def learn (d : Disk) (l : Location) : IO Disk := do
  if (d.nodes.lookup l).isSome then return d
  match ← look l with
  | some node => return { d with nodes := (l, node) :: d.nodes }
  | none => return d

/-- Learns every location on the way along the parts. -/
def survey (d : Disk) (l : Location) : List String → IO Disk
  | [] => learn d l
  | part :: rest => do
    let d ← learn d l
    survey d (if part = ".." then l.dropLast else l ++ [part]) rest

def surveyPath (d : Disk) (p : Path) : IO Disk := survey d (d.origin p) p.parts

def surveyDescription (d : Disk) (argument : String) : IO Disk := do
  let path := Path.parse argument
  let d ← surveyPath d path
  match Description.fileValue d path with
  | .error _ => return d
  | .ok v =>
    (Description.sourceNames v).foldlM
      (fun d name => surveyPath d (Description.sourcePath (some path.parent) name)) d

def surveyRequest (homes : CommandLine.Homes) (d : Disk) (r : CommandLine.Request) : IO Disk := do
  let d ← r.files.foldlM surveyDescription d
  match r.output with
  | .given (some name) =>
    match homes.expand (Path.parse name) with
    | .ok path => survey d [] (d.resolve path)
    | .error _ => return d
  | _ => return d

def environment : IO Environment := do
  return {
    noColour := ← IO.getEnv "NO_COLOR"
    forceColour := ← IO.getEnv "FORCE_COLOR"
    asciiOnly := ← IO.getEnv "PRETTYDIAG_ASCII" }

/-- The name and the home directory in a line of the user table. -/
def userHome? (line : String) : Option (String × Path) :=
  match line.splitOn ":" with
  | [name, _, _, _, _, home, _] => some (name, Path.parse home)
  | _ => none

def homes : IO CommandLine.Homes := do
  let own := Path.parse ((← IO.getEnv "HOME").getD "/")
  try
    let lines ← IO.FS.lines "/etc/passwd"
    return { own, users := lines.toList.filterMap userHome? }
  catch _ => return { own }

def world (arguments : List String) : IO CommandLine.World := do
  let homes ← homes
  let disk : Disk := { working := (Path.parse (← IO.currentDir).toString).parts }
  let disk ← match CommandLine.parse arguments with
    | .ok r => surveyRequest homes disk r
    | .error _ => pure disk
  let terminal ← (← IO.getStdout).isTty
  return {
    environment := ← environment
    standardOutput := { terminal, encoding := some "utf-8" }
    homes, disk }

/-- Log lines begin with the time of day. -/
def printNotice : CommandLine.Notice → IO Unit
  | .usage m => IO.eprint m.report
  | .log e => do
    let now ← Std.Time.PlainTime.now
    IO.eprintln (now.format "HH:mm:ss" ++ " " ++ e.text)

def writeFiles (before after : Disk) : IO Unit :=
  after.nodes.forM fun (l, node) =>
    match node with
    | .file bytes => do
      if before.nodes.lookup l != some node then
        IO.FS.createDirAll (machineName l.dropLast)
        IO.FS.writeBinFile (machineName l) ⟨bytes.toArray⟩
    | .directory => pure ()

end SpanReport.Main

def main (arguments : List String) : IO UInt32 := do
  let world ← SpanReport.Main.world arguments
  match SpanReport.CommandLine.run world arguments with
  | .ok outcome =>
    SpanReport.Main.writeFiles world.disk outcome.disk
    outcome.notices.forM SpanReport.Main.printNotice
    IO.print outcome.output
    return UInt32.ofNat outcome.exitCode
  | .error crash =>
    IO.print crash.output
    IO.eprintln crash.message
    return 1
