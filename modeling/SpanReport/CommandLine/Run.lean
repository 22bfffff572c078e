import SpanReport.CommandLine.Usage
import SpanReport.Description
import SpanReport.Log

/-!
# Running the program

A run loads every description first, in order, and stops at the first one that
fails; only then is the output opened, and only then is anything printed. The
exit code is two for a run that met trouble, and otherwise tells whether some
report is an error. A run that crashes has no exit code of its own. Room,
memory and time are never short.
-/

namespace SpanReport.CommandLine

/-- The home directory of whoever runs the program, and those of all users by
name. -/
structure Homes where
  own : Path
  users : List (String × Path) := []

structure World where
  environment : Environment
  standardOutput : Stream
  homes : Homes
  disk : Disk

inductive Notice
  | usage (m : Misuse)
  | log (e : Event)

structure Outcome where
  exitCode : Nat
  output : String := ""
  notices : List Notice := []
  disk : Disk

-- ---------------------------------------------------------------------------
-- What can go wrong
-- ---------------------------------------------------------------------------

/-- What the run reports before it ends with exit code two. -/
inductive Trouble
  | refused (r : Description.Refusal)
  | unreadable (argument : String) (fault : DiskFault)
  | outputClosed (argument : String) (fault : DiskFault)

def Trouble.message : Trouble → String
  | .refused r => r.message
  | .unreadable argument fault => "cannot read " ++ argument ++ ": " ++ fault.message
  | .outputClosed argument fault => "cannot open output " ++ argument ++ ": " ++ fault.message

/-- Only a refusal has more to tell when the run is asked to debug. -/
def Trouble.isTraced (verbosity : Nat) : Trouble → Bool
  | .refused _ => decide (2 ≤ verbosity)
  | _ => false

inductive Crash
  | zeroInPath
  | noHome
  | lostOutput
  | lostColours
  | encoding (e : Encoding.Fault)
  | unknownName (e : UnknownName)
  | unwritten (u : Unwritten)

def Crash.message : Crash → String
  | .zeroInPath => "embedded null byte"
  | .noHome => "Could not determine home directory."
  | .lostOutput => "expected str, bytes or os.PathLike object, not list"
  | .lostColours => "unhashable type: 'list'"
  | .encoding e => e.message
  | .unknownName e => Text.quoted e.name
  | .unwritten u => u.complaint

/-- What the standard output took before it refused a text. -/
def Crash.output : Crash → String
  | .unwritten u => u.taken
  | _ => ""

inductive Halt
  | trouble (t : Trouble)
  | crash (c : Crash)

/-- A failure of the description that an argument names. -/
def Halt.ofFailure (argument : String) : Description.Failure → Halt
  | .zeroInPath => .crash .zeroInPath
  | .unreadable _ fault => .trouble (.unreadable argument fault)
  | .refused r => .trouble (.refused r)

-- ---------------------------------------------------------------------------
-- Events
-- ---------------------------------------------------------------------------

def loadEvents (p : Description.Progress) : List Event :=
  let d := p.diagnostic
  let registered := d.sources.map fun (name, lines) => Event.registered name lines.length
  let added := d.reports.zipIdx.map fun (r, i) => Event.added r.severity (i + 1)
  let loaded := match p.failure with
    | some _ => []
    | none => [Event.loaded d.reports.length d.sources.length]
  registered ++ added ++ loaded

def printEvents (options : OutputOptions) (d : Diagnostic) : List Event :=
  [.detected options, .printing d.reports.length] ++
    d.reports.map fun r => .layingOut (Layout.summary r)

def shown (verbosity : Nat) (events : List Event) : List Notice :=
  (events.filter (·.isShown verbosity)).map .log

-- ---------------------------------------------------------------------------
-- Stages
-- ---------------------------------------------------------------------------

/-- Loads descriptions up to the first one that fails, and tells about it. -/
def loadAll (disk : Disk) : List String → List Event × Except Halt (List Diagnostic)
  | [] => ([], .ok [])
  | argument :: rest =>
    let p := Description.fileProgress disk (Path.parse argument)
    match p.failure with
    | some failure => (loadEvents p, .error (.ofFailure argument failure))
    | none =>
      let (events, others) := loadAll disk rest
      (loadEvents p ++ events, others.map (p.diagnostic :: ·))

inductive Sink
  | standard
  | file (location : Location)

/-- The home directory of a user; no name at all is one's own. -/
def Homes.home? (homes : Homes) (user : String) : Option Path :=
  if user = "" then some homes.own else homes.users.lookup user

/-- A first part that begins with a tilde stands for a home directory. -/
def Homes.expand (homes : Homes) (p : Path) : Except Crash Path :=
  match p.isAbsolute, p.parts with
  | false, first :: rest =>
    match first.toList with
    | '~' :: user =>
      if user.contains '\x00' then .error .zeroInPath
      else match homes.home? (String.ofList user) with
        | some home => .ok { home with parts := home.parts ++ rest }
        | none => .error .noHome
    | _ => .ok p
  | _, _ => .ok p

/-- The sink that a request names; one dash names the standard output. -/
def openSink (homes : Homes) (disk : Disk) : Setting (Option String) → Except Halt Sink
  | .lost => .error (.crash .lostOutput)
  | .given none => .ok .standard
  | .given (some name) =>
    if name = "-" then .ok .standard
    else match homes.expand (Path.parse name) with
      | .error crash => .error (.crash crash)
      | .ok path =>
        if name.contains '\x00' then .error (.crash .zeroInPath)
        else match disk.openForWriting path with
          | .ok location => .ok (.file location)
          | .error fault => .error (.trouble (.outputClosed name fault))

/-- A file is no terminal, and in UTF-8 it takes every text. -/
def Sink.stream (standard : Stream) : Sink → Stream
  | .standard => standard
  | .file _ => { encoding := some "utf-8" }

def Request.options (r : Request) (env : Environment) (stream : Stream) :
    Except Halt OutputOptions :=
  match r.colours with
  | .lost => .error (.crash .lostColours)
  | .given colours =>
    (OutputOptions.detect env stream r.charset colours).mapError fun e => .crash (.encoding e)

/-- What the diagnostics print, one after the other. -/
def printout (options : OutputOptions) : List Diagnostic → Printout
  | [] => ⟨[], .ok 1⟩
  | d :: rest => (d.print options.charset options.colours).andThen fun _ => printout options rest

def printAll (stream : Stream) (options : OutputOptions) (ds : List Diagnostic) :
    Except Halt String :=
  let printed := printout options ds
  match stream.write printed.texts, printed.reached with
  | .error u, _ => .error (.crash (.unwritten u))
  | .ok _, .error e => .error (.crash (.unknownName e))
  | .ok text, .ok _ => .ok text

def exitCode (ds : List Diagnostic) : Nat := if ds.any Diagnostic.hasErrors then 1 else 0

def finish (w : World) (r : Request) (events : List Event) (ds : List Diagnostic) :
    Except Halt Outcome := do
  let sink ← openSink w.homes w.disk r.output
  let stream := sink.stream w.standardOutput
  let options ← r.options w.environment stream
  let text ← printAll stream options ds
  let notices := shown r.verbosity (events ++ ds.flatMap (printEvents options))
  match sink with
  | .standard => .ok { exitCode := exitCode ds, output := text, notices, disk := w.disk }
  | .file location =>
    .ok { exitCode := exitCode ds, notices, disk := w.disk.write location text.toUTF8.toList }

/-- The outcome of a run that met trouble: nothing is printed or written. -/
def troubled (w : World) (r : Request) (events : List Event) (t : Trouble) : Outcome :=
  { exitCode := 2
    notices := shown r.verbosity (events ++ [.failed t.message (t.isTraced r.verbosity)])
    disk := w.disk }

def perform (w : World) (r : Request) : Except Crash Outcome :=
  let (events, loaded) := loadAll w.disk r.files
  match loaded.bind (finish w r events) with
  | .ok outcome => .ok outcome
  | .error (.trouble t) => .ok (troubled w r events t)
  | .error (.crash c) => .error c

/-- A text that is asked for in place of a run. -/
def say (w : World) (text : String) : Except Crash Outcome :=
  match w.standardOutput.write [text] with
  | .ok output => .ok { exitCode := 0, output, disk := w.disk }
  | .error u => .error (.unwritten u)

def run (w : World) (arguments : List String) : Except Crash Outcome :=
  match parse arguments with
  | .ok r => perform w r
  | .error .help => say w help
  | .error .version => say w versionLine
  | .error (.misuse m) => .ok { exitCode := 2, notices := [.usage m], disk := w.disk }

end SpanReport.CommandLine
