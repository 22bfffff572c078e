import SpanReport.Description.Refusal
import SpanReport.Diagnostic

/-!
# Descriptions

A description is a JSON object with source files and reports. A source is a
text, or names a file on the disk. A message is a text or a list of styled
segments. What is checked first is refused first: files before reports, each
in order; in a report the severity, the message, the markers and the hints; in
a marker its file, begin and end, whether they make a span, then the role and
the message.
-/

namespace SpanReport.Description

abbrev Checked (α : Type) := Except Failure α

def refuse (place : Place) (cause : Cause) : Checked α := .error (.refused { cause, place })

-- ---------------------------------------------------------------------------
-- Shapes
-- ---------------------------------------------------------------------------

def expectObject (place : Place) (what : String) : Json → Checked (List (String × Json))
  | .object members => .ok members
  | other => refuse place (.expected what other)

def expectList (place : Place) (what : String) : Json → Checked (List Json)
  | .list elements => .ok elements
  | other => refuse place (.expected what other)

def expectText (place : Place) : Json → Checked String
  | .text s => .ok s
  | other => refuse place (.expected "a string" other)

def memberOr (name : String) (default : Json) (members : List (String × Json)) : Json :=
  (Json.member? name members).getD default

/-- Checks the elements of a list in order, each at its own place. -/
def eachElement (place : Place) (check : Place → Json → Checked α) (elements : List Json) :
    Checked (List α) :=
  elements.zipIdx.mapM fun (element, i) => check (place ++ [.element i]) element

-- ---------------------------------------------------------------------------
-- Messages
-- ---------------------------------------------------------------------------

def styleName (aspect : Aspect) (place : Place) (v : Json) : Checked String :=
  match v with
  | .text name => if (aspect.code? name).isSome then .ok name else refuse place (.unknownStyle v)
  | _ => refuse place (.unknownStyle v)

def styleName? (aspect : Aspect) (place : Place) : Json → Checked (Option String)
  | .null => .ok none
  | v => some <$> styleName aspect place v

def segment (place : Place) : Json → Checked Fragment
  | .text s => .ok { content := s }
  | v => do
    let members ← expectObject place "a string or an object" v
    let content ← expectText (place ++ [.member "text"]) (memberOr "text" (.text "") members)
    let foreground ← styleName? .foreground (place ++ [.member "color"])
      (memberOr "color" .null members)
    let background ← styleName? .background (place ++ [.member "on_color"])
      (memberOr "on_color" .null members)
    let names := place ++ [.member "attrs"]
    let listed ← expectList names "a list" (memberOr "attrs" (.list []) members)
    let attributes ← eachElement names (styleName .attribute) listed
    .ok { content, style := { foreground, background, attributes } }

def message (place : Place) : Json → Checked Document
  | .text s => .ok (.ofText s)
  | v => do
    let segments ← expectList place "a string or a list of segments" v
    let fragments ← eachElement place segment segments
    .ok ⟨fragments⟩

-- ---------------------------------------------------------------------------
-- Markers and reports
-- ---------------------------------------------------------------------------

def point (place : Place) : Json → Checked (Int × Int)
  | .list [.integer line, .integer column] => .ok (line, column)
  | _ => refuse place .notPoint

def word (place : Place) (ofText : String → Except UnknownWord α) : Json → Checked α
  | .text s => match ofText s with
    | .ok value => .ok value
    | .error e => refuse place (.unknownWord e)
  | other => refuse place (.notText other)

def required (place : Place) (name : String) (members : List (String × Json)) : Checked Json :=
  match Json.member? name members with
  | some v => .ok v
  | none => refuse place (.missing name)

def marker (place : Place) (v : Json) : Checked Entry := do
  let members ← expectObject place "an object" v
  let file ← required place "file" members
  let first ← required place "begin" members
  let last ← required place "end" members
  let file ← expectText (place ++ [.member "file"]) file
  let (beginLine, beginColumn) ← point (place ++ [.member "begin"]) first
  let (endLine, endColumn) ← point (place ++ [.member "end"]) last
  let span ← match Span.ofCoordinates ⟨beginLine, beginColumn, endLine, endColumn⟩ file with
    | .ok span => .ok span
    | .error e => refuse place (.invalidSpan e)
  let role ← word (place ++ [.member "role"]) Role.ofText
    (memberOr "role" (.text "primary") members)
  let message ← message (place ++ [.member "message"]) (memberOr "message" (.text "") members)
  .ok (span, ⟨role, message⟩)

def report (place : Place) (v : Json) : Checked Report := do
  let members ← expectObject place "an object" v
  let severity ← word (place ++ [.member "severity"]) Severity.ofText
    (memberOr "severity" (.text "error") members)
  let text ← required place "message" members
  let title ← message (place ++ [.member "message"]) text
  let listed ← expectList (place ++ [.member "markers"]) "a list"
    (memberOr "markers" (.list []) members)
  let entries ← eachElement (place ++ [.member "markers"]) marker listed
  let hinted ← expectList (place ++ [.member "hints"]) "a list"
    (memberOr "hints" (.list []) members)
  let hints ← eachElement (place ++ [.member "hints"]) message hinted
  .ok ⟨severity, title, .ofList entries, hints⟩

-- ---------------------------------------------------------------------------
-- Sources
-- ---------------------------------------------------------------------------

/-- The text of a file, every line break a line feed. -/
def fileText (disk : Disk) (path : Path) (unreadable : DiskFault → Failure)
    (undecodable : Text.Utf8.Refusal → Failure) : Checked (List Char) :=
  if path.text.contains '\x00' then .error .zeroInPath
  else match disk.read path with
    | .error fault => .error (unreadable fault)
    | .ok bytes => match Text.Utf8.decode bytes with
      | .error reason => .error (undecodable reason)
      | .ok text => .ok (Text.unifyBreaks text)

/-- A relative path starts at the base directory, if there is one. -/
def sourcePath (base : Option Path) (name : String) : Path :=
  match base with
  | some directory => directory.within (Path.parse name)
  | none => Path.parse name

def source (disk : Disk) (base : Option Path) (place : Place) : Json → Checked String
  | .text s => .ok s
  | v => do
    let members ← expectObject place "a string or an object" v
    let named ← required place "path" members
    let name ← expectText (place ++ [.member "path"]) named
    let path := sourcePath base name
    let text ← fileText disk path (fun fault => .refused ⟨.unreadable path fault, place, none⟩)
      (fun reason => .refused ⟨.undecodable path reason, place, none⟩)
    .ok (String.ofList text)

/-- The file names that the sources of a description give, of whatever use. -/
def sourceNames (v : Json) : List String :=
  match v with
  | .object members =>
    match Json.member? "files" members with
    | some (.object files) => files.filterMap fun (_, entry) =>
      match entry with
      | .object fields => match Json.member? "path" fields with
        | some (.text name) => some name
        | _ => none
      | _ => none
    | _ => []
  | _ => []

-- ---------------------------------------------------------------------------
-- Whole descriptions
-- ---------------------------------------------------------------------------

structure Progress where
  diagnostic : Diagnostic := .empty
  failure : Option Failure := none

def Progress.result (p : Progress) : Checked Diagnostic :=
  match p.failure with
  | some failure => .error failure
  | none => .ok p.diagnostic

def loadSources (disk : Disk) (base : Option Path) (d : Diagnostic) :
    List (String × Json) → Progress
  | [] => ⟨d, none⟩
  | (name, v) :: rest =>
    match source disk base [.member "files", .member name] v with
    | .error failure => ⟨d, some failure⟩
    | .ok text => loadSources disk base (d.withText name text) rest

def loadReports (d : Diagnostic) : List (Json × Nat) → Progress
  | [] => ⟨d, none⟩
  | (v, i) :: rest =>
    match report [.member "reports", .element i] v with
    | .error failure => ⟨d, some failure⟩
    | .ok r => loadReports (d.withReport r) rest

def progress (disk : Disk) (base : Option Path) (v : Json) : Progress :=
  match expectObject [] "an object" v with
  | .error failure => { failure }
  | .ok members =>
    match expectObject [.member "files"] "an object" (memberOr "files" (.object []) members) with
    | .error failure => { failure }
    | .ok files =>
      let sources := loadSources disk base .empty files
      if sources.failure.isSome then sources
      else match expectList [.member "reports"] "a list" (memberOr "reports" (.list []) members) with
        | .error failure => { sources with failure }
        | .ok reports => loadReports sources.diagnostic reports.zipIdx

def load (disk : Disk) (base : Option Path) (v : Json) : Checked Diagnostic :=
  (progress disk base v).result

def fileValue (disk : Disk) (path : Path) : Checked Json := do
  let text ← fileText disk path (.unreadable path) fun reason => .refused { cause := .notUtf8 reason }
  match Json.read text with
  | .ok v => .ok v
  | .error e => .error (.refused { cause := .notJson text e })

/-- Loads the description in a file, whose directory is the base of its sources. -/
def fileProgress (disk : Disk) (path : Path) : Progress :=
  match fileValue disk path with
  | .error failure => { failure := some (failure.inFile path) }
  | .ok v =>
    let p := progress disk (some path.parent) v
    { p with failure := p.failure.map (Failure.inFile path) }

def loadFile (disk : Disk) (path : Path) : Checked Diagnostic := (fileProgress disk path).result

end SpanReport.Description
