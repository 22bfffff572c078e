import SpanReport.Description

/-!
# Checks that raise

Each check of a description asks something of a value that only some values
have: a member, an element, a trimmed word, a number, a path that can be read.
Here the checks are written out once more over operations that raise an error
of their own kind whenever the value has no such thing, each behind the test
that stands before it and under the handler that stands around it.
-/

namespace SpanReport.Description.Raising

inductive Raised
  /-- The value has no such operation. -/
  | noAttribute (v : Json)
  | wrongKind
  | noMember (name : String)
  | noElement
  | unknownWord (e : UnknownWord)
  | invalidSpan (e : InvalidSpan)
  | zeroInPath
  | unreadable (fault : DiskFault)
  | undecodable (reason : Text.Utf8.Refusal)
  | refused (r : Refusal)

abbrev Attempt (α : Type) := Except Raised α

def refuse (place : Place) (cause : Cause) : Attempt α := .error (.refused { cause, place })

-- ---------------------------------------------------------------------------
-- Operations
-- ---------------------------------------------------------------------------

def get (name : String) (default : Json) : Json → Attempt Json
  | .object members => .ok (memberOr name default members)
  | v => .error (.noAttribute v)

def has (name : String) : Json → Attempt Bool
  | .object members => .ok (Json.member? name members).isSome
  | _ => .error .wrongKind

def item (name : String) : Json → Attempt Json
  | .object members => match Json.member? name members with
    | some v => .ok v
    | none => .error (.noMember name)
  | _ => .error .wrongKind

def items : Json → Attempt (List (String × Json))
  | .object members => .ok members
  | v => .error (.noAttribute v)

def elements : Json → Attempt (List Json)
  | .list elements => .ok elements
  | _ => .error .wrongKind

def element (i : Nat) : Json → Attempt Json
  | .list elements => match elements[i]? with
    | some v => .ok v
    | none => .error .noElement
  | _ => .error .wrongKind

def characters : Json → Attempt String
  | .text s => .ok s
  | _ => .error .wrongKind

def number : Json → Attempt Int
  | .integer n => .ok n
  | _ => .error .wrongKind

/-- Only what can be a key is looked up among names. -/
def isKnown (aspect : Aspect) : Json → Attempt Bool
  | .text name => .ok (aspect.code? name).isSome
  | .list _ | .object _ => .error .wrongKind
  | _ => .ok false

/-- Words are trimmed before they are looked up. -/
def spoken (ofText : String → Except UnknownWord α) : Json → Attempt α
  | .text s => (ofText s).mapError .unknownWord
  | v => .error (.noAttribute v)

def spanOf (beginLine beginColumn endLine endColumn file : Json) : Attempt Span := do
  let beginLine ← number beginLine
  let beginColumn ← number beginColumn
  let endLine ← number endLine
  let endColumn ← number endColumn
  let file ← characters file
  (Span.ofCoordinates ⟨beginLine, beginColumn, endLine, endColumn⟩ file).mapError .invalidSpan

def readText (disk : Disk) (path : Path) : Attempt (List Char) :=
  if path.text.contains '\x00' then .error .zeroInPath
  else match disk.read path with
    | .error fault => .error (.unreadable fault)
    | .ok bytes => match Text.Utf8.decode bytes with
      | .error reason => .error (.undecodable reason)
      | .ok text => .ok (Text.unifyBreaks text)

-- ---------------------------------------------------------------------------
-- Tests and handlers
-- ---------------------------------------------------------------------------

def isText : Json → Bool
  | .text _ => true
  | _ => false

def isList : Json → Bool
  | .list _ => true
  | _ => false

def isObject : Json → Bool
  | .object _ => true
  | _ => false

def isInteger : Json → Bool
  | .integer _ => true
  | _ => false

def expect (test : Json → Bool) (place : Place) (what : String) (v : Json) : Attempt Unit :=
  if test v then .ok () else refuse place (.expected what v)

def textAt (place : Place) (v : Json) : Attempt String := do
  expect isText place "a string" v
  characters v

def listAt (place : Place) (what : String) (v : Json) : Attempt (List Json) := do
  expect isList place what v
  elements v

def require (place : Place) (v : Json) (name : String) : Attempt Unit := do
  let found ← has name v
  if found then .ok () else refuse place (.missing name)

/-- What a handler catches becomes a refusal; all else gets past it. -/
def handle (place : Place) (catches : Raised → Option Cause) (x : Attempt α) : Attempt α :=
  match x with
  | .ok a => .ok a
  | .error raised => match catches raised with
    | some cause => refuse place cause
    | none => .error raised

def catchWord : Raised → Option Cause
  | .noAttribute v => some (.notText v)
  | .unknownWord e => some (.unknownWord e)
  | _ => none

def catchSpan : Raised → Option Cause
  | .invalidSpan e => some (.invalidSpan e)
  | _ => none

def catchFile (path : Path) : Raised → Option Cause
  | .unreadable fault => some (.unreadable path fault)
  | .undecodable reason => some (.undecodable path reason)
  | _ => none

-- ---------------------------------------------------------------------------
-- Checks
-- ---------------------------------------------------------------------------

def eachElement (place : Place) (check : Place → Json → Attempt α) (elements : List Json) :
    Attempt (List α) :=
  elements.zipIdx.mapM fun (element, i) => check (place ++ [.element i]) element

def styleName (aspect : Aspect) (place : Place) (v : Json) : Attempt String :=
  if isText v then do
    let known ← isKnown aspect v
    if known then characters v else refuse place (.unknownStyle v)
  else refuse place (.unknownStyle v)

def styleName? (aspect : Aspect) (place : Place) : Json → Attempt (Option String)
  | .null => .ok none
  | v => some <$> styleName aspect place v

def segment (place : Place) (v : Json) : Attempt Fragment :=
  if isText v then do
    let content ← characters v
    .ok { content }
  else do
    expect isObject place "a string or an object" v
    let content ← get "text" (.text "") v
    let content ← textAt (place ++ [.member "text"]) content
    let foreground ← get "color" .null v
    let foreground ← styleName? .foreground (place ++ [.member "color"]) foreground
    let background ← get "on_color" .null v
    let background ← styleName? .background (place ++ [.member "on_color"]) background
    let names ← get "attrs" (.list []) v
    let names ← listAt (place ++ [.member "attrs"]) "a list" names
    let attributes ← eachElement (place ++ [.member "attrs"]) (styleName .attribute) names
    .ok { content, style := { foreground, background, attributes } }

def message (place : Place) (v : Json) : Attempt Document :=
  if isText v then do
    let content ← characters v
    .ok (.ofText content)
  else do
    let segments ← listAt place "a string or a list of segments" v
    let fragments ← eachElement place segment segments
    .ok ⟨fragments⟩

def point (place : Place) (v : Json) : Attempt (Json × Json) :=
  if isList v then do
    let parts ← elements v
    if parts.length = 2 ∧ parts.all isInteger then do
      let line ← element 0 v
      let column ← element 1 v
      .ok (line, column)
    else refuse place .notPoint
  else refuse place .notPoint

def marker (place : Place) (v : Json) : Attempt Entry := do
  expect isObject place "an object" v
  require place v "file"
  require place v "begin"
  require place v "end"
  let file ← item "file" v
  expect isText (place ++ [.member "file"]) "a string" file
  let start ← item "begin" v
  let start ← point (place ++ [.member "begin"]) start
  let stop ← item "end" v
  let stop ← point (place ++ [.member "end"]) stop
  let span ← handle place catchSpan (spanOf start.1 start.2 stop.1 stop.2 file)
  let role ← get "role" (.text "primary") v
  let role ← handle (place ++ [.member "role"]) catchWord (spoken Role.ofText role)
  let text ← get "message" (.text "") v
  let text ← message (place ++ [.member "message"]) text
  .ok (span, ⟨role, text⟩)

def report (place : Place) (v : Json) : Attempt Report := do
  expect isObject place "an object" v
  let severity ← get "severity" (.text "error") v
  let severity ← handle (place ++ [.member "severity"]) catchWord (spoken Severity.ofText severity)
  require place v "message"
  let title ← item "message" v
  let title ← message (place ++ [.member "message"]) title
  let listed ← get "markers" (.list []) v
  let listed ← listAt (place ++ [.member "markers"]) "a list" listed
  let entries ← eachElement (place ++ [.member "markers"]) marker listed
  let hinted ← get "hints" (.list []) v
  let hinted ← listAt (place ++ [.member "hints"]) "a list" hinted
  let hints ← eachElement (place ++ [.member "hints"]) message hinted
  .ok ⟨severity, title, .ofList entries, hints⟩

def source (disk : Disk) (base : Option Path) (place : Place) (v : Json) : Attempt String :=
  if isText v then characters v
  else do
    expect isObject place "a string or an object" v
    require place v "path"
    let named ← item "path" v
    let name ← textAt (place ++ [.member "path"]) named
    let path := sourcePath base name
    let text ← handle place (catchFile path) (readText disk path)
    .ok (String.ofList text)

def addSource (disk : Disk) (base : Option Path) (d : Diagnostic) (file : String × Json) :
    Attempt Diagnostic := do
  let text ← source disk base [.member "files", .member file.1] file.2
  .ok (d.withText file.1 text)

def addReport (d : Diagnostic) (listed : Json × Nat) : Attempt Diagnostic := do
  let r ← report [.member "reports", .element listed.2] listed.1
  .ok (d.withReport r)

def load (disk : Disk) (base : Option Path) (v : Json) : Attempt Diagnostic := do
  expect isObject [] "an object" v
  let files ← get "files" (.object []) v
  expect isObject [.member "files"] "an object" files
  let files ← items files
  let d ← files.foldlM (addSource disk base) .empty
  let reports ← get "reports" (.list []) v
  let reports ← listAt [.member "reports"] "a list" reports
  reports.zipIdx.foldlM addReport d

end SpanReport.Description.Raising
