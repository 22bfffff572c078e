import SpanReport.Glyph
import SpanReport.Text.Digits
import SpanReport.Text.Quoted

/-!
# Command line arguments

Arguments are options and files. A long option may be cut short while only one
option begins like it, and takes its value after an equals sign or from the
next argument; short options may stand together, and the last of them may have
its value attached. Two dashes end the options. The files stand in one group.
All arguments are classified before any of them takes effect; then they take
effect in order.
-/

namespace SpanReport.CommandLine

inductive Switch
  | help
  | unicode
  | ascii
  | colour
  | output
  | verbose
  | version
  deriving DecidableEq, Repr

namespace Switch

/-- The spellings, in the order in which the program lists them. -/
def spellings : List (String × Switch) :=
  [("-h", help), ("--help", help), ("--unicode", unicode), ("--ascii", ascii),
   ("--color", colour), ("-o", output), ("--output", output), ("-v", verbose),
   ("--verbose", verbose), ("--version", version)]

def ofSpelling? (s : String) : Option Switch := spellings.lookup s

/-- All spellings together, as messages name the option. -/
def title (switch : Switch) : String :=
  "/".intercalate ((spellings.filter (·.2 == switch)).map Prod.fst)

def takesValue : Switch → Bool
  | colour | output => true
  | _ => false

end Switch

def colourWords : List (String × Option Bool) :=
  [("always", some true), ("auto", none), ("never", some false)]

inductive Misuse
  | ambiguous (argument : String) (spellings : List String)
  | noValue (switch : Switch)
  | uselessValue (switch : Switch) (value : String)
  | noSuchColour (word : String)
  | conflict (switch other : Switch)
  | noFile
  | unrecognised (arguments : List String)
  deriving DecidableEq, Repr

def Misuse.message : Misuse → String
  | .ambiguous argument spellings =>
    "ambiguous option: " ++ argument ++ " could match " ++ ", ".intercalate spellings
  | .noValue switch => "argument " ++ switch.title ++ ": expected one argument"
  | .uselessValue switch value =>
    "argument " ++ switch.title ++ ": ignored explicit argument " ++ Text.quoted value
  | .noSuchColour word =>
    "argument " ++ Switch.colour.title ++ ": invalid choice: " ++ Text.quoted word ++
      " (choose from " ++ ", ".intercalate (colourWords.map (Text.quoted ·.1)) ++ ")"
  | .conflict switch other =>
    "argument " ++ switch.title ++ ": not allowed with argument " ++ other.title
  | .noFile => "the following arguments are required: FILE"
  | .unrecognised arguments => "unrecognized arguments: " ++ " ".intercalate arguments

inductive Stop
  | help
  | version
  | misuse (m : Misuse)
  deriving DecidableEq, Repr

/-- What an option is set to. A value of two dashes alone is lost. -/
inductive Setting (α : Type)
  | given (value : α)
  | lost
  deriving DecidableEq, Repr

structure Request where
  files : List String := []
  charset : Option Charset := none
  colours : Setting (Option Bool) := .given none
  output : Setting (Option String) := .given none
  verbosity : Nat := 0
  deriving DecidableEq, Repr

-- ---------------------------------------------------------------------------
-- Classifying
-- ---------------------------------------------------------------------------

/-- An option as it was found, with its attached value. -/
structure Found where
  switch : Switch
  isLong : Bool
  value : Option String
  deriving DecidableEq, Repr

inductive Argument
  | option (found : Found)
  | unknown (text : String)
  | separator
  | positional (text : String)
  deriving DecidableEq, Repr

/-- The text before the first equals sign, and the text after it. -/
def splitValue (argument : List Char) : List Char × Option (List Char) :=
  match argument.dropWhile (· != '=') with
  | _ :: value => (argument.takeWhile (· != '='), some value)
  | [] => (argument, none)

/-- A minus sign with digits after it, which may have a point among or before
them. A line feed may end it. -/
def isNegativeNumber (argument : List Char) : Bool :=
  let ended := argument.getLast? == some '\n'
  match if ended then argument.dropLast else argument with
  | '-' :: rest =>
    match rest.dropWhile Text.isDigit with
    | [] => !rest.isEmpty
    | '.' :: fraction => !fraction.isEmpty && fraction.all Text.isDigit
    | _ => false
  | _ => false

/-- The options that an argument may be short for, with their spellings. -/
def candidates (argument : List Char) : List (String × Found) :=
  match argument with
  | '-' :: '-' :: _ =>
    let (cut, value) := splitValue argument
    (Switch.spellings.filter fun (s, _) => cut.isPrefixOf s.toList).map fun (s, switch) =>
      (s, ⟨switch, true, value.map String.ofList⟩)
  | '-' :: c :: value =>
    (Switch.spellings.filter fun (s, _) => s.toList == ['-', c]).map fun (s, switch) =>
      (s, ⟨switch, false, some (String.ofList value)⟩)
  | _ => []

def isLong (spelling : List Char) : Bool := spelling.take 2 == ['-', '-']

def classify (s : String) : Except Misuse Argument :=
  let chars := s.toList
  match chars with
  | '-' :: _ :: _ =>
    let (cut, value) := splitValue chars
    match Switch.ofSpelling? s, value.bind fun _ => Switch.ofSpelling? (String.ofList cut) with
    | some switch, _ => .ok (.option ⟨switch, isLong chars, none⟩)
    | none, some switch => .ok (.option ⟨switch, isLong chars, value.map String.ofList⟩)
    | none, none => match candidates chars with
      | [(_, found)] => .ok (.option found)
      | [] =>
        if isNegativeNumber chars || chars.contains ' ' then .ok (.positional s)
        else .ok (.unknown s)
      | several => .error (.ambiguous s (several.map Prod.fst))
  | _ => .ok (.positional s)

/-- After two dashes every argument is positional. -/
def classifyAll : List String → Except Misuse (List Argument)
  | [] => .ok []
  | s :: rest =>
    if s = "--" then .ok (.separator :: rest.map .positional)
    else do
      let argument ← classify s
      let others ← classifyAll rest
      .ok (argument :: others)

-- ---------------------------------------------------------------------------
-- Taking options apart
-- ---------------------------------------------------------------------------

inductive Value
  | none
  | attached (switch : Switch) (text : String)
  | next (switch : Switch)
  deriving DecidableEq, Repr

/-- The switches of one argument: those without a value, and one that takes a
value after them, if there is one. -/
structure Cluster where
  flags : List Switch
  value : Value
  deriving DecidableEq, Repr

def Cluster.single (switch : Switch) : Cluster :=
  if switch.takesValue then ⟨[], .next switch⟩ else ⟨[switch], .none⟩

/-- A switch with attached text. The text is the switch's value, or, after a
short switch that takes none, more short switches. -/
def Cluster.ofAttached (isLong : Bool) (switch : Switch) (text : List Char) :
    Except Misuse Cluster :=
  if switch.takesValue then .ok ⟨[], .attached switch (String.ofList text)⟩
  else match isLong, text with
    | false, c :: rest =>
      match Switch.ofSpelling? (String.ofList ['-', c]), rest with
      | none, _ => .error (.uselessValue switch (String.ofList text))
      | some next, [] =>
        let last := Cluster.single next
        .ok { last with flags := switch :: last.flags }
      | some next, more => do
        let others ← Cluster.ofAttached false next more
        .ok { others with flags := switch :: others.flags }
    | _, _ => .error (.uselessValue switch (String.ofList text))
termination_by text.length

def Found.cluster (found : Found) : Except Misuse Cluster :=
  match found.value with
  | none => .ok (Cluster.single found.switch)
  | some text => Cluster.ofAttached found.isLong found.switch text.toList

-- ---------------------------------------------------------------------------
-- Taking effect
-- ---------------------------------------------------------------------------

/-- The request so far, the switches for charsets that were seen, whether the
group of files has ended, and the arguments that belong to nothing. -/
structure State where
  request : Request := {}
  charsets : List Switch := []
  closed : Bool := false
  extras : List String := []
  deriving DecidableEq, Repr

namespace State

def setCharset (s : State) (switch rival : Switch) (charset : Charset) : Except Stop State :=
  if rival ∈ s.charsets then .error (.misuse (.conflict switch rival))
  else .ok { s with
    request := { s.request with charset := some charset }
    charsets := switch :: s.charsets }

def apply (s : State) : Switch → Except Stop State
  | .help => .error .help
  | .version => .error .version
  | .unicode => s.setCharset .unicode .ascii .unicode
  | .ascii => s.setCharset .ascii .unicode .ascii
  | .verbose => .ok { s with request := { s.request with verbosity := s.request.verbosity + 1 } }
  | .colour | .output => .ok s

def setColours (s : State) (value : String) : Except Stop State :=
  if value = "--" then .ok { s with request := { s.request with colours := .lost } }
  else match colourWords.lookup value with
    | some colours => .ok { s with request := { s.request with colours := .given colours } }
    | none => .error (.misuse (.noSuchColour value))

def setOutput (s : State) (value : String) : State :=
  let output := if value = "--" then .lost else .given (some value)
  { s with request := { s.request with output } }

def applyValue (s : State) (switch : Switch) (value : String) : Except Stop State :=
  if switch = .colour then s.setColours value else .ok (s.setOutput value)

/-- An option ends the group of files, if it has begun. -/
def closeFiles (s : State) : State := { s with closed := s.closed || !s.request.files.isEmpty }

def addExtra (s : State) (text : String) : State := { s with extras := s.extras ++ [text] }

def addFile (s : State) (text : String) : State :=
  if s.closed then s.addExtra text
  else { s with request := { s.request with files := s.request.files ++ [text] } }

/-- Two dashes are left over unless files follow them or stand before them. -/
def addSeparator (s : State) (isLast : Bool) : State :=
  if s.closed || (isLast && s.request.files.isEmpty) then s.addExtra "--" else s

def take (s : State) : List Argument → Except Stop State
  | [] => .ok s
  | .positional text :: rest => (s.addFile text).take rest
  | .separator :: rest => (s.addSeparator rest.isEmpty).take rest
  | .unknown text :: rest => (s.closeFiles.addExtra text).take rest
  | .option found :: rest =>
    match found.cluster with
    | .error m => .error (.misuse m)
    | .ok ⟨flags, value⟩ =>
      match value, rest with
      | .none, rest => do
        let s ← flags.foldlM apply s.closeFiles
        s.take rest
      | .attached switch text, rest => do
        let s ← flags.foldlM apply s.closeFiles
        let s ← s.applyValue switch text
        s.take rest
      | .next switch, .positional text :: rest => do
        let s ← flags.foldlM apply s.closeFiles
        let s ← s.applyValue switch text
        s.take rest
      | .next switch, _ => .error (.misuse (.noValue switch))

end State

def parse (arguments : List String) : Except Stop Request :=
  match classifyAll arguments with
  | .error m => .error (.misuse m)
  | .ok classified => do
    let s ← State.take {} classified
    if s.request.files = [] then .error (.misuse .noFile)
    else if s.extras ≠ [] then .error (.misuse (.unrecognised s.extras))
    else .ok s.request

end SpanReport.CommandLine
