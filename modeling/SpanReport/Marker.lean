import SpanReport.Document
import SpanReport.Text.Blank
import SpanReport.Text.Quoted

/-!
# Severities, roles and markers

A marker is a message with a role. Role and severity only label and colour:
nothing else in a report depends on them.
-/

namespace SpanReport

inductive Severity
  | error
  | warning
  deriving DecidableEq, Repr

namespace Severity

def label : Severity → String
  | .error => "error"
  | .warning => "warning"

def colour : Severity → String
  | .error => "red"
  | .warning => "yellow"

def isError : Severity → Bool
  | .error => true
  | .warning => false

def ofText? (s : String) : Option Severity :=
  [error, warning].find? (·.label == Text.keyword s)

end Severity

inductive Role
  | primary
  | context
  | suggestion
  deriving DecidableEq, Repr

namespace Role

def label : Role → String
  | .primary => "primary"
  | .context => "context"
  | .suggestion => "suggestion"

/-- The short name that stands for the role as well. -/
def otherName : Role → String
  | .primary => "this"
  | .context => "where"
  | .suggestion => "maybe"

def ofText? (s : String) : Option Role :=
  [primary, context, suggestion].find? fun role =>
    role.label == Text.keyword s || role.otherName == Text.keyword s

/-- The colour of a marker in a report of the given severity. -/
def colour (severity : Severity) : Role → String
  | .primary => severity.colour
  | .context => "blue"
  | .suggestion => "magenta"

end Role

inductive UnknownWord
  | severity (word : String)
  | role (word : String)
  deriving DecidableEq, Repr

def UnknownWord.message : UnknownWord → String
  | .severity word => "unknown severity " ++ Text.quoted word
  | .role word => "unknown marker role " ++ Text.quoted word

def Severity.ofText (s : String) : Except UnknownWord Severity :=
  match Severity.ofText? s with
  | some severity => .ok severity
  | none => .error (.severity s)

def Role.ofText (s : String) : Except UnknownWord Role :=
  match Role.ofText? s with
  | some role => .ok role
  | none => .error (.role s)

structure Marker where
  role : Role
  message : Document
  deriving DecidableEq, Repr

def Marker.colour (severity : Severity) (m : Marker) : String := m.role.colour severity

end SpanReport
