import SpanReport.Layout
import SpanReport.Output

/-!
# Log lines

What the program tells about its work. A line has a level, and shows from a
certain verbosity on: errors always, information from the first step,
debugging from the second.
-/

namespace SpanReport

inductive Level
  | debug
  | info
  | error
  deriving DecidableEq, Repr

def Level.label : Level → String
  | .debug => "DEBUG"
  | .info => "INFO "
  | .error => "ERROR"

def Level.leastVerbosity : Level → Nat
  | .error => 0
  | .info => 1
  | .debug => 2

inductive Event
  | registered (name : String) (lines : Nat)
  | added (severity : Severity) (total : Nat)
  | loaded (reports sources : Nat)
  | detected (options : OutputOptions)
  | printing (reports : Nat)
  | layingOut (summary : Layout.Summary)
  /-- The run failed; a traced failure shows how it came about. -/
  | failed (message : String) (traced : Bool)

namespace Event

def level : Event → Level
  | .loaded .. => .info
  | .failed .. => .error
  | _ => .debug

def logger : Event → String
  | .registered .. | .added .. | .printing .. => "prettydiag.diagnostic"
  | .loaded .. => "prettydiag.loader"
  | .detected .. => "prettydiag.config"
  | .layingOut .. => "prettydiag.layout"
  | .failed .. => "prettydiag"

def flag (b : Bool) : String := if b then "True" else "False"

def message : Event → String
  | .registered name lines => "registered " ++ name ++ " (" ++ Nat.repr lines ++ " line(s))"
  | .added severity total =>
    "added " ++ severity.label ++ " report (" ++ Nat.repr total ++ " total)"
  | .loaded reports sources =>
    "loaded " ++ Nat.repr reports ++ " report(s) over " ++ Nat.repr sources ++ " file(s)"
  | .detected options =>
    "output options: OutputOptions(unicode=" ++ flag (options.charset == .unicode) ++
      ", colors=" ++ flag options.colours ++ ")"
  | .printing reports => "printing " ++ Nat.repr reports ++ " report(s)"
  | .layingOut s =>
    "laying out " ++ s.severity.label ++ " report: " ++ Nat.repr s.markers ++ " marker(s), " ++
      Nat.repr s.multiline ++ " multiline, " ++ Nat.repr s.lines ++ " line(s), gutter " ++
      Nat.repr s.gutter
  | .failed message _ => message

def text (e : Event) : String := "[" ++ e.level.label ++ "] " ++ e.logger ++ ": " ++ e.message

def isShown (verbosity : Nat) (e : Event) : Bool := decide (e.level.leastVerbosity ≤ verbosity)

def isTraced : Event → Bool
  | .failed _ traced => traced
  | _ => false

end Event

end SpanReport
