import SpanReport.Description.Place
import SpanReport.Disk
import SpanReport.Json.Literal
import SpanReport.Json.Reader
import SpanReport.Marker
import SpanReport.Span
import SpanReport.Text.Utf8

/-!
# Refusals

A description is refused for one cause at one place. A refusal of a file also
names the file.
-/

namespace SpanReport.Description

inductive Cause
  | expected (what : String) (found : Json)
  | missing (name : String)
  | notText (found : Json)
  | unknownWord (e : UnknownWord)
  | notPoint
  | invalidSpan (e : InvalidSpan)
  | unknownStyle (found : Json)
  | unreadable (path : Path) (fault : DiskFault)
  | undecodable (path : Path) (reason : Text.Utf8.Refusal)
  | notUtf8 (reason : Text.Utf8.Refusal)
  | notJson (text : List Char) (e : Json.SyntaxError)

def Cause.message : Cause → String
  | .expected what found => "expected " ++ what ++ ", got " ++ found.kind
  | .missing name => "missing '" ++ name ++ "'"
  | .notText found => "'" ++ found.kind ++ "' object has no attribute 'strip'"
  | .unknownWord e => e.message
  | .notPoint => "expected [line, column]"
  | .invalidSpan e => e.message
  | .unknownStyle found => "unknown termcolor name " ++ found.literal
  | .unreadable path fault => "cannot read " ++ path.text ++ ": " ++ fault.message
  | .undecodable path reason => "cannot decode " ++ path.text ++ ": " ++ reason.message
  | .notUtf8 reason => "not valid UTF-8: " ++ reason.message
  | .notJson text e => "invalid JSON: " ++ e.message text

structure Refusal where
  cause : Cause
  place : Place := []
  source : Option Path := none

/-- The file and the place come first, if there are any. -/
def Refusal.message (r : Refusal) : String :=
  ": ".intercalate
    ((r.source.toList.map Path.text ++ [r.place.text]).filter (· != "") ++ [r.cause.message])

inductive Failure
  | refused (r : Refusal)
  | unreadable (path : Path) (fault : DiskFault)
  /-- A path with a zero character is no path at all. -/
  | zeroInPath

/-- A refusal of what a file holds names the file. -/
def Failure.inFile (path : Path) : Failure → Failure
  | .refused r => .refused { r with source := some path }
  | other => other

end SpanReport.Description
