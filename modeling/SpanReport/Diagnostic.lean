import SpanReport.Layout

/-!
# Diagnostics

A diagnostic collects reports and the sources that they point into. Reports
keep the order in which they were added; a source that is registered again
takes the place of the old one, for the reports added before as well. Printed,
each report ends its line and is followed by an empty one.
-/

namespace SpanReport

structure Diagnostic where
  sources : Sources := []
  reports : List Report := []

namespace Diagnostic

def empty : Diagnostic := {}

def register (name : String) (lines : List String) : Sources → Sources
  | [] => [(name, lines)]
  | (other, old) :: rest =>
    if other = name then (name, lines) :: rest else (other, old) :: register name lines rest

def withLines (d : Diagnostic) (name : String) (lines : List String) : Diagnostic :=
  { d with sources := register name lines d.sources }

/-- The lines of a text, as they are registered. -/
def textLines (text : String) : List String := (Text.lines text.toList).map String.ofList

def withText (d : Diagnostic) (name text : String) : Diagnostic := d.withLines name (textLines text)

def withReport (d : Diagnostic) (r : Report) : Diagnostic := { d with reports := d.reports ++ [r] }

def hasErrors (d : Diagnostic) : Bool := d.reports.any Report.isError

def ending : Document := ⟨[{ content := "\n" }, { content := "\n" }]⟩

def layout (charset : Charset) (d : Diagnostic) : Document :=
  ⟨d.reports.flatMap fun r => (r.layout charset d.sources ++ ending).fragments⟩

def render (charset : Charset) (colours : Bool) (d : Diagnostic) : Except UnknownName String :=
  (d.layout charset).render colours

def print (charset : Charset) (colours : Bool) (d : Diagnostic) : Printout :=
  (d.layout charset).print colours 1

-- ---------------------------------------------------------------------------
-- Histories
-- ---------------------------------------------------------------------------

inductive Step
  | text (name content : String)
  | lines (name : String) (lines : List String)
  | report (r : Report)
  | clear

def step (d : Diagnostic) : Step → Diagnostic
  | .text name content => d.withText name content
  | .lines name lines => d.withLines name lines
  | .report r => d.withReport r
  | .clear => empty

def run (steps : List Step) : Diagnostic := steps.foldl step empty

end Diagnostic

end SpanReport
