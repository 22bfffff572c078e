import SpanReport.Marker
import SpanReport.Span

/-!
# Reports

A report has a severity, a message, markers at spans, and hints. A span has
one marker at most: putting a second one there keeps the place of the first
and takes the later marker. Two reports are equal when they agree in all but
the order of their markers; their keys are equal only if that order agrees
too.
-/

namespace SpanReport

abbrev Entry := Span × Marker

/-- Markers by span, in the order in which their spans first came. -/
structure Markers where
  entries : List Entry := []
  nodup : (entries.map Prod.fst).Nodup := by simp

namespace Markers

def empty : Markers := {}

/-- Replaces the entry at a span, or puts a new one at the end. -/
def put (span : Span) (marker : Marker) : List Entry → List Entry
  | [] => [(span, marker)]
  | (other, old) :: rest =>
    if other = span then (span, marker) :: rest else (other, old) :: put span marker rest

theorem map_fst_put (span : Span) (marker : Marker) (entries : List Entry) :
    (put span marker entries).map Prod.fst =
      if span ∈ entries.map Prod.fst then entries.map Prod.fst
      else entries.map Prod.fst ++ [span] := by
  induction entries with
  | nil => rfl
  | cons entry rest ih =>
    obtain ⟨other, old⟩ := entry
    by_cases h : other = span
    · simp [put, h]
    · have h' : span ≠ other := fun e => h e.symm
      simp only [put, h, if_false, List.map_cons, ih, List.mem_cons, h', false_or]
      split <;> simp

def insert (ms : Markers) (span : Span) (marker : Marker) : Markers where
  entries := put span marker ms.entries
  nodup := by
    rw [map_fst_put]
    split
    · exact ms.nodup
    · rename_i h
      have hn := ms.nodup
      rw [List.nodup_append]
      refine ⟨hn, by simp, ?_⟩
      intro a ha b hb
      simp only [List.mem_singleton] at hb
      subst hb
      intro e
      exact h (e ▸ ha)

def ofList (entries : List Entry) : Markers :=
  entries.foldl (fun ms entry => ms.insert entry.1 entry.2) empty

def get? (ms : Markers) (span : Span) : Option Marker := ms.entries.lookup span

def isEmpty (ms : Markers) : Bool := ms.entries.isEmpty

/-- The same markers at the same spans, in whatever order. -/
def sameMap (a b : Markers) : Bool := a.entries.isPerm b.entries

end Markers

structure Report where
  severity : Severity
  message : Document
  markers : Markers := .empty
  hints : List Document := []

namespace Report

def isError (r : Report) : Bool := r.severity.isError

instance : BEq Report where
  beq a b :=
    a.severity == b.severity && a.message == b.message && a.markers.sameMap b.markers &&
      a.hints == b.hints

def key (r : Report) : Severity × Document × List Entry × List Document :=
  (r.severity, r.message, r.markers.entries, r.hints)

end Report

-- ---------------------------------------------------------------------------
-- Building a report step by step
-- ---------------------------------------------------------------------------

namespace Report

/-- A marker of any role is put at a span, or a hint is added. -/
inductive Step
  | mark (span : Span) (marker : Marker)
  | hint (message : Document)

def extend (r : Report) : Step → Report
  | .mark span marker => { r with markers := r.markers.insert span marker }
  | .hint message => { r with hints := r.hints ++ [message] }

def build (severity : Severity) (message : Document) (steps : List Step) : Report :=
  steps.foldl extend { severity, message }

end Report

end SpanReport
