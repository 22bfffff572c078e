import SpanReport.Proofs.Equality
import Mathlib.Data.List.Induction

/-!
# Building reports

A report is built from steps that put a marker at a span or add a hint.
`build_steps`: the outcome is the report that has the same severity, message,
markers and hints from the start, however the steps are mixed; a span keeps the
place at which it first came and has the marker that was put there last.
`key_eq_iff`: the keys of equal reports are equal only if their spans first came
in the same order.
-/

namespace SpanReport

-- ---------------------------------------------------------------------------
-- Markers put in one after the other
-- ---------------------------------------------------------------------------

namespace Markers

/-- The spans that have markers, in the order in which they first came. -/
def spans (ms : Markers) : List Span := ms.entries.map Prod.fst

theorem spans_insert (ms : Markers) (span : Span) (marker : Marker) :
    (ms.insert span marker).spans = if span ∈ ms.spans then ms.spans else ms.spans ++ [span] :=
  map_fst_put span marker ms.entries

theorem lookup_cons_entry (other : Span) (marker : Marker) (rest : List Entry) (span : Span) :
    ((other, marker) :: rest).lookup span =
      if span = other then some marker else rest.lookup span := by
  by_cases h : span = other
  · simp [h]
  · simp [List.lookup_cons, h, beq_eq_false_iff_ne.mpr h]

theorem get?_insert (ms : Markers) (span : Span) (marker : Marker) (other : Span) :
    (ms.insert span marker).get? other = if other = span then some marker else ms.get? other := by
  change (put span marker ms.entries).lookup other =
    if other = span then some marker else ms.entries.lookup other
  induction ms.entries with
  | nil => exact lookup_cons_entry span marker [] other
  | cons entry rest ih =>
    obtain ⟨first, old⟩ := entry
    by_cases hf : first = span
    · subst hf
      by_cases h : other = first <;> simp [put, lookup_cons_entry, h]
    · by_cases h : other = first
      · subst h
        simp [put, hf]
      · simp [put, hf, lookup_cons_entry, h, ih]

theorem ofList_concat (entries : List Entry) (e : Entry) :
    ofList (entries ++ [e]) = (ofList entries).insert e.1 e.2 := by
  simp [ofList]

/-- A span that comes again adds nothing to the order. -/
theorem spans_ofList (entries : List Entry) :
    (ofList entries).spans = (entries.map Prod.fst).eraseDups := by
  induction entries using List.reverseRecOn with
  | nil => rfl
  | append_singleton entries e ih =>
    rw [ofList_concat, spans_insert, ih, List.map_append, List.eraseDups_append]
    by_cases h : e.1 ∈ entries.map Prod.fst
    · simp [h, List.removeAll]
    · simp [h, List.removeAll, List.eraseDups_cons]

/-- The last entry for a span is the one that counts. -/
theorem get?_ofList (entries : List Entry) (span : Span) :
    (ofList entries).get? span = entries.reverse.lookup span := by
  induction entries using List.reverseRecOn with
  | nil => rfl
  | append_singleton entries e ih =>
    obtain ⟨marked, marker⟩ := e
    rw [ofList_concat, get?_insert, ih, List.reverse_concat]
    exact (lookup_cons_entry marked marker entries.reverse span).symm

/-- Markers are told apart by their spans in order and by the marker at each of them. -/
theorem entries_eq {a b : Markers} (hs : a.spans = b.spans)
    (hg : ∀ span, a.get? span = b.get? span) : a.entries = b.entries := by
  have hentries (ms : Markers) : ms.entries.map (fun e => (e.1, some e.2)) =
      ms.spans.map fun span => (span, ms.get? span) := by
    unfold spans
    rw [List.map_map]
    refine List.map_congr_left fun e he => ?_
    simp [mem_entries.mp he]
  have hinjective : Function.Injective fun e : Entry => (e.1, some e.2) := by
    rintro ⟨span, marker⟩ ⟨other, old⟩ h
    simpa using h
  refine List.map_injective_iff.mpr hinjective ?_
  rw [hentries, hentries, hs]
  simp only [hg]

end Markers

-- ---------------------------------------------------------------------------
-- Steps
-- ---------------------------------------------------------------------------

namespace Report

def Step.mark? : Step → Option Entry
  | .mark span marker => some (span, marker)
  | .hint _ => none

def Step.hint? : Step → Option Document
  | .mark _ _ => none
  | .hint message => some message

/-- The entries that steps put in, each in its turn. -/
def marks (steps : List Step) : List Entry := steps.filterMap Step.mark?

def addedHints (steps : List Step) : List Document := steps.filterMap Step.hint?

/-- The marker that was put at a span last. -/
def lastMark? (span : Span) (steps : List Step) : Option Marker := (marks steps).reverse.lookup span

/-- The spans at which markers were put, each of them where it first came. -/
def markedSpans (steps : List Step) : List Span := ((marks steps).map Prod.fst).eraseDups

theorem build_concat (severity : Severity) (message : Document) (steps : List Step) (x : Step) :
    build severity message (steps ++ [x]) = (build severity message steps).extend x := by
  simp [build]

theorem build_eq (severity : Severity) (message : Document) (steps : List Step) :
    build severity message steps = ⟨severity, message, .ofList (marks steps), addedHints steps⟩ := by
  induction steps using List.reverseRecOn with
  | nil => rfl
  | append_singleton steps x ih =>
    rw [build_concat, ih]
    cases x with
    | mark span marker =>
      simp [extend, marks, addedHints, Step.mark?, Step.hint?, Markers.ofList_concat]
    | hint added =>
      simp [extend, marks, addedHints, List.filterMap_cons, Step.mark?, Step.hint?]

theorem build_beq_iff (severity : Severity) (message : Document) (steps others : List Step) :
    build severity message steps == build severity message others ↔
      (∀ span, lastMark? span steps = lastMark? span others) ∧ addedHints steps = addedHints others := by
  simp only [beq_iff, build_eq, Markers.get?_ofList, true_and]
  exact and_comm

/-- However its steps are mixed, a built report is the one that is made at once from
the markers and the hints in their order. It has each span once, where it first came,
with the marker that was put there last. So two builds from the same severity and
message are equal just if each span had the same marker put last and the hints are
the same. -/
theorem build_steps (severity : Severity) (message : Document) (steps : List Step) :
    build severity message steps = ⟨severity, message, .ofList (marks steps), addedHints steps⟩ ∧
      (build severity message steps).markers.spans = markedSpans steps ∧
      (∀ span, (build severity message steps).markers.get? span = lastMark? span steps) ∧
      ∀ others, build severity message steps == build severity message others ↔
        (∀ span, lastMark? span steps = lastMark? span others) ∧ addedHints steps = addedHints others := by
  refine ⟨build_eq severity message steps, ?_, fun span => ?_, fun others => ?_⟩
  · rw [build_eq]
    exact Markers.spans_ofList _
  · rw [build_eq]
    exact Markers.get?_ofList _ span
  · exact build_beq_iff severity message steps others

-- ---------------------------------------------------------------------------
-- Keys
-- ---------------------------------------------------------------------------

/-- Reports with one key are equal, and equal reports have one key just if their spans
first came in the same order. -/
theorem key_eq_iff (a b : Report) :
    a.key = b.key ↔ a == b ∧ a.markers.spans = b.markers.spans := by
  rw [beq_iff]
  simp only [key, Prod.mk.injEq]
  constructor
  · rintro ⟨hseverity, hmessage, hentries, hhints⟩
    have hmarkers (span : Span) : a.markers.get? span = b.markers.get? span := by
      unfold Markers.get?
      rw [hentries]
    exact ⟨⟨hseverity, hmessage, hhints, hmarkers⟩, congrArg (List.map Prod.fst) hentries⟩
  · rintro ⟨⟨hseverity, hmessage, hhints, hmarkers⟩, hspans⟩
    exact ⟨hseverity, hmessage, Markers.entries_eq hspans hmarkers, hhints⟩

/-- Two markers that are put in the one way round and the other. -/
def thisThenWhere : Report :=
  .build .error (.ofText "e")
    [.mark Layout.firstLetter ⟨.primary, .ofText "a"⟩, .mark Layout.nextLine ⟨.context, .ofText "b"⟩]

def whereThenThis : Report :=
  .build .error (.ofText "e")
    [.mark Layout.nextLine ⟨.context, .ofText "b"⟩, .mark Layout.firstLetter ⟨.primary, .ofText "a"⟩]

theorem key_of_equal_reports :
    (thisThenWhere == whereThenThis) = true ∧ thisThenWhere.key ≠ whereThenThis.key := by
  decide

end Report

end SpanReport
