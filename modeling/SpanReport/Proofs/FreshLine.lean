import SpanReport.Proofs.Columns
import SpanReport.Proofs.Displayed
import SpanReport.Proofs.Markers
import Mathlib.Data.List.Sort

/-!
# A marker on a fresh line

`layout_fresh`: if no marker of a report touches a line, a marker put there adds
the rows of that line and leaves all other rows as they are, provided that the
header does not point to it and that the gutter has room for the number of its
line.
-/

namespace SpanReport

theorem Markers.put_of_not_mem {es : List Entry} (h : span ∉ es.map Prod.fst) (marker : Marker) :
    put span marker es = es ++ [(span, marker)] := by
  induction es with
  | nil => rfl
  | cons e rest ih =>
    obtain ⟨other, old⟩ := e
    obtain ⟨hne, hrest⟩ := List.ne_and_not_mem_of_not_mem_cons h
    rw [put, if_neg (Ne.symm hne), ih hrest, List.cons_append]

theorem Span.touches_inline {span : Span} (h : span.isInline) :
    span.touches line ↔ line = span.start.line := by
  have hline : span.start.line = span.stop.line := by simpa [isInline] using h
  simp only [touches, ← hline, Bool.and_eq_true, decide_eq_true_eq]
  omega

namespace Layout

-- ---------------------------------------------------------------------------
-- Ascending numbers
-- ---------------------------------------------------------------------------

section
variable {ns : List Nat} (h : ns.Pairwise (· < ·))
include h

theorem ascending_insert (m : Nat) :
    (ns.filter (· < m) ++ m :: ns.filter (m < ·)).Pairwise (· < ·) := by
  simp only [List.pairwise_append, List.pairwise_cons, List.mem_cons, List.mem_filter,
    decide_eq_true_eq]
  refine ⟨h.filter _, ⟨fun n hn => hn.2, h.filter _⟩, ?_⟩
  rintro k hk n (rfl | hn)
  · exact hk.2
  · exact hk.2.trans hn.2

theorem ascending_split (hm : m ∉ ns) : ns.filter (· < m) ++ ns.filter (m < ·) = ns := by
  have hascending := (ascending_insert h m).sublist
    ((List.sublist_cons_self m (ns.filter (m < ·))).append_left (ns.filter (· < m)))
  refine hascending.eq_of_mem_iff h fun n => ?_
  have hne (hn : n ∈ ns) : n < m ∨ m < n := Nat.lt_or_gt_of_ne fun he => hm (he ▸ hn)
  simp only [List.mem_append, List.mem_filter, decide_eq_true_eq, ← and_or_left]
  exact ⟨And.left, fun hn => ⟨hn, hne hn⟩⟩

end

-- ---------------------------------------------------------------------------
-- Sheets that agree on a line
-- ---------------------------------------------------------------------------

namespace Sheet

section
variable {s other : Sheet} (hs : s.severity = other.severity)
include hs

theorem colour_congr : s.colour = other.colour := by
  funext e
  rw [colour, colour, hs]

theorem pipes_congr (entries : List Entry) : s.pipes entries = other.pipes entries := by
  induction entries with
  | nil => rfl
  | cons e rest ih => rw [pipes, pipes, ih, colour_congr hs]

variable {line : Nat} (ht : s.touching line = other.touching line)
include ht

theorem excerpt_congr (sources : Sources) :
    s.excerpt sources line = other.excerpt sources line := by
  have hcolours : s.colourAt line = other.colourAt line := by
    funext column
    rw [colourAt, colourAt, ht, colour_congr hs]
  rw [excerpt, excerpt, ht, hcolours]

theorem strokes_congr : s.strokes line = other.strokes line := by
  have hstroke : s.strokeAt line = other.strokeAt line := by
    funext column
    rw [strokeAt, strokeAt, inline, inline, ht, colour_congr hs]
  rw [strokes, strokes, hstroke, inline, inline, ht]

variable (hm : s.multiline = other.multiline)
include hm

omit ht in
theorem bracket_congr : s.bracket line = other.bracket line := by
  rw [bracket, bracket, barColour?, barColour?, bounding, bounding, enclosing, enclosing, hm,
    colour_congr hs]

omit ht in
theorem labelRows_congr (entries : List Entry) :
    s.labelRows line entries = other.labelRows line entries := by
  induction entries with
  | nil => rfl
  | cons e earlier ih =>
    rw [labelRows, labelRows, ih, labelRow, labelRow, bracket_congr hs hm, pipes_congr hs]

/-- The rows of a line are those of the markers that touch it, beside brackets for
the markers over several lines. -/
theorem lineRows_congr (sources : Sources) :
    s.lineRows sources line = other.lineRows sources line := by
  have hsource : s.sourceBracket line = other.sourceBracket line := by
    rw [sourceBracket, sourceBracket, bounding, bounding, hm, colour_congr hs, bracket_congr hs hm]
  have hinline : s.inline line = other.inline line := by rw [inline, inline, ht]
  rw [lineRows, lineRows, hsource, hinline, excerpt_congr hs ht, bracket_congr hs hm,
    strokes_congr hs ht, labelRows_congr hs hm]

omit ht in
theorem trailerRows_congr : s.trailerRows = other.trailerRows := by
  rw [trailerRows, trailerRows, hm, colour_congr hs]

end

theorem bounding_of_untouched {s : Sheet} (h : ∀ e ∈ s.multiline, ¬ e.1.touches line) :
    s.bounding line = [] := by
  have hperm := bounding_append_enclosing s line
  rw [List.filter_eq_nil_iff.mpr h] at hperm
  exact (List.append_eq_nil_iff.mp hperm.eq_nil).1

/-- The rows of a line that a marker has for itself, beside the bracket of the
line in a sheet without it. -/
def freshRows (s : Sheet) (sources : Sources) (e : Entry) : List Row :=
  let line := e.1.start.line
  let alone : Sheet := { s with entries := [e] }
  [.source line (s.bracket line) (alone.excerpt sources line),
   .underline line (s.bracket line) (alone.strokes line),
   .label line (s.bracket line) [] false e]

end Sheet

-- ---------------------------------------------------------------------------
-- Reports with one more marker
-- ---------------------------------------------------------------------------

/-- A marker that may join a report on a line of its own. -/
structure Fresh (r : Report) (span : Span) (marker : Marker) : Prop where
  marked : r.markers.isEmpty = false
  role : marker.role ≠ .primary
  inline : span.isInline
  untouched : ∀ e ∈ r.markers.entries, ¬ e.1.touches span.start.line
  narrow : (Nat.repr span.start.line).length ≤ (Sheet.ofReport r).gutter

namespace Fresh

variable (h : Fresh r span marker)
include h

theorem entries_eq : (r.extend (.mark span marker)).markers.entries =
    r.markers.entries ++ [(span, marker)] := by
  refine Markers.put_of_not_mem (fun hm => ?_) marker
  obtain ⟨e, he, rfl⟩ := List.mem_map.mp hm
  exact h.untouched e he ((Span.touches_inline h.inline).mpr rfl)

theorem entries_perm : (Sheet.ofReport (r.extend (.mark span marker))).entries.Perm
    ((Sheet.ofReport r).entries ++ [(span, marker)]) := by
  have hsorted : (Sheet.ofReport (r.extend (.mark span marker))).entries.Perm
      (r.markers.entries ++ [(span, marker)]) := h.entries_eq ▸ sortEntries_perm _
  exact hsorted.trans ((sortEntries_perm r.markers.entries).symm.append_right _)

omit h in
theorem severity_eq : (Sheet.ofReport (r.extend (.mark span marker))).severity =
    (Sheet.ofReport r).severity := rfl

/-- A test that the new marker fails finds the same markers in the same order. -/
theorem filter_eq {p : Entry → Bool} (hp : p (span, marker) = false) :
    (Sheet.ofReport (r.extend (.mark span marker))).entries.filter p =
      (Sheet.ofReport r).entries.filter p := by
  have hperm := h.entries_perm.filter p
  rw [List.filter_append, List.filter_singleton, hp, cond_false, List.append_nil] at hperm
  exact eq_of_perm_ordered hperm ((Sheet.ofReport_ordered _).filter p)
    ((Sheet.ofReport_ordered _).filter p)

theorem multiline_eq : (Sheet.ofReport (r.extend (.mark span marker))).multiline =
    (Sheet.ofReport r).multiline :=
  h.filter_eq (by simp [h.inline])

theorem touching_eq (hl : line ≠ span.start.line) :
    (Sheet.ofReport (r.extend (.mark span marker))).touching line =
      (Sheet.ofReport r).touching line :=
  h.filter_eq (Bool.eq_false_iff.mpr (mt (Span.touches_inline h.inline).mp hl))

theorem untouched_entries : ∀ e ∈ (Sheet.ofReport r).entries, ¬ e.1.touches span.start.line :=
  fun e he => h.untouched e (Sheet.mem_ofReport_entries.mp he)

theorem touching_fresh :
    (Sheet.ofReport (r.extend (.mark span marker))).touching span.start.line =
      [(span, marker)] := by
  have hperm := h.entries_perm.filter (·.1.touches span.start.line)
  have hnew : span.touches span.start.line = true := (Span.touches_inline h.inline).mpr rfl
  rw [List.filter_append, List.filter_eq_nil_iff.mpr h.untouched_entries, List.filter_singleton,
    hnew, cond_true, List.nil_append] at hperm
  exact hperm.eq_singleton

theorem headerSpan_eq : headerSpan (Sheet.ofReport (r.extend (.mark span marker))).entries =
    headerSpan (Sheet.ofReport r).entries := by
  have hrole : (marker.role == .primary) = false := by simpa using h.role
  have hfilter := h.filter_eq (p := fun e => e.2.role == .primary) hrole
  rw [headerSpan, headerSpan, ← List.head?_filter, ← List.head?_filter, hfilter]

theorem gutter_eq : (Sheet.ofReport (r.extend (.mark span marker))).gutter =
    (Sheet.ofReport r).gutter := by
  have hline : span.start.line = span.stop.line := by simpa [Span.isInline] using h.inline
  have hcomm : RightCommutative fun (width : Nat) (s : Span) =>
      max width (Nat.repr s.stop.line).length := ⟨fun _ _ _ => max_right_comm ..⟩
  have hperm := (h.entries_perm.map Prod.fst).foldl_eq 3 (f := fun width s =>
    max width (Nat.repr s.stop.line).length)
  rw [List.map_append, List.foldl_append] at hperm
  refine hperm.trans (max_eq_left ?_)
  rw [← hline]
  exact h.narrow

theorem fresh_not_mem : span.start.line ∉ (Sheet.ofReport r).lineNumbers := by
  rw [Sheet.mem_lineNumbers]
  rintro ⟨e, he, ht⟩
  exact h.untouched_entries e he ht

theorem lineNumbers_eq : (Sheet.ofReport (r.extend (.mark span marker))).lineNumbers =
    (Sheet.ofReport r).lineNumbers.filter (· < span.start.line) ++
      span.start.line :: (Sheet.ofReport r).lineNumbers.filter (span.start.line < ·) := by
  refine (Sheet.lineNumbers_pairwise _).eq_of_mem_iff
    (ascending_insert (Sheet.lineNumbers_pairwise _) _) fun line => ?_
  have hmem : line ∈ (Sheet.ofReport (r.extend (.mark span marker))).lineNumbers ↔
      line ∈ (Sheet.ofReport r).lineNumbers ∨ line = span.start.line := by
    simp only [Sheet.mem_lineNumbers, h.entries_perm.mem_iff, List.mem_append, List.mem_singleton,
      or_and_right, exists_or, exists_eq_left, Span.touches_inline h.inline]
  have hcases := Nat.lt_trichotomy line span.start.line
  rw [hmem, List.mem_append, List.mem_cons, List.mem_filter, List.mem_filter, decide_eq_true_eq,
    decide_eq_true_eq]
  tauto

theorem hintRows_eq : hintRows (r.extend (.mark span marker)) = hintRows r := by
  have hmarked : (r.extend (.mark span marker)).markers.isEmpty = false := by
    rw [Markers.isEmpty, h.entries_eq]
    simp
  have hhints : (r.extend (.mark span marker)).hints = r.hints := rfl
  rw [hintRows, hintRows, hmarked, h.marked, hhints]

theorem trailerRows_eq : (Sheet.ofReport (r.extend (.mark span marker))).trailerRows =
    (Sheet.ofReport r).trailerRows :=
  Sheet.trailerRows_congr severity_eq h.multiline_eq

theorem lineRows_eq (sources : Sources) (hl : line ≠ span.start.line) :
    (Sheet.ofReport (r.extend (.mark span marker))).lineRows sources line =
      (Sheet.ofReport r).lineRows sources line :=
  Sheet.lineRows_congr severity_eq (h.touching_eq hl) h.multiline_eq sources

theorem lineRows_fresh (sources : Sources) :
    (Sheet.ofReport (r.extend (.mark span marker))).lineRows sources span.start.line =
      (Sheet.ofReport r).freshRows sources (span, marker) := by
  let s := Sheet.ofReport (r.extend (.mark span marker))
  let alone : Sheet := { Sheet.ofReport r with entries := [(span, marker)] }
  have halone : s.touching span.start.line = alone.touching span.start.line := by
    have hnew : span.touches span.start.line = true := (Span.touches_inline h.inline).mpr rfl
    rw [h.touching_fresh, Sheet.touching, List.filter_singleton, hnew, cond_true]
  have hinline : s.inline span.start.line = [(span, marker)] := by
    rw [Sheet.inline, h.touching_fresh, List.filter_singleton, h.inline, cond_true]
  have hbracket : s.bracket span.start.line = (Sheet.ofReport r).bracket span.start.line :=
    Sheet.bracket_congr severity_eq h.multiline_eq
  have hbounding : s.bounding span.start.line = [] := by
    refine Sheet.bounding_of_untouched fun e he => h.untouched_entries e ?_
    rw [h.multiline_eq] at he
    exact (Sheet.mem_multiline.mp he).1
  have hseverity : s.severity = alone.severity := rfl
  have hexcerpt := Sheet.excerpt_congr hseverity halone sources
  have hstrokes := Sheet.strokes_congr hseverity halone
  have hsource : s.sourceBracket span.start.line = s.bracket span.start.line := by
    rw [Sheet.sourceBracket, hbounding]
  have hlabel : s.labelRow span.start.line [] (span, marker) =
      .label span.start.line (s.bracket span.start.line) [] false (span, marker) := rfl
  have hlabels : s.labelRows span.start.line [(span, marker)].reverse =
      [s.labelRow span.start.line [] (span, marker)] := rfl
  rw [Sheet.lineRows, hsource, hexcerpt, hstrokes, hinline, hlabels, hlabel, hbracket]
  rfl

end Fresh

-- ---------------------------------------------------------------------------
-- Layouts
-- ---------------------------------------------------------------------------

/-- The rows of a report up to where a line would be displayed. -/
def rowsAbove (sources : Sources) (r : Report) (line : Nat) : List Row :=
  let s := Sheet.ofReport r
  [.title r.message, .pointer (headerSpan s.entries), .rail] ++
    (s.lineNumbers.filter (· < line)).flatMap (s.lineRows sources)

/-- The rows of a report from there on: those of greater lines, and what follows
the displayed lines. -/
def rowsBelow (sources : Sources) (r : Report) (line : Nat) : List Row :=
  let s := Sheet.ofReport r
  (s.lineNumbers.filter (line < ·)).flatMap (s.lineRows sources) ++ s.trailerRows ++ hintRows r ++
    [.footer]

theorem rows_split (hl : line ∉ (Sheet.ofReport r).lineNumbers) (sources : Sources) :
    rows sources r = rowsAbove sources r line ++ rowsBelow sources r line := by
  have hsplit := ascending_split (Sheet.lineNumbers_pairwise (Sheet.ofReport r)) hl
  rw [rows, ← hsplit, List.flatMap_append]
  simp only [rowsAbove, rowsBelow, List.append_assoc]

theorem Fresh.rows_eq (h : Fresh r span marker) (sources : Sources) :
    rows sources (r.extend (.mark span marker)) = rowsAbove sources r span.start.line ++
      (Sheet.ofReport r).freshRows sources (span, marker) ++
      rowsBelow sources r span.start.line := by
  have hlines (p : Nat → Bool) (hp : p span.start.line = false) :
      ((Sheet.ofReport r).lineNumbers.filter p).flatMap
          ((Sheet.ofReport (r.extend (.mark span marker))).lineRows sources) =
        ((Sheet.ofReport r).lineNumbers.filter p).flatMap
          ((Sheet.ofReport r).lineRows sources) := by
    refine List.flatMap_congr fun line hline => h.lineRows_eq sources ?_
    rintro rfl
    simp [hp] at hline
  have hmessage : (r.extend (.mark span marker)).message = r.message := rfl
  rw [rows, h.headerSpan_eq, h.lineNumbers_eq, List.flatMap_append, List.flatMap_cons,
    h.lineRows_fresh, hlines _ (by simp), hlines _ (by simp), h.trailerRows_eq, h.hintRows_eq]
  simp only [rowsAbove, rowsBelow, hmessage, List.append_assoc]

/-- Rows as they are drawn, each with a line feed behind it. -/
def drawn (charset : Charset) (f : Frame) (rows : List Row) : List Fragment :=
  rows.flatMap fun row => row.fragments charset f ++ [lineFeed]

theorem fragments_split (charset : Charset) (h : rows sources r = before ++ after)
    (hne : after ≠ []) : (r.layout charset sources).fragments =
      drawn charset (Sheet.ofReport r).frame before ++ List.intercalate [lineFeed]
        (after.map (Row.fragments charset (Sheet.ofReport r).frame)) := by
  obtain ⟨row, rest, rfl⟩ := List.exists_cons_of_ne_nil hne
  rw [layout_fragments charset h, List.map_cons, intercalate_cons, List.flatMap_map,
    List.append_assoc]
  rfl

/-- A marker on a line that no other marker touches adds the source text, the
underline and the label of that line, between the lines above it and those below
it. Nothing else of the layout changes. -/
theorem layout_fresh (h : Fresh r span marker) (charset : Charset) (sources : Sources) :
    let f := (Sheet.ofReport r).frame
    let above := rowsAbove sources r span.start.line
    let fresh := (Sheet.ofReport r).freshRows sources (span, marker)
    let below := rowsBelow sources r span.start.line
    let behind := List.intercalate [lineFeed] (below.map (Row.fragments charset f))
    rows sources r = above ++ below ∧
      rows sources (r.extend (.mark span marker)) = above ++ fresh ++ below ∧
      (r.layout charset sources).fragments = drawn charset f above ++ behind ∧
      ((r.extend (.mark span marker)).layout charset sources).fragments =
        drawn charset f above ++ drawn charset f fresh ++ behind := by
  intro f above fresh below behind
  have hrows : rows sources r = above ++ below := rows_split h.fresh_not_mem sources
  have hjoined : rows sources (r.extend (.mark span marker)) = above ++ fresh ++ below :=
    h.rows_eq sources
  have hbelow : below ≠ [] := by simp [below, rowsBelow]
  have hframe : (Sheet.ofReport (r.extend (.mark span marker))).frame = f :=
    congrArg (Frame.mk r.severity) h.gutter_eq
  refine ⟨hrows, hjoined, fragments_split charset hrows hbelow, ?_⟩
  rw [fragments_split charset hjoined hbelow, hframe, drawn, List.flatMap_append]
  rfl

def secondLine : Span :=
  ⟨"a.txt", ⟨2, 1⟩, ⟨2, 2⟩, by decide, by decide, by decide⟩

def aside : Marker := ⟨.context, .ofText "there"⟩

theorem layout_fresh_secondLine : Fresh oneMarker secondLine aside ∧
    rows oneText (oneMarker.extend (.mark secondLine aside)) =
      rowsAbove oneText oneMarker 2 ++
        (Sheet.ofReport oneMarker).freshRows oneText (secondLine, aside) ++
        rowsBelow oneText oneMarker 2 := by
  have h : Fresh oneMarker secondLine aside := by
    refine ⟨by decide, by decide, by decide, by decide, ?_⟩
    rw [sheet_oneMarker]
    decide
  exact ⟨h, (layout_fresh h .ascii oneText).2.1⟩

end Layout

end SpanReport
