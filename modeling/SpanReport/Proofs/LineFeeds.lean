import SpanReport.Proofs.Known
import SpanReport.Proofs.Markers
import SpanReport.Proofs.Printed
import Mathlib.Algebra.BigOperators.Group.List.Basic
import Mathlib.Data.List.Dedup

/-!
# Line feeds

Colours are put on line by line and glyphs fill columns of one line, so a report
has as many line feeds in every way of printing it. `layout_lineFeeds` counts
them: those between its rows, and those within the texts that it shows.
-/

namespace SpanReport

-- ---------------------------------------------------------------------------
-- Printing in colour
-- ---------------------------------------------------------------------------

theorem Fragment.count_emitColoured {f : Fragment} (h : f.emitColoured column = .ok text) :
    text.toList.count '\n' = (f.chars column).count '\n' := by
  unfold emitColoured at h
  split at h
  · obtain ⟨codes, -, hpainted⟩ := bind_ok.mp h
    obtain rfl := Except.ok.inj hpainted
    have hlines := congrArg List.length (Terminal.lines_painted codes (f.chars column))
    rw [List.length_map, Text.length_lines, Text.length_lines] at hlines
    simpa using hlines
  · cases h
    simp [emit]

/-- Colours add no line feed and take none away. -/
theorem Document.count_render {d : Document} {colours : Bool} (h : d.render colours = .ok text) :
    text.toList.count '\n' = d.renderPlain.toList.count '\n' := by
  cases colours with
  | false =>
    cases h
    rfl
  | true =>
    obtain ⟨texts, htexts, hjoin⟩ := bind_ok.mp h
    cases hjoin
    have hall := mapM_ok.mp htexts
    rw [toList_renderPlain, String.toList_join]
    clear htexts h
    generalize d.placed = placed at hall
    induction hall with
    | nil => rfl
    | cons hf _ ih =>
      rw [List.flatMap_cons, List.flatMap_cons, List.count_append, List.count_append, ih,
        Fragment.count_emitColoured hf]

namespace Layout

-- ---------------------------------------------------------------------------
-- Heights
-- ---------------------------------------------------------------------------

def feedsOf (d : Document) : Nat := d.wording.count '\n'

/-- How many lines a row is printed on. -/
def Row.height (f : Frame) (row : Row) : Nat := row.feeds + feedsOf (row.message f) + 1

def heights (f : Frame) (rows : List Row) : Nat := (rows.map (Row.height f)).sum

theorem heights_printed (charset : Charset) (sources : Sources) (r : Report) :
    (r.layout charset sources).renderPlain.toList.count '\n' + 1 =
      heights (Sheet.ofReport r).frame (rows sources r) := by
  rw [← Text.length_lines, lines_printed, List.length_flatMap, heights]
  refine congrArg List.sum (List.map_congr_left fun row _ => ?_)
  rw [Text.length_lines, Row.count_chars]
  rfl

section
variable (f : Frame)

theorem heights_append (first second : List Row) :
    heights f (first ++ second) = heights f first + heights f second := by
  rw [heights, List.map_append, List.sum_append]
  rfl

theorem heights_cons (row : Row) (rest : List Row) :
    heights f (row :: rest) = row.height f + heights f rest := by
  rw [heights, List.map_cons, List.sum_cons]
  rfl

theorem heights_flatMap (g : α → List Row) (xs : List α) :
    heights f (xs.flatMap g) = (xs.map fun x => heights f (g x)).sum := by
  induction xs with
  | nil => rfl
  | cons x rest ih => rw [List.flatMap_cons, heights_append, ih, List.map_cons, List.sum_cons]

theorem sum_map_succ (g : α → Nat) (xs : List α) :
    (xs.map fun x => g x + 1).sum = (xs.map g).sum + xs.length := by
  rw [List.sum_map_add]
  simp

theorem heights_map {g : α → Row} {feeds : α → Nat} (h : ∀ x, (g x).height f = feeds x + 1)
    (xs : List α) : heights f (xs.map g) = (xs.map feeds).sum + xs.length := by
  rw [heights, List.map_map, ← sum_map_succ]
  exact congrArg List.sum (List.map_congr_left fun x _ => h x)

-- ---------------------------------------------------------------------------
-- The rows of a sheet
-- ---------------------------------------------------------------------------

def entryFeeds (e : Entry) : Nat := feedsOf e.2.message

theorem feedsOf_restyle (style : Style) (d : Document) :
    feedsOf (d.restyle style) = feedsOf d := by
  rw [feedsOf, feedsOf, Document.wording_restyle]

variable (s : Sheet) (sources : Sources) (line : Nat)

theorem heights_labelRows (es : List Entry) :
    heights f (s.labelRows line es) = (es.map entryFeeds).sum + es.length := by
  have hlabel (earlier : List Entry) (e : Entry) :
      (s.labelRow line earlier e).height f = entryFeeds e + 1 := by
    simp [Row.height, Sheet.labelRow, Row.feeds, Row.message, feedsOf_restyle, entryFeeds]
  induction es with
  | nil => rfl
  | cons e earlier ih =>
    rw [Sheet.labelRows, heights_cons, ih, hlabel, List.map_cons, List.sum_cons, List.length_cons]
    omega

/-- The line feeds of the text that a line shows, if it has one. -/
def textFeeds (s : Sheet) (sources : Sources) (line : Nat) : Nat :=
  ((s.text? sources line).map fun text => text.toList.count '\n').getD 0

theorem height_source (bracket : Bracket) :
    (Row.source line bracket (s.excerpt sources line)).height f = textFeeds s sources line + 1 := by
  have hmessage (excerpt : Option (List Run)) : (Row.source line bracket excerpt).height f =
      (Row.source line bracket excerpt).feeds + 1 := rfl
  rw [hmessage, textFeeds, Sheet.excerpt_eq]
  cases s.text? sources line with
  | none => rfl
  | some text => simp [Row.feeds, flatMap_runs]

theorem heights_lineRows : heights f (s.lineRows sources line) =
    1 + textFeeds s sources line + (if (s.inline line).isEmpty then 0 else 1) +
      (((s.inline line).map entryFeeds).sum + (s.inline line).length) := by
  have hunderline : heights f (if (s.inline line).isEmpty then []
      else [.underline line (s.bracket line) (s.strokes line)]) =
        if (s.inline line).isEmpty then 0 else 1 := by
    split <;> rfl
  rw [Sheet.lineRows, List.cons_append, heights_cons, heights_append, height_source, hunderline,
    heights_labelRows, List.map_reverse, List.sum_reverse, List.length_reverse]
  omega

theorem heights_trailerRows : heights f s.trailerRows = (s.multiline.map entryFeeds).sum +
    if s.multiline.length = 0 then 0 else 1 + s.multiline.length := by
  have htrailer (last : Bool) (e : Entry) :
      (Row.trailer last e).height f = entryFeeds e + 1 := by
    simp [Row.height, Row.feeds, Row.message, entryFeeds]
  have hhead (colour : String) : (Row.trailerHead colour).height f = 1 := rfl
  have hothers (rest : List Entry) : heights f (rest.reverse.map (.trailer false)) =
      (rest.map entryFeeds).sum + rest.length := by
    rw [heights_map f (htrailer false), List.map_reverse, List.sum_reverse, List.length_reverse]
  have hlast (first : Entry) : heights f [.trailer true first] = entryFeeds first + 1 := htrailer ..
  rw [Sheet.trailerRows]
  cases s.multiline with
  | nil => rfl
  | cons first rest =>
    simp only [List.cons_append, heights_cons, heights_append, hhead, hothers, hlast,
      List.map_cons, List.sum_cons, List.length_cons, Nat.succ_ne_zero, if_false]
    omega

/-- The hints that a report shows. -/
def shownHints (r : Report) : List Document := if r.markers.isEmpty then [] else r.hints

theorem heights_hintRows (r : Report) : heights f (hintRows r) =
    ((shownHints r).map feedsOf).sum +
      if (shownHints r).length = 0 then 0 else 1 + (shownHints r).length := by
  have hhint (hint : Document) : (Row.hint hint).height f = feedsOf hint + 1 := by
    simp [Row.height, Row.feeds, Row.message, feedsOf_restyle]
  have hgap : Row.gap.height f = 1 := rfl
  rw [hintRows, shownHints]
  cases r.markers.isEmpty with
  | true => simp [heights]
  | false =>
    cases r.hints with
    | nil => rfl
    | cons hint rest =>
      have hrows : heights f (.gap :: (hint :: rest).map .hint) =
          1 + (((hint :: rest).map feedsOf).sum + (hint :: rest).length) := by
        rw [heights_cons, heights_map f hhint, hgap]
      exact hrows.trans (Nat.add_left_comm ..)

-- ---------------------------------------------------------------------------
-- Displayed lines
-- ---------------------------------------------------------------------------

theorem sum_indicator (p : α → Bool) (xs : List α) :
    (xs.map fun x => if p x then 0 else 1).sum = (xs.filter fun x => !p x).length := by
  induction xs with
  | nil => rfl
  | cons x rest ih => cases h : p x <;> simp [h, ih, Nat.add_comm]

theorem heights_lines : heights f (s.lineNumbers.flatMap (s.lineRows sources)) =
    s.lineNumbers.length + (s.lineNumbers.map (textFeeds s sources)).sum +
      (s.lineNumbers.filter fun line => !(s.inline line).isEmpty).length +
      (((s.entries.filter (·.1.isInline)).map entryFeeds).sum +
        (s.entries.filter (·.1.isInline)).length) := by
  have hperm := s.flatMap_inline_perm
  have hfeeds : (s.lineNumbers.map fun line => ((s.inline line).map entryFeeds).sum).sum =
      ((s.entries.filter (·.1.isInline)).map entryFeeds).sum := by
    rw [← (hperm.map entryFeeds).sum_nat, List.map_flatMap, List.flatMap, List.sum_flatten,
      List.map_map]
    rfl
  have hlabels : (s.lineNumbers.map fun line => (s.inline line).length).sum =
      (s.entries.filter (·.1.isInline)).length := by
    rw [← hperm.length_eq, List.length_flatMap]
  have htexts : (s.lineNumbers.map fun _ => 1).sum = s.lineNumbers.length := by simp
  simp only [heights_flatMap, heights_lineRows, List.sum_map_add, hfeeds, hlabels, htexts,
    sum_indicator]

end

-- ---------------------------------------------------------------------------
-- Layouts
-- ---------------------------------------------------------------------------

/-- The lines that some marker of a report touches. -/
def displayedLines (r : Report) : List Nat := (r.markers.entries.flatMap (·.1.lines)).dedup

/-- The lines that have a marker for themselves. -/
def inlineLines (r : Report) : List Nat :=
  ((r.markers.entries.filter (·.1.isInline)).map (·.1.start.line)).dedup

/-- The line feeds between the rows of a report. -/
def rowFeeds (r : Report) : Nat :=
  let inline := r.markers.entries.countP (·.1.isInline)
  let multiline := r.markers.entries.countP (!·.1.isInline)
  let hints := (shownHints r).length
  3 + (displayedLines r).length + (inlineLines r).length + inline +
    (if multiline = 0 then 0 else 1 + multiline) + (if hints = 0 then 0 else 1 + hints)

/-- The line feeds that a report shows within its rows: those of its messages, of
the file that its pointer names, and of source texts. -/
def shownFeeds (sources : Sources) (r : Report) : Nat :=
  feedsOf r.message + (headerSpan (Sheet.ofReport r).entries).file.toList.count '\n' +
    (r.markers.entries.map entryFeeds).sum +
    ((displayedLines r).map (textFeeds (Sheet.ofReport r) sources)).sum +
    ((shownHints r).map feedsOf).sum

theorem lineNumbers_perm (r : Report) :
    (Sheet.ofReport r).lineNumbers.Perm (displayedLines r) := by
  have hnodup := (Sheet.lineNumbers_pairwise (Sheet.ofReport r)).imp Nat.ne_of_lt
  refine (List.perm_ext_iff_of_nodup hnodup (List.nodup_dedup _)).mpr fun line => ?_
  simp only [Sheet.mem_lineNumbers, List.mem_dedup, List.mem_flatMap, Span.mem_lines,
    Sheet.mem_ofReport_entries]

theorem inlineLines_perm (r : Report) : ((Sheet.ofReport r).lineNumbers.filter fun line =>
    !((Sheet.ofReport r).inline line).isEmpty).Perm (inlineLines r) := by
  have hnodup := ((Sheet.lineNumbers_pairwise (Sheet.ofReport r)).imp Nat.ne_of_lt).filter
    fun line => !((Sheet.ofReport r).inline line).isEmpty
  refine (List.perm_ext_iff_of_nodup hnodup (List.nodup_dedup _)).mpr fun line => ?_
  simp only [List.mem_dedup, List.mem_map, List.mem_filter, Bool.not_eq_true',
    List.isEmpty_eq_false_iff_exists_mem, Sheet.mem_inline, Sheet.mem_ofReport_entries]
  constructor
  · rintro ⟨-, e, he, hinline, hline⟩
    exact ⟨e, ⟨he, hinline⟩, hline⟩
  · rintro ⟨e, ⟨he, hinline⟩, rfl⟩
    exact ⟨Sheet.start_mem_lineNumbers (Sheet.mem_ofReport_entries.mpr he), e, he, hinline, rfl⟩

theorem length_filter_entries (r : Report) (p : Entry → Bool) :
    ((Sheet.ofReport r).entries.filter p).length = r.markers.entries.countP p := by
  rw [← List.countP_eq_length_filter]
  exact (sortEntries_perm r.markers.entries).countP_eq p

/-- Every marker has its message shown, as a label or in the trailer. -/
theorem sum_entryFeeds (r : Report) :
    (((Sheet.ofReport r).entries.filter (·.1.isInline)).map entryFeeds).sum +
      ((Sheet.ofReport r).multiline.map entryFeeds).sum =
        (r.markers.entries.map entryFeeds).sum := by
  have hperm := (List.filter_append_perm (fun e : Entry => e.1.isInline) _).trans
    (sortEntries_perm r.markers.entries)
  rw [← List.sum_append, ← List.map_append]
  exact (hperm.map entryFeeds).sum_nat

theorem heights_rows (f : Frame) (sources : Sources) (r : Report) :
    heights f (rows sources r) = rowFeeds r + shownFeeds sources r + 1 := by
  have hlines := lineNumbers_perm r
  have htexts := (hlines.map (textFeeds (Sheet.ofReport r) sources)).sum_nat
  have hfeeds := sum_entryFeeds r
  have hmultiline : (Sheet.ofReport r).multiline.length =
      r.markers.entries.countP (!·.1.isInline) := length_filter_entries r _
  have hnothing : feedsOf {} = 0 := rfl
  have hhead (span : Span) : heights f [.title r.message, .pointer span, .rail] =
      feedsOf r.message + span.file.toList.count '\n' + 3 := by
    simp only [heights, Row.height, Row.feeds, Row.message, hnothing, List.map_cons, List.map_nil,
      List.sum_cons, List.sum_nil]
    omega
  have hfooter : heights f [.footer] = 1 := rfl
  simp only [rows, heights_append, heights_lines, heights_trailerRows, heights_hintRows, hhead,
    hfooter, htexts, hlines.length_eq, (inlineLines_perm r).length_eq, length_filter_entries,
    hmultiline]
  rw [rowFeeds, shownFeeds]
  omega

/-- A report is printed with a line feed behind each row but the last one, and
with those of the texts that it shows, in either charset, in colour or not. -/
theorem layout_lineFeeds {r : Report} {colours : Bool} (h : colours = true → KeepsKnown r)
    (charset : Charset) (sources : Sources) :
    ∃ text, (r.layout charset sources).render colours = .ok text ∧
      text.toList.count '\n' = rowFeeds r + shownFeeds sources r := by
  have hok : ∃ text, (r.layout charset sources).render colours = .ok text := by
    cases colours with
    | false => exact ⟨_, rfl⟩
    | true => exact Document.render_ok (layout_known (h rfl) charset sources) true
  obtain ⟨text, ht⟩ := hok
  refine ⟨text, ht, ?_⟩
  have hheights := heights_printed charset sources r
  rw [heights_rows] at hheights
  exact (Document.count_render ht).trans (Nat.succ.inj hheights)

theorem layout_lineFeeds_oneMarker : KeepsKnown oneMarker ∧
    ∃ text, (oneMarker.layout .unicode oneText).render true = .ok text ∧
      text.toList.count '\n' = 6 := by
  have h : KeepsKnown oneMarker := by
    have hmessage : oneMarker.message.Known := by
      intro f hf
      obtain rfl := List.mem_singleton.mp hf
      exact known_plain
    have hinline : ∀ e ∈ oneMarker.markers.entries, e.1.isInline := by decide
    exact ⟨hmessage, fun e he hlines => absurd (hinline e he) (by simp [hlines])⟩
  have hrows : rowFeeds oneMarker = 6 := by decide
  have hshown : shownFeeds oneText oneMarker = 0 := by
    rw [shownFeeds, sheet_oneMarker]
    decide
  obtain ⟨text, ht, hcount⟩ := layout_lineFeeds (fun _ => h) .unicode oneText
  exact ⟨h, text, ht, by rw [hcount, hrows, hshown]⟩

end Layout

end SpanReport
