import SpanReport.Proofs.Roles
import Mathlib.Data.Int.ConditionallyCompleteOrder
import Mathlib.Data.List.DropRight
import Mathlib.Data.Prod.Lex
import Mathlib.Order.CompletePartialOrder
import Mathlib.Order.ConditionallyCompleteLattice.Basic
import Mathlib.Order.Interval.Set.Disjoint
import Mathlib.Order.Interval.Set.LinearOrder

/-!
# Spans as intervals and as texts

`covers_between`: a span covers the interval of points from its start to its stop,
in the order of lines and then columns, whether or not it ends in the line where
it begins. `text_identifies`: the text of a span is read back from its right end,
number by number, so no two spans have the same text, whatever their files are
called.
-/

namespace SpanReport

-- ---------------------------------------------------------------------------
-- Coverage
-- ---------------------------------------------------------------------------

/-- Where a point stands among all points, by line and then by column. -/
def Point.rank (p : Point) : Int ×ₗ Int := toLex ((p.line : Int), (p.column : Int))

theorem Point.rank_le {p : Point} {line column : Int} : p.rank ≤ toLex (line, column) ↔
    (p.line : Int) < line ∨ p.line = line ∧ p.column ≤ column :=
  Prod.Lex.toLex_le_toLex

theorem Point.lt_rank {p : Point} {line column : Int} : toLex (line, column) < p.rank ↔
    line < p.line ∨ line = p.line ∧ column < p.column :=
  Prod.Lex.toLex_lt_toLex

theorem Point.rank_inj {p q : Point} : p.rank = q.rank ↔ p = q := by
  obtain ⟨line, column⟩ := p
  obtain ⟨line', column'⟩ := q
  simp [rank]

namespace Span

/-- The ranks of all points that a span covers. -/
def covered (s : Span) : Set (Int ×ₗ Int) := {p | s.covers (ofLex p).1 (ofLex p).2}

theorem covers_iff_rank {s : Span} {line column : Int} : s.covers line column ↔
    s.start.rank ≤ toLex (line, column) ∧ toLex (line, column) < s.stop.rank := by
  rw [covers_iff, Point.rank_le, Point.lt_rank]

theorem covered_eq_Ico (s : Span) : s.covered = Set.Ico s.start.rank s.stop.rank :=
  Set.ext fun _ => covers_iff_rank

theorem start_rank_le_stop_rank (s : Span) : s.start.rank ≤ s.stop.rank := by
  have hordered := s.start_before_stop
  unfold Point.Before at hordered
  refine Point.rank_le.mpr ?_
  omega

theorem start_rank_lt_iff {s : Span} : s.start.rank < s.stop.rank ↔ s.start ≠ s.stop := by
  rw [s.start_rank_le_stop_rank.lt_iff_ne, ne_eq, Point.rank_inj]

/-- A span that is made from numbers stands between the points that they name. -/
theorem rank_ofCoordinates {c : Coordinates} {file : String} (h : ofCoordinates c file = .ok s) :
    s.start.rank = toLex (c.beginLine, c.beginColumn) ∧
      s.stop.rank = toLex (c.endLine, c.endColumn) := by
  unfold ofCoordinates at h
  split at h
  · rename_i hone
    dsimp only at h
    split at h
    · cases h
      simp only [Point.rank, toLex_inj, Prod.mk.injEq]
      omega
    · cases h
  · cases h

/-- A span covers the points from its start up to, and without, its stop, which are
those that it was made from. If the two differ, it covers its start, and else nothing.
Of two spans that meet no point is covered by both, and none between them by neither. -/
theorem covers_between (s : Span) :
    (∀ line column : Int, s.covers line column ↔
      s.start.rank ≤ toLex (line, column) ∧ toLex (line, column) < s.stop.rank) ∧
    (∀ c file, ofCoordinates c file = .ok s →
      s.start.rank = toLex (c.beginLine, c.beginColumn) ∧
        s.stop.rank = toLex (c.endLine, c.endColumn)) ∧
    (s.covers s.start.line s.start.column ↔ s.start ≠ s.stop) ∧
    (s.covered.Nonempty ↔ s.start ≠ s.stop) ∧
    ¬s.covers s.stop.line s.stop.column ∧
    ∀ next : Span, s.stop = next.start → Disjoint s.covered next.covered ∧
      s.covered ∪ next.covered = Set.Ico s.start.rank next.stop.rank := by
  refine ⟨fun line column => covers_iff_rank, fun c file => rank_ofCoordinates, ?_, ?_, ?_,
    fun next hmeet => ?_⟩
  · exact covers_iff_rank.trans (Set.left_mem_Ico.trans start_rank_lt_iff)
  · rw [covered_eq_Ico, Set.nonempty_Ico, start_rank_lt_iff]
  · exact fun h => (covers_iff_rank.mp h).2.ne rfl
  · have hle : s.stop.rank ≤ next.stop.rank := hmeet ▸ next.start_rank_le_stop_rank
    rw [covered_eq_Ico, covered_eq_Ico, ← hmeet]
    exact ⟨Set.Ico_disjoint_Ico_same, Set.Ico_union_Ico_eq_Ico s.start_rank_le_stop_rank hle⟩

end Span

-- ---------------------------------------------------------------------------
-- Texts
-- ---------------------------------------------------------------------------

namespace Text

/-- The number at the end of a text is what stands behind its last other character. -/
theorem rtakeWhile_digits (hc : c.isDigit = false) (before : List Char) (n : Nat) :
    (before ++ c :: Nat.toDigits 10 n).rtakeWhile Char.isDigit = Nat.toDigits 10 n := by
  have hdigits : ∀ d ∈ (Nat.toDigits 10 n).reverse, d.isDigit := fun d hd =>
    Nat.isDigit_of_mem_toDigits (by decide) (by decide) (List.mem_reverse.mp hd)
  rw [List.rtakeWhile, List.reverse_append, List.reverse_cons, List.append_assoc,
    List.singleton_append, List.takeWhile_append_of_pos hdigits,
    List.takeWhile_cons_of_neg (by simp [hc]), List.append_nil, List.reverse_reverse]

theorem append_digits_inj (hc : c.isDigit = false)
    (h : first ++ c :: Nat.toDigits 10 m = second ++ c :: Nat.toDigits 10 n) :
    first = second ∧ m = n := by
  have hdigits : Nat.toDigits 10 m = Nat.toDigits 10 n := by
    rw [← rtakeWhile_digits hc first m, h, rtakeWhile_digits hc second n]
  have hback (k : Nat) : Nat.ofDigitChars 10 (Nat.toDigits 10 k) 0 = k :=
    Nat.ofDigitChars_toDigits (by decide) (by decide)
  have hnumber : m = n := by rw [← hback m, hdigits, hback]
  rw [hdigits] at h
  exact ⟨List.append_cancel_right h, hnumber⟩

/-- Blanks before another character are counted off the text. -/
theorem replicate_append_cons_inj (hc : c ≠ ' ')
    (h : List.replicate m ' ' ++ c :: first = List.replicate n ' ' ++ c :: second) :
    m = n ∧ first = second := by
  have hblanks (k : Nat) (rest : List Char) :
      (List.replicate k ' ' ++ c :: rest).takeWhile (· == ' ') = List.replicate k ' ' := by
    rw [List.takeWhile_append_of_pos (by simp), List.takeWhile_cons_of_neg (by simpa using hc),
      List.append_nil]
  have hcount : m = n := by
    have := congrArg (fun text => (text.takeWhile (· == ' ')).length) h
    simpa only [hblanks, List.length_replicate] using this
  subst hcount
  exact ⟨rfl, (List.cons.inj (List.append_cancel_left h)).2⟩

end Text

namespace Span

theorem toList_text (s : Span) : s.text.toList =
    (((s.file.toList ++ '@' :: Nat.toDigits 10 s.start.line) ++
      ':' :: Nat.toDigits 10 s.start.column) ++ '-' :: Nat.toDigits 10 s.stop.line) ++
      ':' :: Nat.toDigits 10 s.stop.column := by
  simp [text]

theorem text_inj {s t : Span} : s.text = t.text ↔ s = t := by
  refine ⟨fun h => ?_, fun h => by rw [h]⟩
  have htext := congrArg String.toList h
  rw [toList_text, toList_text] at htext
  -- A file name may end in what looks like numbers, so they are read from the right.
  obtain ⟨htext, hstopColumn⟩ := Text.append_digits_inj (by decide) htext
  obtain ⟨htext, hstopLine⟩ := Text.append_digits_inj (by decide) htext
  obtain ⟨htext, hstartColumn⟩ := Text.append_digits_inj (by decide) htext
  obtain ⟨htext, hstartLine⟩ := Text.append_digits_inj (by decide) htext
  obtain ⟨file, ⟨_, _⟩, ⟨_, _⟩, _, _, _⟩ := s
  obtain ⟨file', ⟨_, _⟩, ⟨_, _⟩, _, _, _⟩ := t
  obtain rfl : file = file' := String.ext htext
  simp_all

theorem pointerText_inj {charset : Charset} {s t : Span}
    (h : Layout.pointerText charset m s = Layout.pointerText charset n t) : m = n ∧ s = t := by
  obtain ⟨c, arrow, harrow, hc⟩ :
      ∃ c arrow, (Glyph.fileArrow.draw charset).toList = c :: arrow ∧ c ≠ ' ' := by
    cases charset
    · exact ⟨'╭', _, rfl, by decide⟩
    · exact ⟨'+', _, rfl, by decide⟩
  rw [Layout.pointerText, Layout.pointerText, harrow, List.append_assoc, List.append_assoc,
    List.cons_append, List.cons_append] at h
  obtain ⟨hgutter, hbehind⟩ := Text.replicate_append_cons_inj hc h
  have htext := (List.cons.inj (List.append_cancel_left hbehind)).2
  exact ⟨Nat.add_right_cancel hgutter, text_inj.mp (String.ext htext)⟩

/-- Spans have the same text only if they are the same: if their files are, and all
of their lines and columns. So pointers that are printed alike point to one span. -/
theorem text_identifies (s t : Span) :
    (s.text = t.text ↔ s = t) ∧
    (s = t ↔ s.file = t.file ∧ s.start.line = t.start.line ∧ s.start.column = t.start.column ∧
      s.stop.line = t.stop.line ∧ s.stop.column = t.stop.column) ∧
    ∀ charset f g, (Layout.Row.pointer s).chars charset f = (Layout.Row.pointer t).chars charset g ↔
      f.gutter = g.gutter ∧ s = t := by
  refine ⟨text_inj, ?_, fun charset f g => ?_⟩
  · obtain ⟨_, ⟨_, _⟩, ⟨_, _⟩, _, _, _⟩ := s
    obtain ⟨_, ⟨_, _⟩, ⟨_, _⟩, _, _, _⟩ := t
    simp [and_assoc]
  · rw [Layout.chars_pointer, Layout.chars_pointer]
    refine ⟨pointerText_inj, ?_⟩
    rintro ⟨hgutter, rfl⟩
    rw [hgutter]

end Span

end SpanReport
