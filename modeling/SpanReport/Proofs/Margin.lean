import SpanReport.Proofs.Cells
import SpanReport.Proofs.Sheet

/-!
# Margins

Gutter and frame glyph are equally wide in every row, since every line number
fits into the gutter. In the rows of a displayed line the bracket of spans over
several lines, open, going on or empty, has the same width too.
-/

namespace SpanReport.Layout

variable {charset : Charset}

-- ---------------------------------------------------------------------------
-- Gutters and rails
-- ---------------------------------------------------------------------------

/-- A glyph of the frame that stands behind the gutter. -/
def Piece.IsRail (p : Piece) : Prop :=
  ∃ g ∈ [Glyph.fileArrow, .bar, .dot, .corner], p.ink = .glyph g 1

/-- The first frame glyph of a row is printed in the given column. -/
def Row.RailAt (charset : Charset) (f : Frame) (column : Int) (row : Row) : Prop :=
  ∃ lead rail rest, row.pieces f = lead ++ rail :: rest ∧ (∀ p ∈ lead, ¬ p.IsRail) ∧ rail.IsRail ∧
    Document.columnFrom 1 (lead.map (Piece.draw charset)) = column

theorem Frame.numberGutter_eq {f : Frame} (h : (Nat.repr line).length ≤ f.gutter) :
    ∃ text, f.numberGutter line =
        [.text text (inked frameColour), .glyph .bar (inked frameColour)] ∧
      Stretch charset (f.gutter + 2) [.text text (inked frameColour)] := by
  refine ⟨_, rfl, ?_, ?_⟩
  · simp only [charsOf_text, List.cons_append, List.length_cons, List.length_append,
      List.length_replicate, List.length_nil, String.length_toList]
    omega
  · have hd : '\n' ∉ (Nat.repr line).toList := by
      rw [Nat.toList_repr]
      exact Text.newline_not_mem_toDigits line
    have hb := newline_not_mem_blanks (f.gutter - (Nat.repr line).toList.length)
    simp only [charsOf_text, List.cons_append, List.mem_cons, List.mem_append, not_or]
    exact ⟨by decide, ⟨hb, hd⟩, by decide, List.not_mem_nil⟩

theorem Row.railAt_of {row : Row} {gutter rail : Piece} (hrow : row.head f = gutter :: rail :: rest)
    (hs : Stretch charset n [gutter]) (hg : ¬ gutter.IsRail) (hr : rail.IsRail) :
    row.RailAt charset f (1 + n) := by
  have hh : gutter.hanging = false := row.head_hanging f gutter (by simp [hrow])
  refine ⟨[gutter], rail, rest ++ Piece.message (row.message f), ?_, ?_, hr, ?_⟩
  · rw [Row.pieces, hrow]
    rfl
  · simpa using hg
  · exact hs.column (by simpa using hh)

theorem text_not_isRail (s : String) (style : Style) : ¬ (Piece.text s style).IsRail := by
  rintro ⟨g, -, h⟩
  cases h

theorem glyph_isRail (h : g ∈ [Glyph.fileArrow, .bar, .dot, .corner]) (style : Style) :
    (Piece.glyph g style).IsRail := ⟨g, h, rfl⟩

theorem Row.railAt (charset : Charset) (f : Frame) (row : Row)
    (hfit : ∀ line, row.line? = some line → (Nat.repr line).length ≤ f.gutter)
    (ht : ∀ message, row ≠ .title message) : row.RailAt charset f (f.gutter + 3) := by
  have hcolumn : (1 : Int) + ((f.gutter + 2 : Nat) : Int) = f.gutter + 3 := by omega
  have hblank : Stretch charset (f.gutter + 2) [f.blankGutter] := .blanks _
  have hnot : ¬ f.blankGutter.IsRail := text_not_isRail _ _
  have hdot : (Piece.glyph .dot (bold frameColour)).IsRail := glyph_isRail (by decide) _
  have hbar : (Piece.glyph .bar (bold frameColour)).IsRail := glyph_isRail (by decide) _
  rw [← hcolumn]
  cases row with
  | title message => exact absurd rfl (ht message)
  | pointer span => exact railAt_of rfl hblank hnot (glyph_isRail (by decide) _)
  | rail => exact railAt_of rfl hblank hnot hbar
  | source line bracket excerpt =>
    obtain ⟨text, hg, hs⟩ := Frame.numberGutter_eq (f := f) (hfit line rfl)
    have hrow : (Row.source line bracket excerpt).head f =
        .text text (inked frameColour) :: .glyph .bar (inked frameColour) ::
          .text " " :: (bracket.pieces ++ excerptPieces excerpt) := by
      rw [Row.head, hg]
      rfl
    exact railAt_of hrow hs (text_not_isRail _ _) (glyph_isRail (by decide) _)
  | underline line bracket strokes => exact railAt_of rfl hblank hnot hdot
  | label line bracket pipes shared entry => exact railAt_of rfl hblank hnot hdot
  | trailerHead colour => exact railAt_of rfl hblank hnot hdot
  | trailer last entry => exact railAt_of rfl hblank hnot hdot
  | gap => exact railAt_of rfl hblank hnot hdot
  | hint message => exact railAt_of rfl hblank hnot hbar
  | footer =>
    have hrule : Stretch charset (f.gutter + 2)
        [{ ink := .glyph .rule (f.gutter + 2), style := bold frameColour }] := .rule _ _
    refine railAt_of rfl hrule ?_ (glyph_isRail (by decide) _)
    rintro ⟨g, -, h⟩
    cases h

theorem Frame.dotGutter_stretch (f : Frame) : Stretch charset (f.gutter + 3) f.dotGutter :=
  (Stretch.blanks (f.gutter + 2)).append (.glyph .dot _)

theorem Frame.numberGutter_stretch {f : Frame} (h : (Nat.repr line).length ≤ f.gutter) :
    Stretch charset (f.gutter + 3) (f.numberGutter line) := by
  obtain ⟨text, hg, hs⟩ := Frame.numberGutter_eq h
  rw [hg]
  exact hs.append (.glyph .bar _)

-- ---------------------------------------------------------------------------
-- Brackets and margins
-- ---------------------------------------------------------------------------

namespace Sheet

/-- The width of the bracket of spans over several lines. -/
def shift (s : Sheet) : Nat := if s.multiline.isEmpty then 0 else 3

/-- The number of columns before the source text. -/
def margin (s : Sheet) : Nat := s.gutter + 4 + s.shift

theorem bracket_eq_absent (s : Sheet) (line : Nat) :
    s.bracket line = .absent ↔ s.multiline = [] := by
  rw [bracket, barColour?]
  constructor
  · intro h
    split at h
    · cases h
    · split at h
      · exact List.isEmpty_iff.mp ‹_›
      · cases h
  · intro h
    simp [bounding, enclosing, h]

theorem sourceBracket_eq_absent (s : Sheet) (line : Nat) :
    s.sourceBracket line = .absent ↔ s.multiline = [] := by
  rw [sourceBracket]
  split
  · rename_i e rest hb
    have he : e ∈ s.bounding line := by simp [hb]
    exact iff_of_false nofun (List.ne_nil_of_mem (List.mem_of_mem_filter he))
  · exact s.bracket_eq_absent line

theorem bracket_stretch {s : Sheet} {b : Bracket} (h : b = .absent ↔ s.multiline = []) :
    Stretch charset s.shift b.pieces := by
  have hb : b ≠ .absent → Stretch charset 3 b.pieces := by
    intro hb
    cases b with
    | absent => exact absurd rfl hb
    | blank => exact .blanks 3
    | through colour => exact (Stretch.glyph .bar _).append (.blanks 2)
    | branch opens colour =>
      have hopen : Stretch charset 1
          [.glyph (if opens then .spanStart else .spanBranch) (inked colour)] := by
        cases opens
        · exact .glyph .spanBranch _
        · exact .glyph .spanStart _
      exact hopen.append ((Stretch.glyph .spanTee _).append (.blanks 1))
  by_cases hm : s.multiline = []
  · rw [shift, hm, h.mpr hm]
    exact .nil
  · rw [shift, if_neg (by simpa using hm)]
    exact hb fun he => hm (h.mp he)

theorem margin_stretch {s : Sheet} {gs bs : List Piece} (hg : Stretch charset (s.gutter + 3) gs)
    (hb : Stretch charset s.shift bs) : Stretch charset s.margin (gs ++ .text " " :: bs) := by
  have hblank : Stretch charset 1 [.text " "] := .blanks 1
  have hall : Stretch charset (s.gutter + 3 + (1 + s.shift)) (gs ++ ([.text " "] ++ bs)) :=
    hg.append (hblank.append hb)
  have hm : s.gutter + 3 + (1 + s.shift) = s.margin := by
    rw [margin]
    omega
  rwa [hm] at hall

/-- What stands before the source text in the row that shows it. -/
theorem numberMargin_stretch {s : Sheet} (h : line ∈ s.lineNumbers) : Stretch charset s.margin
    (s.frame.numberGutter line ++ .text " " :: (s.sourceBracket line).pieces) :=
  margin_stretch (Frame.numberGutter_stretch (f := s.frame) (length_repr_le_gutter h))
    (bracket_stretch (s.sourceBracket_eq_absent line))

/-- What stands before underlines and labels. -/
theorem dotMargin_stretch (s : Sheet) (line : Nat) : Stretch charset s.margin
    (s.frame.dotGutter ++ .text " " :: (s.bracket line).pieces) :=
  margin_stretch s.frame.dotGutter_stretch (bracket_stretch (s.bracket_eq_absent line))

end Sheet

end SpanReport.Layout
