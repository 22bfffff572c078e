import SpanReport.Proofs.Lines
import SpanReport.Proofs.Rows
import Mathlib.Data.List.Forall2

/-!
# The two charsets

`layout_charsets`: a report laid out in boxes and in ASCII has the same
fragments but for the characters of glyphs, and printed, both layouts have
their line feeds and all text at the same places.
-/

namespace SpanReport

-- ---------------------------------------------------------------------------
-- Characters at the same place
-- ---------------------------------------------------------------------------

/-- The characters at one place of a glyph, in boxes and in ASCII. -/
def Glyph.Counterparts (box ascii : Char) : Prop :=
  ∃ (g : Glyph) (i : Nat), (g.draw .unicode).toList[i]? = some box ∧
    (g.draw .ascii).toList[i]? = some ascii

/-- Characters that can stand at the same place of the two layouts. -/
def SameCell (box ascii : Char) : Prop :=
  (box = '\n' ↔ ascii = '\n') ∧ (box = ascii ∨ Glyph.Counterparts box ascii)

theorem SameCell.refl (c : Char) : SameCell c c := ⟨Iff.rfl, .inl rfl⟩

theorem forall₂_sameCell_refl (text : List Char) : List.Forall₂ SameCell text text :=
  List.forall₂_same.mpr fun c _ => .refl c

theorem Glyph.forall₂_draw (g : Glyph) :
    List.Forall₂ SameCell (g.draw .unicode).toList (g.draw .ascii).toList := by
  apply List.forall₂_iff_get.mpr
  refine ⟨by simp [String.length_toList, length_draw], fun i hb ha => ⟨?_, .inr ⟨g, i, ?_, ?_⟩⟩⟩
  · have hnb : (g.draw .unicode).toList.get ⟨i, hb⟩ ≠ '\n' := fun h =>
      newline_not_mem_draw .unicode g (h ▸ List.get_mem ..)
    have hna : (g.draw .ascii).toList.get ⟨i, ha⟩ ≠ '\n' := fun h =>
      newline_not_mem_draw .ascii g (h ▸ List.get_mem ..)
    exact iff_of_false hnb hna
  · exact List.getElem?_eq_getElem hb
  · exact List.getElem?_eq_getElem ha

theorem Layout.Ink.forall₂_draw (ink : Layout.Ink) :
    List.Forall₂ SameCell (ink.draw .unicode).toList (ink.draw .ascii).toList := by
  cases ink with
  | text s => exact forall₂_sameCell_refl s.toList
  | glyph g times =>
    simp only [Layout.Ink.draw, String.toList_join]
    induction times with
    | zero => exact .nil
    | succ times ih =>
      rw [List.replicate_succ, List.replicate_succ, List.flatMap_cons, List.flatMap_cons]
      exact List.rel_append g.forall₂_draw ih

-- ---------------------------------------------------------------------------
-- Printing
-- ---------------------------------------------------------------------------

theorem Text.hang_sameCell (h : List.Forall₂ SameCell first second) (indent : Nat) :
    List.Forall₂ SameCell (Text.hang indent first) (Text.hang indent second) := by
  induction h with
  | nil => exact .nil
  | @cons a b _ _ hc _ ih =>
    by_cases ha : a = '\n'
    · obtain rfl := hc.1.mp ha
      subst ha
      rw [hang_newline, hang_newline]
      exact .cons (.refl _) (List.rel_append (forall₂_sameCell_refl _) ih)
    · have hb : b ≠ '\n' := fun hb => ha (hc.1.mpr hb)
      rw [hang_cons ha, hang_cons hb]
      exact .cons hc ih

theorem Text.advance_sameCell (h : List.Forall₂ SameCell first second) (column : Int) :
    Text.advance column first = Text.advance column second := by
  induction h generalizing column with
  | nil => rfl
  | @cons a b _ _ hc _ ih =>
    by_cases ha : a = '\n'
    · obtain rfl := hc.1.mp ha
      subst ha
      exact ih 1
    · have hb : b ≠ '\n' := fun hb => ha (hc.1.mpr hb)
      rw [advance_cons ha, advance_cons hb]
      exact ih (column + 1)

/-- Fragments that differ at most in the charset that they are drawn in. Only
the rule of the footer is drawn several times. -/
structure Fragment.Redrawn (box ascii : Fragment) : Prop where
  style : box.style = ascii.style
  hanging : box.hanging = ascii.hanging
  length : box.content.length = ascii.content.length
  content : box.content = ascii.content ∨
    ∃ g times, (times = 1 ∨ g = .rule) ∧ box.content = (Layout.Ink.glyph g times).draw .unicode ∧
      ascii.content = (Layout.Ink.glyph g times).draw .ascii

theorem Fragment.Redrawn.chars (h : Redrawn box ascii) (column : Int) :
    List.Forall₂ SameCell (box.chars column) (ascii.chars column) := by
  have hc : List.Forall₂ SameCell box.content.toList ascii.content.toList := by
    rcases h.content with hc | ⟨g, times, -, hb, ha⟩
    · rw [hc]
      exact forall₂_sameCell_refl _
    · rw [hb, ha]
      exact (Layout.Ink.glyph g times).forall₂_draw
  rw [Fragment.chars, Fragment.chars, Fragment.indent, Fragment.indent, h.hanging]
  exact Text.hang_sameCell hc _

theorem Document.placeFrom_sameCell {boxes ascii : List Fragment}
    (h : List.Forall₂ Fragment.Redrawn boxes ascii) (column : Int) :
    List.Forall₂ SameCell ((placeFrom column boxes).flatMap fun (column, f) => f.chars column)
      ((placeFrom column ascii).flatMap fun (column, f) => f.chars column) := by
  induction h generalizing column with
  | nil => exact .nil
  | @cons f g _ _ hf _ ih =>
    have hchars := hf.chars column
    have hnext : f.next column = g.next column := Text.advance_sameCell hchars column
    rw [placeFrom, placeFrom, List.flatMap_cons, List.flatMap_cons, hnext]
    exact List.rel_append hchars (ih _)

-- ---------------------------------------------------------------------------
-- Layouts
-- ---------------------------------------------------------------------------

namespace Layout

/-- A piece that draws its glyph once, unless it is a rule. -/
def Piece.Single (p : Piece) : Prop := ∀ g times, p.ink = .glyph g times → times = 1 ∨ g = .rule

theorem Row.pieces_single (f : Frame) (row : Row) : ∀ p ∈ row.pieces f, p.Single := by
  intro p hp
  rcases List.mem_append.mp hp with hp | hp
  · refine forall_head (P := Piece.Single) (fun _ _ => nofun) ?_ ?_ f row p hp
    · rintro _ _ _ _ ⟨⟩
      exact .inl rfl
    · rintro _ _ _ _ ⟨⟩
      exact .inr rfl
  · obtain ⟨g, -, rfl⟩ := List.mem_map.mp hp
    exact nofun

theorem pieces_single (sources : Sources) (r : Report) : ∀ p ∈ pieces sources r, p.Single :=
  forall_pieces nofun fun row _ => row.pieces_single _

theorem Piece.redrawn {p : Piece} (h : p.Single) : (p.draw .unicode).Redrawn (p.draw .ascii) where
  style := rfl
  hanging := rfl
  length := p.length_draw .unicode .ascii
  content := by
    obtain ⟨ink, style, hanging⟩ := p
    cases ink with
    | text s => exact .inl rfl
    | glyph g times => exact .inr ⟨g, times, h g times rfl, rfl, rfl⟩

/-- The two layouts of a report have the same geometry.

Fragment by fragment they agree in style and hanging, and in content too unless
both draw one glyph, and then the contents are equally long. Printed, they
agree character by character but for the counterparts of glyphs, and have the
same line feeds. -/
theorem layout_charsets (sources : Sources) (r : Report) :
    List.Forall₂ Fragment.Redrawn (r.layout .unicode sources).fragments
        (r.layout .ascii sources).fragments ∧
      List.Forall₂ SameCell (r.layout .unicode sources).renderPlain.toList
        (r.layout .ascii sources).renderPlain.toList := by
  have hf : List.Forall₂ Fragment.Redrawn (r.layout .unicode sources).fragments
      (r.layout .ascii sources).fragments := by
    rw [Report.layout, Report.layout, List.forall₂_map_left_iff, List.forall₂_map_right_iff,
      List.forall₂_same]
    exact fun p hp => Piece.redrawn (pieces_single sources r p hp)
  refine ⟨hf, ?_⟩
  rw [Document.toList_renderPlain, Document.toList_renderPlain]
  exact Document.placeFrom_sameCell hf 1

end Layout

end SpanReport
