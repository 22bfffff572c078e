import SpanReport.Proofs.Lines
import SpanReport.Proofs.Rows

/-!
# Cells

A cell is a printed character with its column. Every row of a layout is printed
from the first column, whatever the rows before it hold, and as long as a row
neither breaks nor hangs, its characters fill one column after another.
-/

namespace SpanReport

-- ---------------------------------------------------------------------------
-- Texts
-- ---------------------------------------------------------------------------

namespace Text

/-- The characters of a text that is printed from a column on, each with the
column at which it stands. -/
def placeFrom (column : Int) : List Char → List (Int × Char)
  | [] => []
  | c :: rest => (column, c) :: placeFrom (advance column [c]) rest

theorem placeFrom_append (column : Int) (first second : List Char) :
    placeFrom column (first ++ second) =
      placeFrom column first ++ placeFrom (advance column first) second := by
  induction first generalizing column with
  | nil => rfl
  | cons c rest ih =>
    have h : advance column (c :: rest) = advance (advance column [c]) rest :=
      advance_append column [c] rest
    rw [List.cons_append, placeFrom, ih, placeFrom, h, List.cons_append]

theorem getElem?_placeFrom (h : '\n' ∉ text) (column : Int) (i : Nat) :
    (placeFrom column text)[i]? = text[i]?.map fun c => (column + i, c) := by
  induction text generalizing column i with
  | nil => rfl
  | cons c rest ih =>
    obtain ⟨hc, hr⟩ := List.ne_and_not_mem_of_not_mem_cons h
    have hn : advance column [c] = column + 1 := advance_cons (Ne.symm hc) column []
    cases i with
    | zero => simp [placeFrom]
    | succ i =>
      have hi : column + 1 + (i : Int) = column + ((i + 1 : Nat) : Int) := by omega
      rw [placeFrom, hn, List.getElem?_cons_succ, List.getElem?_cons_succ, ih hr, hi]

theorem advance_of_newline_free (h : '\n' ∉ text) (column : Int) :
    advance column text = column + text.length := by
  induction text generalizing column with
  | nil => simp
  | cons c rest ih =>
    obtain ⟨hc, hr⟩ := List.ne_and_not_mem_of_not_mem_cons h
    rw [advance_cons (Ne.symm hc), ih hr, List.length_cons]
    omega

end Text

-- ---------------------------------------------------------------------------
-- Documents
-- ---------------------------------------------------------------------------

namespace Document

/-- The characters of a document as it is printed, each with its column. -/
def cells (d : Document) : List (Int × Char) := Text.placeFrom 1 d.renderPlain.toList

def cellsFrom (column : Int) (fragments : List Fragment) : List (Int × Char) :=
  (placeFrom column fragments).flatMap fun (column, f) => Text.placeFrom column (f.chars column)

theorem cellsFrom_eq (column : Int) (fragments : List Fragment) :
    cellsFrom column fragments =
      Text.placeFrom column
        ((placeFrom column fragments).flatMap fun (column, f) => f.chars column) := by
  induction fragments generalizing column with
  | nil => rfl
  | cons f rest ih =>
    have hrest := ih (f.next column)
    rw [cellsFrom] at hrest
    rw [cellsFrom, placeFrom, List.flatMap_cons, List.flatMap_cons, hrest, Text.placeFrom_append]
    rfl

theorem cells_eq_cellsFrom (d : Document) : d.cells = cellsFrom 1 d.fragments := by
  rw [cellsFrom_eq, cells, toList_renderPlain, placed]

theorem cellsFrom_append (column : Int) (first second : List Fragment) :
    cellsFrom column (first ++ second) =
      cellsFrom column first ++ cellsFrom (columnFrom column first) second := by
  rw [cellsFrom, placeFrom_append, List.flatMap_append]
  rfl

theorem columnFrom_of_not_hanging {fragments : List Fragment}
    (h : ∀ f ∈ fragments, f.hanging = false) (column : Int) :
    columnFrom column fragments =
      Text.advance column (fragments.flatMap fun f => f.content.toList) := by
  induction fragments generalizing column with
  | nil => rfl
  | cons f rest ih =>
    obtain ⟨hf, hr⟩ := List.forall_mem_cons.mp h
    have hn : f.next column = Text.advance column f.content.toList := by
      rw [Fragment.next, Fragment.chars_not_hanging hf]
    have hcons : columnFrom column (f :: rest) = columnFrom (f.next column) rest := rfl
    rw [hcons, ih hr, List.flatMap_cons, Text.advance_append, hn]

theorem chars_of_not_hanging {fragments : List Fragment}
    (h : ∀ f ∈ fragments, f.hanging = false) (column : Int) :
    ((placeFrom column fragments).flatMap fun (column, f) => f.chars column) =
      fragments.flatMap fun f => f.content.toList := by
  induction fragments generalizing column with
  | nil => rfl
  | cons f rest ih =>
    obtain ⟨hf, hr⟩ := List.forall_mem_cons.mp h
    rw [placeFrom, List.flatMap_cons, List.flatMap_cons, ih hr,
      ← Fragment.chars_not_hanging hf column]

theorem cellsFrom_of_not_hanging {fragments : List Fragment}
    (h : ∀ f ∈ fragments, f.hanging = false) (column : Int) :
    cellsFrom column fragments =
      Text.placeFrom column (fragments.flatMap fun f => f.content.toList) := by
  rw [cellsFrom_eq, chars_of_not_hanging h]

end Document

-- ---------------------------------------------------------------------------
-- Rows
-- ---------------------------------------------------------------------------

namespace Layout

/-- The cells of a row that is printed by itself. -/
def Row.cells (charset : Charset) (f : Frame) (row : Row) : List (Int × Char) :=
  Document.cells ⟨row.fragments charset f⟩

theorem columnFrom_lineFeeds (rows : List Row) (charset : Charset) (f : Frame) :
    Document.columnFrom 1 (rows.flatMap fun row => row.fragments charset f ++ [lineFeed]) = 1 := by
  induction rows with
  | nil => rfl
  | cons row rest ih =>
    have hfeed : ∀ column, Document.columnFrom column [lineFeed] = 1 := fun _ => rfl
    rw [List.flatMap_cons, Document.columnFrom_append, Document.columnFrom_append, hfeed, ih]

/-- A row of a layout has the cells that it has by itself, after those of the
rows before it. -/
theorem layout_cells (charset : Charset) (h : rows sources r = before ++ row :: after) :
    ∃ rest, (r.layout charset sources).cells =
      Document.cells ⟨before.flatMap fun earlier =>
          earlier.fragments charset (Sheet.ofReport r).frame ++ [lineFeed]⟩ ++
        row.cells charset (Sheet.ofReport r).frame ++ rest := by
  rw [Row.cells, Document.cells_eq_cellsFrom, Document.cells_eq_cellsFrom,
    Document.cells_eq_cellsFrom, layout_fragments charset h, Document.cellsFrom_append,
    Document.cellsFrom_append, columnFrom_lineFeeds]
  exact ⟨_, rfl⟩

-- ---------------------------------------------------------------------------
-- Stretches of a row
-- ---------------------------------------------------------------------------

/-- The characters that pieces show one after another. -/
def charsOf (charset : Charset) (ps : List Piece) : List Char :=
  ps.flatMap fun p => (p.draw charset).content.toList

theorem charsOf_append (charset : Charset) (ps qs : List Piece) :
    charsOf charset (ps ++ qs) = charsOf charset ps ++ charsOf charset qs := List.flatMap_append

theorem charsOf_cons (charset : Charset) (p : Piece) (ps : List Piece) :
    charsOf charset (p :: ps) = charsOf charset [p] ++ charsOf charset ps :=
  charsOf_append charset [p] ps

theorem charsOf_text (charset : Charset) (cs : List Char) (style : Style) :
    charsOf charset [.text (String.ofList cs) style] = cs := by
  simp [charsOf, Piece.draw, Piece.text, Ink.draw]

theorem charsOf_blanks (charset : Charset) (n : Nat) :
    charsOf charset [.blanks n] = List.replicate n ' ' := charsOf_text charset _ _

theorem charsOf_glyph (charset : Charset) (g : Glyph) (style : Style) :
    charsOf charset [.glyph g style] = (g.draw charset).toList := by
  simp [charsOf, Piece.draw, Piece.glyph, Ink.draw]

/-- The characters that fragments show, each in its style. -/
def shades (fragments : List Fragment) : List (Char × Style) :=
  fragments.flatMap fun f => f.content.toList.map (·, f.style)

theorem shades_append (first second : List Fragment) :
    shades (first ++ second) = shades first ++ shades second := List.flatMap_append

theorem shades_cons (f : Fragment) (fs : List Fragment) :
    shades (f :: fs) = shades [f] ++ shades fs := shades_append [f] fs

theorem shades_singleton (f : Fragment) : shades [f] = f.content.toList.map (·, f.style) :=
  List.append_nil _

theorem map_fst_shades (fs : List Fragment) :
    (shades fs).map Prod.fst = fs.flatMap fun f => f.content.toList := by
  simp [shades, List.map_flatMap, Function.comp_def]

theorem charsOf_eq (charset : Charset) (ps : List Piece) :
    charsOf charset ps = (shades (ps.map (Piece.draw charset))).map Prod.fst := by
  rw [map_fst_shades, List.flatMap_map]
  rfl

theorem shades_blanks (charset : Charset) (n : Nat) :
    shades [(Piece.blanks n).draw charset] = List.replicate n (' ', Style.plain) := by
  simp [shades, Piece.draw, Piece.blanks, Piece.text, Ink.draw]

/-- Pieces that fill so many columns of one line. -/
structure Stretch (charset : Charset) (width : Nat) (ps : List Piece) : Prop where
  length : (charsOf charset ps).length = width
  newline_free : '\n' ∉ charsOf charset ps

variable {charset : Charset}

theorem Stretch.length_shades (h : Stretch charset n ps) :
    (shades (ps.map (Piece.draw charset))).length = n := by
  rw [← h.length, charsOf_eq, List.length_map]

theorem Stretch.nil : Stretch charset 0 [] := ⟨rfl, List.not_mem_nil⟩

theorem Stretch.append (hp : Stretch charset m ps) (hq : Stretch charset n qs) :
    Stretch charset (m + n) (ps ++ qs) where
  length := by rw [charsOf_append, List.length_append, hp.length, hq.length]
  newline_free := by
    rw [charsOf_append, List.mem_append, not_or]
    exact ⟨hp.newline_free, hq.newline_free⟩

theorem newline_not_mem_blanks (n : Nat) : '\n' ∉ List.replicate n ' ' :=
  fun h => absurd (List.eq_of_mem_replicate h) (by decide)

theorem Stretch.blanks (n : Nat) : Stretch charset n [.blanks n] where
  length := by rw [charsOf_blanks, List.length_replicate]
  newline_free := by
    rw [charsOf_blanks]
    exact newline_not_mem_blanks n

theorem Stretch.glyph (g : Glyph) (style : Style) : Stretch charset g.width [.glyph g style] where
  length := by rw [charsOf_glyph, String.length_toList, Glyph.length_draw]
  newline_free := by
    rw [charsOf_glyph]
    exact g.newline_not_mem_draw charset

theorem Stretch.rule (n : Nat) (style : Style) :
    Stretch charset n [{ ink := .glyph .rule n, style }] where
  length := by
    have hw : (Glyph.rule.draw charset).toList.length = 1 := by
      rw [String.length_toList, Glyph.length_draw]
      rfl
    simp [charsOf, Piece.draw, Ink.draw, String.toList_join, List.length_flatMap, hw]
  newline_free := by
    simpa [charsOf, Piece.draw, Ink.draw, String.toList_join] using
      fun _ => Glyph.rule.newline_not_mem_draw charset

theorem Stretch.column (h : Stretch charset n ps) (hp : ∀ p ∈ ps, p.hanging = false) :
    Document.columnFrom 1 (ps.map (Piece.draw charset)) = 1 + n := by
  have hd : ∀ fragment ∈ ps.map (Piece.draw charset), fragment.hanging = false :=
    List.forall_mem_map.mpr hp
  have hc : (ps.map (Piece.draw charset)).flatMap (fun fragment => fragment.content.toList) =
      charsOf charset ps := List.flatMap_map ..
  rw [Document.columnFrom_of_not_hanging hd, hc, Text.advance_of_newline_free h.newline_free,
    h.length]

theorem Stretch.getElem?_cells {row : Row} (h : Stretch charset n lead)
    (hrow : row.head f = lead ++ rest) (hn : '\n' ∉ charsOf charset rest)
    (hc : (charsOf charset rest)[k]? = some c) :
    (row.cells charset f)[n + k]? = some (1 + ((n + k : Nat) : Int), c) := by
  have hd : ∀ fragment ∈ (row.head f).map (Piece.draw charset), fragment.hanging = false :=
    List.forall_mem_map.mpr (row.head_hanging f)
  have hchars : ((row.head f).map (Piece.draw charset)).flatMap (fun fragment =>
      fragment.content.toList) = charsOf charset lead ++ charsOf charset rest := by
    rw [← charsOf_append, ← hrow]
    exact List.flatMap_map ..
  have hfree : '\n' ∉ charsOf charset lead ++ charsOf charset rest := by
    rw [List.mem_append, not_or]
    exact ⟨h.newline_free, hn⟩
  have hcells : (Text.placeFrom 1 (charsOf charset lead ++ charsOf charset rest))[n + k]? =
      some (1 + ((n + k : Nat) : Int), c) := by
    rw [Text.getElem?_placeFrom hfree, ← h.length, List.getElem?_append_right (Nat.le_add_right ..),
      Nat.add_sub_cancel_left, hc, Option.map_some]
  obtain ⟨hi, -⟩ := List.getElem?_eq_some_iff.mp hcells
  rw [Row.cells, Document.cells_eq_cellsFrom, Row.fragments, Row.pieces, List.map_append,
    Document.cellsFrom_append, Document.cellsFrom_of_not_hanging hd, hchars,
    List.getElem?_append_left hi]
  exact hcells

end Layout

end SpanReport
