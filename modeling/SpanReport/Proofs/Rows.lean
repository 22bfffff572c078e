import SpanReport.Layout

/-!
# What a layout is made of

The fragments of a layout are those of its rows, with a line feed before every
row but the first. A row is a head of text and glyphs, each glyph drawn once
but for the rule of the footer, and a message that hangs from where it begins.
-/

namespace SpanReport.Layout

-- ---------------------------------------------------------------------------
-- Rows in their layout
-- ---------------------------------------------------------------------------

theorem intercalate_cons (sep first : List α) (others : List (List α)) :
    List.intercalate sep (first :: others) = first ++ others.flatMap (sep ++ ·) := by
  induction others generalizing first with
  | nil => simp
  | cons second others ih =>
    rw [List.intercalate_cons_cons, ih, List.flatMap_cons, List.append_assoc, List.append_assoc]

theorem intercalate_append_cons (sep : List α) (before : List (List α)) (one : List α)
    (after : List (List α)) :
    List.intercalate sep (before ++ one :: after) =
      before.flatMap (· ++ sep) ++ one ++ after.flatMap (sep ++ ·) := by
  induction before with
  | nil => simpa using intercalate_cons sep one after
  | cons first before ih =>
    rw [List.cons_append, List.intercalate_cons_of_ne_nil (by simp), ih, List.flatMap_cons]
    simp only [List.append_assoc]

theorem map_intercalate (f : α → β) (sep : List α) (parts : List (List α)) :
    (List.intercalate sep parts).map f = List.intercalate (sep.map f) (parts.map (List.map f)) := by
  cases parts with
  | nil => rfl
  | cons first others =>
    rw [intercalate_cons, List.map_cons, intercalate_cons, List.map_append, List.map_flatMap,
      List.flatMap_map]
    simp only [List.map_append]

/-- The line feed between two rows. -/
def lineFeed : Fragment := { content := "\n" }

theorem Row.fragments_eq (charset : Charset) (f : Frame) (row : Row) : row.fragments charset f =
    (row.head f).map (Piece.draw charset) ++ (row.message f).hang.fragments := by
  have hmessage : (Piece.message (row.message f)).map (Piece.draw charset) =
      (row.message f).hang.fragments := by
    simp [Piece.message, Function.comp_def, Piece.draw_ofFragment]
  rw [fragments, pieces, List.map_append, hmessage]

theorem draw_newline (charset : Charset) : Piece.newline.draw charset = lineFeed := rfl

theorem fragments_layout (charset : Charset) (sources : Sources) (r : Report) :
    (r.layout charset sources).fragments = List.intercalate [lineFeed]
      ((rows sources r).map (Row.fragments charset (Sheet.ofReport r).frame)) := by
  rw [Report.layout, pieces, map_intercalate, List.map_map, List.map_singleton, draw_newline]
  rfl

/-- A row stands in its layout after the rows before it, each of them with its
line feed. -/
theorem layout_fragments (charset : Charset) (h : rows sources r = before ++ row :: after) :
    (r.layout charset sources).fragments =
      before.flatMap (fun earlier =>
          earlier.fragments charset (Sheet.ofReport r).frame ++ [lineFeed]) ++
        row.fragments charset (Sheet.ofReport r).frame ++
        after.flatMap (fun later =>
          lineFeed :: later.fragments charset (Sheet.ofReport r).frame) := by
  rw [fragments_layout, h, List.map_append, List.map_cons, intercalate_append_cons,
    List.flatMap_map, List.flatMap_map]
  rfl

theorem forall_pieces {P : Piece → Prop} (hn : P .newline)
    (h : ∀ row ∈ rows sources r, ∀ p ∈ row.pieces (Sheet.ofReport r).frame, P p) :
    ∀ p ∈ pieces sources r, P p := by
  intro p hp
  have hr : rows sources r = .title r.message :: (rows sources r).tail := rfl
  rw [pieces, hr, List.map_cons, intercalate_cons] at hp
  rcases List.mem_append.mp hp with hp | hp
  · exact h (.title r.message) (by rw [hr]; simp) p hp
  · obtain ⟨_, hm, hp⟩ := List.mem_flatMap.mp hp
    obtain ⟨row, hrow, rfl⟩ := List.mem_map.mp hm
    rcases List.mem_cons.mp hp with rfl | hp
    · exact hn
    · exact h row (by rw [hr]; exact List.mem_cons_of_mem _ hrow) p hp

-- ---------------------------------------------------------------------------
-- The rows of a displayed line
-- ---------------------------------------------------------------------------

namespace Sheet

variable {s : Sheet}

/-- Each label is drawn over those of the markers that come before its own. -/
theorem mem_labelRows {entries : List Entry} (h : row ∈ s.labelRows line entries) :
    ∃ later e earlier, entries = later ++ e :: earlier ∧
      row = s.labelRow line earlier.reverse e := by
  induction entries with
  | nil => cases h
  | cons e entries ih =>
    rcases List.mem_cons.mp h with rfl | h
    · exact ⟨[], e, entries, rfl, rfl⟩
    · obtain ⟨later, other, earlier, rfl, hrow⟩ := ih h
      exact ⟨e :: later, other, earlier, rfl, hrow⟩

theorem mem_lineRows (h : row ∈ s.lineRows sources line) :
    row = .source line (s.sourceBracket line) (s.excerpt sources line) ∨
      row = .underline line (s.bracket line) (s.strokes line) ∨
      ∃ earlier e later, s.inline line = earlier ++ e :: later ∧
        row = s.labelRow line earlier e := by
  rw [lineRows] at h
  rcases List.mem_cons.mp h with rfl | h
  · exact .inl rfl
  rcases List.mem_append.mp h with h | h
  · split at h
    · cases h
    · exact .inr (.inl (List.mem_singleton.mp h))
  · obtain ⟨later, e, earlier, hs, hrow⟩ := mem_labelRows h
    refine .inr (.inr ⟨earlier.reverse, e, later.reverse, ?_, hrow⟩)
    rw [← List.reverse_reverse (s.inline line), hs]
    simp

theorem line?_of_mem_lineRows (h : row ∈ s.lineRows sources line) : row.line? = some line := by
  rcases mem_lineRows h with rfl | rfl | ⟨_, _, _, -, rfl⟩ <;> rfl

/-- All trailer rows are those of markers over several lines. -/
theorem mem_trailerRows (h : row ∈ s.trailerRows) :
    ∃ e ∈ s.multiline, row = .trailerHead (s.colour e) ∨ ∃ last, row = .trailer last e := by
  rw [trailerRows] at h
  split at h
  · cases h
  · rename_i first rest hm
    rw [hm]
    simp only [List.mem_cons, List.mem_append, List.mem_map, List.mem_reverse] at h
    rcases h with (rfl | ⟨e, he, rfl⟩) | rfl | h
    · cases hl : rest.getLast? with
      | none => exact ⟨first, List.mem_cons_self, .inl rfl⟩
      | some e => exact ⟨e, List.mem_cons_of_mem _ (List.mem_of_getLast? hl), .inl rfl⟩
    · exact ⟨e, List.mem_cons_of_mem _ he, .inr ⟨false, rfl⟩⟩
    · exact ⟨first, List.mem_cons_self, .inr ⟨true, rfl⟩⟩
    · cases h

theorem line?_of_mem_trailerRows (h : row ∈ s.trailerRows) : row.line? = none := by
  obtain ⟨_, -, rfl | ⟨_, rfl⟩⟩ := mem_trailerRows h <;> rfl

end Sheet

theorem mem_hintRows (h : row ∈ hintRows r) :
    row = .gap ∨ ∃ message ∈ r.hints, row = .hint message := by
  rw [hintRows] at h
  split at h
  · cases h
  · rcases List.mem_cons.mp h with rfl | h
    · exact .inl rfl
    · obtain ⟨message, hm, rfl⟩ := List.mem_map.mp h
      exact .inr ⟨message, hm, rfl⟩

theorem line?_of_mem_hintRows (h : row ∈ hintRows r) : row.line? = none := by
  obtain rfl | ⟨_, -, rfl⟩ := mem_hintRows h <;> rfl

/-- The rows below the displayed lines. -/
def closingRows (r : Report) : List Row := (Sheet.ofReport r).trailerRows ++ hintRows r ++ [.footer]

theorem line?_of_mem_closingRows (h : row ∈ closingRows r) : row.line? = none := by
  simp only [closingRows, List.mem_append, List.mem_singleton] at h
  obtain (h | h) | rfl := h
  · exact Sheet.line?_of_mem_trailerRows h
  · exact line?_of_mem_hintRows h
  · rfl

theorem rows_eq_lines (sources : Sources) (r : Report) : rows sources r =
    [.title r.message, .pointer (headerSpan (Sheet.ofReport r).entries), .rail] ++
      (Sheet.ofReport r).lineNumbers.flatMap ((Sheet.ofReport r).lineRows sources) ++
      closingRows r := by
  simp only [rows, closingRows, List.append_assoc]

theorem mem_rows (h : row ∈ rows sources r) :
    row = .title r.message ∨ row = .pointer (headerSpan (Sheet.ofReport r).entries) ∨ row = .rail ∨
      (∃ line ∈ (Sheet.ofReport r).lineNumbers, row ∈ (Sheet.ofReport r).lineRows sources line) ∨
      row ∈ (Sheet.ofReport r).trailerRows ∨ row ∈ hintRows r ∨ row = .footer := by
  simpa [rows, or_assoc] using h

theorem infix_rows (h : line ∈ (Sheet.ofReport r).lineNumbers) :
    (Sheet.ofReport r).lineRows sources line <:+: rows sources r := by
  have hlines : (Sheet.ofReport r).lineRows sources line <:+:
      (Sheet.ofReport r).lineNumbers.flatMap ((Sheet.ofReport r).lineRows sources) :=
    List.infix_of_mem_flatten (List.mem_map_of_mem h)
  rw [rows, List.append_assoc, List.append_assoc]
  exact hlines.trans (List.infix_append ..)

/-- A row that belongs to a line is one of the rows of that line. -/
theorem mem_lineRows_of_mem_rows (h : row ∈ rows sources r) (hl : row.line? = some line) :
    line ∈ (Sheet.ofReport r).lineNumbers ∧ row ∈ (Sheet.ofReport r).lineRows sources line := by
  have hn : row.line? ≠ none := by rw [hl]; nofun
  rcases mem_rows h with rfl | rfl | rfl | ⟨other, ho, h⟩ | h | h | rfl
  · cases hl
  · cases hl
  · cases hl
  · obtain rfl : other = line := Option.some.inj ((Sheet.line?_of_mem_lineRows h).symm.trans hl)
    exact ⟨ho, h⟩
  · exact absurd (Sheet.line?_of_mem_trailerRows h) hn
  · exact absurd (line?_of_mem_hintRows h) hn
  · cases hl

-- ---------------------------------------------------------------------------
-- The pieces of a head
-- ---------------------------------------------------------------------------

section
variable {P : Piece → Prop} (ht : ∀ s style, P (.text s style)) (hg : ∀ g style, P (.glyph g style))
include ht hg

theorem Bracket.forall_pieces (b : Bracket) : ∀ p ∈ b.pieces, P p := by
  cases b <;> simp [Bracket.pieces, ht, hg]

omit hg in
theorem forall_excerptPieces (excerpt : Option (List Run)) : ∀ p ∈ excerptPieces excerpt, P p := by
  cases excerpt with
  | none => simp [excerptPieces, ht]
  | some runs =>
    intro p hp
    obtain ⟨run, -, rfl⟩ := List.mem_map.mp hp
    unfold Run.piece
    split
    · exact ht _ _
    · exact ht _ _

theorem strokePiece_of (stroke : Option Stroke) : P (strokePiece stroke) := by
  cases stroke with
  | none => exact ht _ _
  | some stroke => exact hg _ _

theorem forall_pipePieces (column stop : Nat) (pipes : List Pipe) :
    ∀ p ∈ pipePieces column stop pipes, P p := by
  induction pipes generalizing column with
  | nil => simp [pipePieces, Piece.blanks, ht]
  | cons pipe rest ih =>
    simp only [pipePieces, Piece.blanks, List.forall_mem_cons, ht, hg, true_and]
    exact ih _

theorem Row.forall_head (hr : ∀ times style, P { ink := .glyph .rule times, style }) (f : Frame)
    (row : Row) : ∀ p ∈ row.head f, P p := by
  have hblanks : P f.blankGutter := ht _ _
  have hdot : ∀ p ∈ f.dotGutter, P p := by simp [Frame.dotGutter, hblanks, hg]
  have hbar : ∀ p ∈ f.barGutter, P p := by simp [Frame.barGutter, hblanks, hg]
  have hnumber : ∀ line, ∀ p ∈ f.numberGutter line, P p := by simp [Frame.numberGutter, ht, hg]
  have hb := Bracket.forall_pieces ht hg
  cases row with
  | title _ => simp [Row.head, ht]
  | pointer span => simp [Row.head, hblanks, ht, hg]
  | rail => exact hbar
  | source line bracket excerpt =>
    simp only [Row.head, List.forall_mem_append, List.forall_mem_cons]
    exact ⟨⟨hnumber line, ht _ _, hb bracket⟩, forall_excerptPieces ht excerpt⟩
  | underline line bracket strokes =>
    simp only [Row.head, List.forall_mem_append, List.forall_mem_cons, List.forall_mem_map]
    exact ⟨⟨hdot, ht _ _, hb bracket⟩, fun stroke _ => strokePiece_of ht hg stroke⟩
  | label line bracket pipes shared entry =>
    simp only [Row.head, List.forall_mem_append, List.forall_mem_cons]
    exact ⟨⟨⟨hdot, ht _ _, hb bracket⟩, forall_pipePieces ht hg _ _ pipes⟩,
      hg _ _, hg _ _, ht _ _, List.forall_mem_nil _⟩
  | trailerHead colour =>
    simp only [Row.head, List.forall_mem_append, List.forall_mem_cons]
    exact ⟨hdot, ht _ _, hg _ _, List.forall_mem_nil _⟩
  | trailer last entry =>
    simp only [Row.head, List.forall_mem_append, List.forall_mem_cons]
    exact ⟨hdot, ht _ _, hg _ _, List.forall_mem_nil _⟩
  | gap => exact hdot
  | hint _ =>
    simp only [Row.head, List.forall_mem_append, List.forall_mem_cons]
    exact ⟨hbar, ht _ _, ht _ _, ht _ _, List.forall_mem_nil _⟩
  | footer =>
    simp only [Row.head, List.forall_mem_cons]
    exact ⟨hr _ _, hg _ _, List.forall_mem_nil _⟩

end

theorem Row.head_hanging (f : Frame) (row : Row) : ∀ p ∈ row.head f, p.hanging = false :=
  forall_head (fun _ _ => rfl) (fun _ _ => rfl) (fun _ _ => rfl) f row

theorem Piece.message_hanging (d : Document) : ∀ p ∈ Piece.message d, p.hanging = true := by
  intro p hp
  obtain ⟨g, hg, rfl⟩ := List.mem_map.mp hp
  obtain ⟨f, -, rfl⟩ := List.mem_map.mp hg
  rfl

end SpanReport.Layout
