import SpanReport.Proofs.Underlines

/-!
# Brackets of spans over several lines

The bracket stands between the gutter of a displayed line and its text.
`layout_brackets`: it branches where a marker over several lines begins or ends,
goes on as a bar inside such markers, and opens in one row of the report, where the
least of them begins. `layout_bars`: a line in which markers begin or end has its
bars in the colour of the least of those, and only a line without such markers has
them in the colour of the least marker around it.
-/

namespace SpanReport.Layout

variable {charset : Charset} {r : Report} {line : Nat}

-- ---------------------------------------------------------------------------
-- Markers over several lines
-- ---------------------------------------------------------------------------

/-- A marker over several lines that begins or ends in the line. -/
def bounds (line : Nat) (e : Entry) : Bool :=
  !e.1.isInline && (e.1.start.line == line || e.1.stop.line == line)

/-- A marker that begins before the line and ends behind it. -/
def encloses (line : Nat) (e : Entry) : Bool :=
  decide (e.1.start.line < line) && decide (line < e.1.stop.line)

/-- A marker over several lines that has a part in the line. -/
def active (line : Nat) (e : Entry) : Bool := !e.1.isInline && e.1.touches line

theorem not_inline_of_encloses (h : encloses line e) : (!e.1.isInline) = true := by
  simp only [encloses, Bool.and_eq_true, decide_eq_true_eq] at h
  simp only [Span.isInline, Bool.not_eq_true', beq_eq_false_iff_ne]
  omega

theorem active_iff : active line e ↔ bounds line e ∨ encloses line e := by
  have hle := e.1.start_line_le_stop_line
  simp only [active, bounds, encloses, Span.isInline, Span.touches, Bool.and_eq_true,
    Bool.or_eq_true, Bool.not_eq_true', beq_eq_false_iff_ne, beq_iff_eq, decide_eq_true_eq]
  omega

namespace Sheet

theorem bounding_eq (s : Sheet) (line : Nat) : s.bounding line = s.entries.filter (bounds line) := by
  rw [bounding, multiline, List.filter_filter]
  exact List.filter_congr fun e _ => Bool.and_comm _ _

theorem enclosing_eq (s : Sheet) (line : Nat) :
    s.enclosing line = s.entries.filter (encloses line) := by
  rw [enclosing, multiline, List.filter_filter]
  refine List.filter_congr fun e _ => ?_
  rw [Bool.eq_iff_iff, Bool.and_eq_true]
  exact and_iff_left_of_imp not_inline_of_encloses

theorem head?_filter (test : Entry → Bool) :
    ((ofReport r).entries.filter test).head? = some e ↔ Least r.markers.entries test e := by
  rw [List.head?_filter, least_iff]

theorem filter_eq_nil (test : Entry → Bool) :
    (ofReport r).entries.filter test = [] ↔ ∀ e ∈ r.markers.entries, ¬test e := by
  simp only [List.filter_eq_nil_iff, mem_ofReport_entries]

end Sheet

/-- The marker that gives the bracket of a line its colour: the least one that
begins or ends there, and without such a marker the least one around the line. -/
inductive Draws (r : Report) (line : Nat) (e : Entry) : Prop
  | bounding (h : Least r.markers.entries (bounds line) e)
  | enclosing (hnone : ∀ other ∈ r.markers.entries, ¬bounds line other)
      (h : Least r.markers.entries (encloses line) e)

/-- A marker that begins or ends in the line stands before all that go through it. -/
theorem draws_iff : ((Sheet.ofReport r).bounding line ++ (Sheet.ofReport r).enclosing line).head? =
    some e ↔ Draws r line e := by
  rw [List.head?_append, Option.or_eq_some_iff, List.head?_eq_none_iff, Sheet.bounding_eq,
    Sheet.enclosing_eq, Sheet.head?_filter, Sheet.head?_filter, Sheet.filter_eq_nil]
  constructor
  · rintro (h | ⟨hnone, h⟩)
    · exact .bounding h
    · exact .enclosing hnone h
  · rintro (h | ⟨hnone, h⟩)
    · exact .inl h
    · exact .inr ⟨hnone, h⟩

theorem exists_draws (h : ∃ e ∈ r.markers.entries, active line e) : ∃ owner, Draws r line owner := by
  obtain ⟨e, he, hactive⟩ := h
  obtain ⟨owner, howner⟩ | hnone := least_or_none r (bounds line)
  · exact ⟨owner, .bounding howner⟩
  · obtain ⟨owner, howner⟩ :=
      exists_least ⟨e, he, (active_iff.mp hactive).resolve_left (hnone e he)⟩
    exact ⟨owner, .enclosing hnone howner⟩

/-- The first marker that is active in a line draws its bars just if it begins or ends
there itself, or no other one does. -/
theorem draws_iff_bounds (hf : Least r.markers.entries (active line) first)
    (ho : Draws r line owner) :
    owner = first ↔ bounds line first ∨ ∀ e ∈ r.markers.entries, ¬bounds line e := by
  have hbounds (e : Entry) (h : bounds line e) : active line e := active_iff.mpr (.inl h)
  have hencloses (e : Entry) (h : encloses line e) : active line e := active_iff.mpr (.inr h)
  cases ho with
  | bounding h =>
    have hsome : ¬∀ e ∈ r.markers.entries, ¬bounds line e := fun hnone => hnone _ h.mem h.passes
    rw [or_iff_left hsome]
    constructor
    · rintro rfl
      exact h.passes
    · exact fun hb => h.unique (hf.imp hb hbounds)
  | enclosing hnone h =>
    refine iff_of_true ?_ (.inr hnone)
    have hb := (active_iff.mp hf.passes).resolve_left (hnone _ hf.mem)
    exact h.unique (hf.imp hb hencloses)

-- ---------------------------------------------------------------------------
-- What is shown
-- ---------------------------------------------------------------------------

/-- What a row shows between its gutter and what stands under the source text. -/
def Row.bracketArea (charset : Charset) (s : Sheet) (row : Row) : List (Char × Style) :=
  ((shades (row.fragments charset s.frame)).take s.margin).drop (s.gutter + 4)

/-- The columns of a bracket that goes on. -/
def barCells (charset : Charset) (colour : String) : List (Char × Style) :=
  [(Glyph.bar.char charset, inked colour), (' ', Style.plain), (' ', Style.plain)]

/-- The columns of a bracket beside a line in which a marker begins or ends. -/
def branchCells (charset : Charset) (g : Glyph) (colour : String) : List (Char × Style) :=
  [(g.char charset, inked colour), (Glyph.spanTee.char charset, inked colour), (' ', Style.plain)]

def Bracket.cells (charset : Charset) : Bracket → List (Char × Style)
  | .absent => []
  | .blank => List.replicate 3 (' ', Style.plain)
  | .through colour => barCells charset colour
  | .branch opens colour =>
    branchCells charset (if opens then .spanStart else .spanBranch) colour

theorem Bracket.shades_pieces (charset : Charset) (b : Bracket) :
    shades (b.pieces.map (Piece.draw charset)) = b.cells charset := by
  have htee : Glyph.spanTee.width = 1 := rfl
  cases b with
  | absent => rfl
  | blank => exact shades_blanks charset 3
  | through colour =>
    rw [pieces, List.map_cons, List.map_singleton, shades_cons, shades_glyph charset rfl]
    exact congrArg _ (shades_blanks charset 2)
  | branch opens colour =>
    have hwidth : (if opens then Glyph.spanStart else .spanBranch).width = 1 := by
      cases opens <;> rfl
    rw [pieces, List.map_cons, List.map_cons, List.map_singleton, shades_cons,
      shades_glyph charset hwidth, shades_cons, shades_glyph charset htee]
    exact congrArg (_ :: _ :: ·) (shades_blanks charset 1)

/-- Gutter, blank and bracket make up the margin of a row. -/
theorem Row.bracketArea_eq {s : Sheet} {row : Row} {bracket : Bracket} {gs rest : List Piece}
    (h : row.head s.frame = (gs ++ .text " " :: bracket.pieces) ++ rest)
    (hg : Stretch charset (s.gutter + 3) gs) (hb : Stretch charset s.shift bracket.pieces) :
    row.bracketArea charset s = bracket.cells charset := by
  have hblank : Stretch charset 1 [.text " "] := .blanks 1
  have hlead : (shades ((gs ++ [Piece.text " "]).map (Piece.draw charset))).length = s.gutter + 4 :=
    (hg.append hblank).length_shades
  have hbracket : (bracket.cells charset).length = s.shift := by
    rw [← bracket.shades_pieces, hb.length_shades]
  have hhead : row.head s.frame = (gs ++ [.text " "]) ++ (bracket.pieces ++ rest) := by
    rw [h, List.append_cons, List.append_assoc, List.append_assoc]
  have hrow : shades (row.fragments charset s.frame) =
      (shades ((gs ++ [Piece.text " "]).map (Piece.draw charset)) ++ bracket.cells charset) ++
        shades (rest.map (Piece.draw charset) ++ (row.message s.frame).hang.fragments) := by
    rw [Row.fragments_eq, hhead, ← bracket.shades_pieces]
    simp only [List.map_append, shades_append, List.append_assoc]
  rw [Row.bracketArea, hrow, List.take_left' (by rw [List.length_append, hlead, hbracket]; rfl),
    List.drop_left' hlead]

namespace Sheet

theorem bracketArea_source (h : line ∈ s.lineNumbers) (excerpt : Option (List Run)) :
    (Row.source line (s.sourceBracket line) excerpt).bracketArea charset s =
      (s.sourceBracket line).cells charset :=
  Row.bracketArea_eq rfl (Frame.numberGutter_stretch (f := s.frame) (length_repr_le_gutter h))
    (bracket_stretch (s.sourceBracket_eq_absent line))

theorem bracketArea_underline (charset : Charset) (s : Sheet) (line : Nat)
    (strokes : List (Option Stroke)) :
    (Row.underline line (s.bracket line) strokes).bracketArea charset s =
      (s.bracket line).cells charset :=
  Row.bracketArea_eq rfl s.frame.dotGutter_stretch (bracket_stretch (s.bracket_eq_absent line))

theorem bracketArea_labelRow (charset : Charset) (s : Sheet) (line : Nat) (earlier : List Entry)
    (e : Entry) : (s.labelRow line earlier e).bracketArea charset s =
      (s.bracket line).cells charset :=
  Row.bracketArea_eq (List.append_assoc _ _ _) s.frame.dotGutter_stretch
    (bracket_stretch (s.bracket_eq_absent line))

end Sheet

-- ---------------------------------------------------------------------------
-- Brackets of a line
-- ---------------------------------------------------------------------------

namespace Sheet

theorem bracket_of_draws (h : Draws r line e) :
    (ofReport r).bracket line = .through (e.2.colour r.severity) := by
  have hcolour : (ofReport r).barColour? line = some (e.2.colour r.severity) := by
    rw [barColour?, draws_iff.mpr h]
    rfl
  rw [bracket, hcolour]

theorem bracket_of_inactive (h : ∀ e ∈ r.markers.entries, ¬active line e) :
    (ofReport r).bracket line = if (ofReport r).multiline.isEmpty then .absent else .blank := by
  have hbounding : (ofReport r).bounding line = [] := by
    rw [bounding_eq, filter_eq_nil]
    exact fun e he hb => h e he (active_iff.mpr (.inl hb))
  have henclosing : (ofReport r).enclosing line = [] := by
    rw [enclosing_eq, filter_eq_nil]
    exact fun e he hb => h e he (active_iff.mpr (.inr hb))
  rw [bracket, barColour?, hbounding, henclosing]
  rfl

theorem sourceBracket_of_none (h : ∀ e ∈ r.markers.entries, ¬bounds line e) :
    (ofReport r).sourceBracket line = (ofReport r).bracket line := by
  have hnone := (filter_eq_nil (bounds line)).mpr h
  rw [← bounding_eq] at hnone
  rw [sourceBracket, hnone]

/-- The least marker over several lines is the least one of the lines in which it
begins and ends. -/
theorem sourceBracket_of_bounds (hf : Least r.markers.entries (!·.1.isInline) first)
    (h : Least r.markers.entries (bounds line) e) : (ofReport r).sourceBracket line =
      .branch (decide (line = first.1.start.line)) (e.2.colour r.severity) := by
  have hhead : ((ofReport r).bounding line).head? = some e := by
    rw [bounding_eq, head?_filter]
    exact h
  have hfirst : (ofReport r).multiline.head? = some first := (head?_filter _).mpr hf
  obtain ⟨rest, hrest⟩ := List.head?_eq_some_iff.mp hhead
  have hlines (e : Entry) : bounds line e ↔ e.1.start.line ≠ e.1.stop.line ∧
      (e.1.start.line = line ∨ e.1.stop.line = line) := by
    simp [bounds, Span.isInline]
  have hopens : (e.1.stop.line != line && (ofReport r).multiline.head?.map Prod.fst == some e.1) =
      decide (line = first.1.start.line) := by
    rw [hfirst, Bool.eq_iff_iff]
    simp only [Option.map_some, Bool.and_eq_true, bne_iff_ne, beq_iff_eq, Option.some_inj,
      decide_eq_true_eq]
    constructor
    · rintro ⟨hstop, heq⟩
      rw [heq]
      exact (((hlines e).mp h.passes).2.resolve_right hstop).symm
    · rintro rfl
      have hne : first.1.start.line ≠ first.1.stop.line := by simpa [Span.isInline] using hf.passes
      have hleast := hf.imp ((hlines first).mpr ⟨hne, .inl rfl⟩) fun other ho =>
        (Bool.and_eq_true_iff.mp ho).1
      rw [hleast.unique h] at hne ⊢
      exact ⟨hne.symm, rfl⟩
  rw [sourceBracket, hrest]
  simp only [hopens]
  rfl

end Sheet

/-- What stands between the gutter and the text of a displayed line. -/
inductive Bracketed (charset : Charset) (r : Report) (line : Nat) : List (Char × Style) → Prop
  | branch (hf : Least r.markers.entries (!·.1.isInline) first)
      (h : Least r.markers.entries (bounds line) e) :
      Bracketed charset r line (branchCells charset
        (if line = first.1.start.line then .spanStart else .spanBranch) (e.2.colour r.severity))
  | bar (hnone : ∀ e ∈ r.markers.entries, ¬bounds line e)
      (h : Least r.markers.entries (encloses line) e) :
      Bracketed charset r line (barCells charset (e.2.colour r.severity))
  | blank (hnone : ∀ e ∈ r.markers.entries, ¬active line e)
      (h : ∃ e ∈ r.markers.entries, e.1.isInline = false) :
      Bracketed charset r line (List.replicate 3 (' ', Style.plain))
  | absent (h : ∀ e ∈ r.markers.entries, e.1.isInline) : Bracketed charset r line []

theorem bracketed_sourceBracket (charset : Charset) (r : Report) (line : Nat) :
    Bracketed charset r line (((Sheet.ofReport r).sourceBracket line).cells charset) := by
  obtain ⟨e, he⟩ | hnone := least_or_none r (bounds line)
  · have hlines : ∃ e ∈ r.markers.entries, (!e.1.isInline) :=
      ⟨e, he.mem, (Bool.and_eq_true_iff.mp he.passes).1⟩
    obtain ⟨first, hf⟩ := exists_least hlines
    have hcells : ((Sheet.ofReport r).sourceBracket line).cells charset = branchCells charset
        (if line = first.1.start.line then .spanStart else .spanBranch)
        (e.2.colour r.severity) := by
      rw [Sheet.sourceBracket_of_bounds hf he, Bracket.cells]
      simp only [decide_eq_true_eq]
    rw [hcells]
    exact .branch hf he
  · rw [Sheet.sourceBracket_of_none hnone]
    obtain ⟨owner, howner⟩ | hout := least_or_none r (encloses line)
    · rw [Sheet.bracket_of_draws (.enclosing hnone howner)]
      exact .bar hnone howner
    · have hinactive : ∀ e ∈ r.markers.entries, ¬active line e :=
        fun e he h => (active_iff.mp h).elim (hnone e he) (hout e he)
      rw [Sheet.bracket_of_inactive hinactive]
      split
      · rename_i hempty
        refine .absent fun e he => ?_
        have hinline := (Sheet.filter_eq_nil _).mp (List.isEmpty_iff.mp hempty) e he
        simpa using hinline
      · rename_i hlines
        refine .blank hinactive ?_
        obtain ⟨e, he⟩ := List.exists_mem_of_ne_nil _ (mt List.isEmpty_iff.mpr hlines)
        obtain ⟨he, hinline⟩ := Sheet.mem_multiline.mp he
        exact ⟨e, Sheet.mem_ofReport_entries.mp he, hinline⟩

-- ---------------------------------------------------------------------------
-- Layouts
-- ---------------------------------------------------------------------------

/-- The row shows the text of a line and opens the bracket. -/
def Row.opens (charset : Charset) (s : Sheet) (row : Row) : Bool :=
  row.part?.map Prod.snd == some .text &&
    (row.bracketArea charset s).head?.map Prod.fst == some (Glyph.spanStart.char charset)

theorem opens_iff (hb : Bracketed charset r line cells)
    (hf : Least r.markers.entries (!·.1.isInline) first) :
    cells.head?.map Prod.fst = some (Glyph.spanStart.char charset) ↔ line = first.1.start.line := by
  have hbranch : Glyph.spanBranch.char charset ≠ Glyph.spanStart.char charset := by
    cases charset <;> decide
  have hbar : Glyph.bar.char charset ≠ Glyph.spanStart.char charset := by
    cases charset <;> decide
  have hblank : ' ' ≠ Glyph.spanStart.char charset := by
    cases charset <;> decide
  have hmine (h : line = first.1.start.line) : bounds line first := by
    simpa [bounds, h] using hf.passes
  cases hb with
  | branch hf' h =>
    rw [hf'.unique hf]
    by_cases hl : line = first.1.start.line
    · simp [hl, branchCells]
    · simp [hl, branchCells, hbranch]
  | bar hnone h =>
    refine iff_of_false (fun hc => hbar (Option.some_inj.mp hc)) fun hl => ?_
    exact hnone first hf.mem (hmine hl)
  | blank hnone _ =>
    refine iff_of_false (fun hc => hblank (Option.some_inj.mp hc)) fun hl => ?_
    exact hnone first hf.mem (active_iff.mpr (.inl (hmine hl)))
  | absent h =>
    exact absurd (h first hf.mem) (by simpa using hf.passes)

theorem source_of_part? (h : row ∈ rows sources r) (hp : row.part? = some (line, .text)) :
    line ∈ (Sheet.ofReport r).lineNumbers ∧ row = .source line ((Sheet.ofReport r).sourceBracket line)
      ((Sheet.ofReport r).excerpt sources line) := by
  have hline := (mem_lineRows_of_mem_rows h (line?_of_part? hp)).1
  have hmem : row ∈ partRows sources r line .text := List.mem_filter.mpr ⟨h, beq_iff_eq.mpr hp⟩
  rw [partRows_text hline] at hmem
  exact ⟨hline, List.mem_singleton.mp hmem⟩

/-- One row opens the bracket, that of the line in which the least marker over
several lines begins. -/
theorem filter_opens (charset : Charset) (sources : Sources)
    (hf : Least r.markers.entries (!·.1.isInline) first) :
    (rows sources r).filter (Row.opens charset (Sheet.ofReport r)) =
      partRows sources r first.1.start.line .text := by
  refine List.filter_congr fun row hrow => ?_
  rw [Bool.eq_iff_iff, Row.opens, Bool.and_eq_true, beq_iff_eq, beq_iff_eq, beq_iff_eq]
  constructor
  · rintro ⟨htext, hopens⟩
    obtain ⟨⟨line, part⟩, hp, rfl⟩ := Option.map_eq_some_iff.mp htext
    obtain ⟨hline, rfl⟩ := source_of_part? hrow hp
    rw [Sheet.bracketArea_source hline] at hopens
    rw [hp, (opens_iff (bracketed_sourceBracket charset r line) hf).mp hopens]
  · intro hp
    obtain ⟨hline, rfl⟩ := source_of_part? hrow hp
    rw [Sheet.bracketArea_source hline]
    exact ⟨rfl, (opens_iff (bracketed_sourceBracket charset r _) hf).mpr rfl⟩

/-- A row of a displayed line is its gutter, a blank, a bracket and its cells. -/
theorem Sheet.head_lineRows {s : Sheet} (h : row ∈ s.lineRows sources line) :
    ∃ bracket : Bracket, (bracket = .absent ↔ s.multiline = []) ∧ row.head s.frame =
      row.lineGutter s.frame ++ .text " " :: (bracket.pieces ++ row.lineCells s.frame) := by
  obtain rfl | rfl | ⟨earlier, e, later, -, rfl⟩ := mem_lineRows h
  · exact ⟨s.sourceBracket line, s.sourceBracket_eq_absent line, List.append_assoc ..⟩
  · exact ⟨s.bracket line, s.bracket_eq_absent line, List.append_assoc ..⟩
  · refine ⟨s.bracket line, s.bracket_eq_absent line, ?_⟩
    simp only [labelRow, Row.head, Row.lineGutter, Row.lineCells, List.append_assoc, List.cons_append]

theorem fragments_of_inline (hinline : (Sheet.ofReport r).multiline = [])
    (hrow : row ∈ rows sources r) (hline : row.line? = some line) (charset : Charset) :
    row.fragments charset (Sheet.ofReport r).frame =
      (row.lineGutter (Sheet.ofReport r).frame ++
        .text " " :: row.lineCells (Sheet.ofReport r).frame).map (Piece.draw charset) ++
      (row.message (Sheet.ofReport r).frame).hang.fragments := by
  obtain ⟨bracket, habsent, hhead⟩ :=
    Sheet.head_lineRows (mem_lineRows_of_mem_rows hrow hline).2
  rw [Row.fragments_eq, hhead, habsent.mpr hinline]
  rfl

/-- Each displayed line has one row with its text, and the bracket stands between the
gutter and the text. If markers go over several lines, one row of the report opens
the bracket: that of the line in which the least of them begins. If none does, every
row of a displayed line goes on with its cells right behind the blank of the gutter. -/
theorem layout_brackets (charset : Charset) (sources : Sources) (r : Report) :
    (∀ line ∈ textLines (rows sources r), ∃ row, partRows sources r line .text = [row] ∧
      Bracketed charset r line (row.bracketArea charset (Sheet.ofReport r)) ∧
      row.area charset (Sheet.ofReport r) = shades ((excerptPieces
        ((Sheet.ofReport r).excerpt sources line)).map (Piece.draw charset))) ∧
    ((∀ e ∈ r.markers.entries, e.1.isInline) ∧
        (∀ row ∈ rows sources r, ∀ line, row.line? = some line →
          row.fragments charset (Sheet.ofReport r).frame =
            (row.lineGutter (Sheet.ofReport r).frame ++
              .text " " :: row.lineCells (Sheet.ofReport r).frame).map (Piece.draw charset) ++
            (row.message (Sheet.ofReport r).frame).hang.fragments) ∨
      ∃ first row, Least r.markers.entries (!·.1.isInline) first ∧
        partRows sources r first.1.start.line .text = [row] ∧
        (rows sources r).filter (Row.opens charset (Sheet.ofReport r)) = [row]) := by
  have hrow {line : Nat} (hline : line ∈ (Sheet.ofReport r).lineNumbers) :=
    partRows_text hline sources
  constructor
  · intro line hline
    rw [textLines_rows] at hline
    refine ⟨_, hrow hline, ?_, ?_⟩
    · rw [Sheet.bracketArea_source hline]
      exact bracketed_sourceBracket charset r line
    · exact (Row.area_eq rfl (Sheet.numberMargin_stretch hline)).trans (List.append_nil _)
  · obtain ⟨first, hf⟩ | hnone := least_or_none r (!·.1.isInline)
    · have hline := Sheet.start_mem_lineNumbers (Sheet.mem_ofReport_entries.mpr hf.mem)
      refine .inr ⟨first, _, hf, hrow hline, ?_⟩
      rw [filter_opens charset sources hf, hrow hline]
    · have hinline : ∀ e ∈ r.markers.entries, e.1.isInline := by simpa using hnone
      have hmultiline : (Sheet.ofReport r).multiline = [] := (Sheet.filter_eq_nil _).mpr hnone
      exact .inl ⟨hinline, fun row hrow line hline =>
        fragments_of_inline hmultiline hrow hline charset⟩

/-- In a line in which a marker over several lines is active, one of these draws all
the bars: the least that begins or ends there, or else the least of them. That is the
first active one unless it goes through the line and another one begins or ends
there. -/
theorem layout_bars (h : ∃ e ∈ r.markers.entries, active line e) (charset : Charset)
    (sources : Sources) :
    ∃ first owner, Least r.markers.entries (active line) first ∧ Draws r line owner ∧
      (∀ row ∈ rows sources r, row.line? = some line →
        row.bracketArea charset (Sheet.ofReport r) =
            barCells charset (owner.2.colour r.severity) ∨
          row.part? = some (line, .text) ∧ (∃ e ∈ r.markers.entries, bounds line e) ∧
            ∃ g, row.bracketArea charset (Sheet.ofReport r) =
              branchCells charset g (owner.2.colour r.severity)) ∧
      (owner = first ↔ bounds line first ∨ ∀ e ∈ r.markers.entries, ¬bounds line e) := by
  obtain ⟨first, hfirst⟩ := exists_least h
  obtain ⟨owner, howner⟩ := exists_draws h
  refine ⟨first, owner, hfirst, howner, fun row hrow hl => ?_, draws_iff_bounds hfirst howner⟩
  have hbar : ((Sheet.ofReport r).bracket line).cells charset =
      barCells charset (owner.2.colour r.severity) := by
    rw [Sheet.bracket_of_draws howner]
    rfl
  obtain ⟨hline, hmem⟩ := mem_lineRows_of_mem_rows hrow hl
  obtain rfl | rfl | ⟨earlier, e, -, -, rfl⟩ := Sheet.mem_lineRows hmem
  · rw [Sheet.bracketArea_source hline]
    cases howner with
    | bounding hb =>
      have hmultiline : ∃ e ∈ r.markers.entries, (!e.1.isInline) :=
        ⟨owner, hb.mem, (Bool.and_eq_true_iff.mp hb.passes).1⟩
      obtain ⟨least, hleast⟩ := exists_least hmultiline
      rw [Sheet.sourceBracket_of_bounds hleast hb]
      exact .inr ⟨rfl, ⟨owner, hb.mem, hb.passes⟩, _, rfl⟩
    | enclosing hnone _ =>
      rw [Sheet.sourceBracket_of_none hnone]
      exact .inl hbar
  · exact .inl ((Sheet.bracketArea_underline charset _ line _).trans hbar)
  · exact .inl ((Sheet.bracketArea_labelRow charset _ line earlier e).trans hbar)

/-- The second line, with a span that goes through it, one that begins there, and one
that lies on it alone. -/
def throughSecond : Span :=
  ⟨"a.txt", ⟨1, 1⟩, ⟨3, 2⟩, firstLetter.one_le_line, firstLetter.one_le_column,
    .inl (by decide)⟩

def fromSecond : Span :=
  ⟨"a.txt", ⟨2, 1⟩, ⟨4, 2⟩, Nat.le_succ 1, firstLetter.one_le_column, .inl (by decide)⟩

def inSecond : Span :=
  ⟨"a.txt", ⟨2, 2⟩, ⟨2, 3⟩, by decide, by decide, by decide⟩

def crossing : Report :=
  { severity := .error, message := .ofText "crossing",
    markers := .ofList [(throughSecond, ⟨.context, .ofText "outer"⟩),
      (fromSecond, ⟨.suggestion, .ofText "other"⟩), (inSecond, ⟨.primary, .ofText "here"⟩)] }

theorem sheet_crossing : Sheet.ofReport crossing = ⟨.error, crossing.markers.entries⟩ := by
  refine congrArg _ (sortEntries_of_pairwise ?_)
  decide

theorem least_crossing {test : Entry → Bool} (h : crossing.markers.entries.find? test = some e) :
    Least crossing.markers.entries test e := by
  rw [← least_iff, sheet_crossing]
  exact h

theorem layout_bars_crossing : (∃ e ∈ crossing.markers.entries, active 2 e) ∧
    ∃ first owner, Least crossing.markers.entries (active 2) first ∧ Draws crossing 2 owner ∧
      owner ≠ first := by
  have h : ∃ e ∈ crossing.markers.entries, active 2 e := by decide
  obtain ⟨first, owner, hfirst, howner, -, heq⟩ := layout_bars h .ascii []
  obtain ⟨e, he, hbounds⟩ : ∃ e, crossing.markers.entries.find? (active 2) = some e ∧
      ¬bounds 2 e := ⟨_, rfl, by decide⟩
  refine ⟨h, first, owner, hfirst, howner, fun hsame => ?_⟩
  rcases heq.mp hsame with hb | hnone
  · rw [hfirst.unique (least_crossing he)] at hb
    exact hbounds hb
  · exact absurd hnone (by decide)

/-- The bar is not in the colour of the first marker that is active in the line. -/
theorem layout_crossing_bars : ∃ first row, Least crossing.markers.entries (active 2) first ∧
    partRows [("a.txt", ["one", "two", "three", "four"])] crossing 2 .underline = [row] ∧
    row.bracketArea .ascii (Sheet.ofReport crossing) = barCells .ascii "magenta" ∧
    first.2.colour crossing.severity = "blue" := by
  have hinline : (Sheet.ofReport crossing).inline 2 ≠ [] := by
    rw [sheet_crossing]
    decide
  have hbracket : (Sheet.ofReport crossing).bracket 2 = .through "magenta" := by
    rw [sheet_crossing]
    decide
  refine ⟨_, _, least_crossing rfl, by rw [partRows_underline, if_neg hinline], ?_, rfl⟩
  rw [Sheet.bracketArea_underline, hbracket]
  rfl

end SpanReport.Layout
