import SpanReport.Proofs.Underlines

/-!
# Labels

The label of a marker hangs at the column at which the marker begins, below the
labels of all greater markers of its line. `layout_labels`: in each row the
columns of the markers still to come are kept open by pipes, so from every label
one gets up to the caret of its marker through pipes and branches only, all pipes
in the colour of the caret.
-/

namespace SpanReport.Layout

variable {charset : Charset} {r : Report} {line column : Nat} {ms earlier later : List Entry}
  {e : Entry}

-- ---------------------------------------------------------------------------
-- Markers before a marker
-- ---------------------------------------------------------------------------

/-- The markers before a marker of a line begin no further to the right, and those
behind it no further to the left. -/
theorem OnLine.columns_around (h : OnLine r line (earlier ++ e :: later)) :
    (∀ other ∈ earlier, other.1.start.column ≤ e.1.start.column) ∧
      ∀ other ∈ e :: later, e.1.start.column ≤ other.1.start.column := by
  have hasc := h.ascending
  rw [List.pairwise_append, List.pairwise_cons] at hasc
  obtain ⟨-, ⟨hlater, -⟩, hearlier⟩ := hasc
  have he : e ∈ earlier ++ e :: later := List.mem_append_cons_self
  constructor
  · intro other ho
    have hle := (hearlier other ho e List.mem_cons_self).le
    exact (h.columns_le (List.mem_append_left _ ho) he hle).1
  · refine List.forall_mem_cons.mpr ⟨Nat.le_refl _, fun other ho => ?_⟩
    have hmem := List.mem_append_right earlier (List.mem_cons_of_mem e ho)
    exact (h.columns_le he hmem (hlater other ho).le).1

theorem OnLine.filter_column (h : OnLine r line (earlier ++ e :: later))
    (hlt : column < e.1.start.column) :
    (earlier ++ e :: later).filter (·.1.start.column == column) =
      earlier.filter (·.1.start.column == column) := by
  have hnone : (e :: later).filter (·.1.start.column == column) = [] := by
    rw [List.filter_eq_nil_iff]
    intro other ho hc
    have hle := h.columns_around.2 other ho
    have hc := beq_iff_eq.mp hc
    omega
  rw [List.filter_append, hnone, List.append_nil]

theorem OnLine.eq_of_rank (h : OnLine r line ms) (ha : a ∈ ms) (hb : b ∈ ms)
    (hr : a.1.rank = b.1.rank) : a = b := by
  have hnodup : (ms.map (·.1.rank)).Nodup := List.pairwise_map.mpr (h.ascending.imp ne_of_lt)
  exact List.inj_on_of_nodup_map hnodup ha hb hr

/-- The greatest marker over the column at which a marker begins is the greatest
one to begin there. -/
theorem OnLine.greatest_eq (h : OnLine r line ms) (hb : Begun ms column)
    (ho : Greatest ms (·.1.start.column == column) a) (hg : Greatest ms (·.1.covers line column) b) :
    a = b := by
  have hbstart := (h.begun_iff hg).mp hb
  have hastart : a.1.start.column = column := beq_iff_eq.mp ho.passes
  have hba : b.1.rank ≤ a.1.rank := ho.le b hg.mem (beq_iff_eq.mpr hbstart)
  have hcovers : a.1.covers line column := by
    obtain ⟨m, hm, hstart, hstop⟩ := hb
    have hma := (h.columns_le hm ho.mem (ho.le m hm (beq_iff_eq.mpr hstart))).2
      (hstart.trans hastart.symm)
    exact (h.covers_iff ho.mem).mpr ⟨hastart.le, by omega⟩
  exact h.eq_of_rank ho.mem hg.mem (le_antisymm (hg.le a ho.mem hcovers) hba)

-- ---------------------------------------------------------------------------
-- What is shown
-- ---------------------------------------------------------------------------

/-- A column left of the branch of a label. -/
inductive Hung (charset : Charset) (severity : Severity) (ms earlier : List Entry) (column : Nat) :
    Char × Style → Prop
  | pipe (h : ∃ other ∈ earlier, other.1.start.column = column)
      (ho : Greatest ms (·.1.start.column == column) owner) :
      Hung charset severity ms earlier column
        (Glyph.bar.char charset, inked (owner.2.colour severity))
  | blank (h : ∀ other ∈ earlier, other.1.start.column ≠ column) :
      Hung charset severity ms earlier column (' ', Style.plain)

/-- The branch of a label goes on if another label hangs at its column. -/
def labelGlyph (earlier : List Entry) (e : Entry) : Glyph :=
  if ∃ other ∈ earlier, other.1.start.column = e.1.start.column then .labelBranch else .labelLast

/-- The message of a marker as a label shows it. -/
def labelMessage (severity : Severity) (e : Entry) : Document :=
  (e.2.message.restyle (inked (e.2.colour severity))).hang

/-- The row of a label, given the markers of its line and those before its own. -/
structure IsLabel (charset : Charset) (r : Report) (ms earlier : List Entry) (e : Entry)
    (row : Row) : Prop where
  area : ∃ hung, List.Forall₂ (Hung charset r.severity ms earlier)
      (List.range' 1 (e.1.start.column - 1)) hung ∧
    row.area charset (Sheet.ofReport r) = hung ++
      [((labelGlyph earlier e).char charset, inked (e.2.colour r.severity)),
       (Glyph.labelPoint.char charset, inked (e.2.colour r.severity)), (' ', Style.plain)] ++
      shades (labelMessage r.severity e).fragments
  message : (labelMessage r.severity e).fragments <:+
    row.fragments charset (Sheet.ofReport r).frame

theorem hung_pipeShade (hs : (Sheet.ofReport r).inline line = earlier ++ e :: later)
    (hlt : column < e.1.start.column) :
    Hung charset r.severity ((Sheet.ofReport r).inline line) earlier column
      (pipeShade charset ((Sheet.ofReport r).pipesBefore earlier e.1.start.column) column) := by
  have hcolumns := (Sheet.ofReport_ordered r).inline_columns line
  rw [hs] at hcolumns
  rw [pipeShade]
  cases hf : ((Sheet.ofReport r).pipesBefore earlier e.1.start.column).find?
      (·.column == column) with
  | none =>
    refine .blank fun other ho hc => ?_
    obtain ⟨pipe, hpipe, hpc⟩ := Sheet.mem_pipesBefore.mpr ⟨hlt, other, ho, hc⟩
    exact List.find?_eq_none.mp hf pipe hpipe (beq_iff_eq.mpr hpc)
  | some pipe =>
    have hpc : pipe.column = column := by simpa using List.find?_some hf
    obtain ⟨owner, hl, hcolour⟩ := Sheet.owner_of_mem_pipesBefore
      (List.pairwise_append.mp hcolumns).1 (List.mem_of_find?_eq_some hf)
    rw [hpc] at hl
    obtain ⟨howner, hc⟩ := List.mem_filter.mp (List.mem_of_getLast? hl)
    -- No marker from here on begins in that column, so the last one of those
    -- before is the greatest one of the line.
    have hfilter := (hs ▸ onLine_inline r line).filter_column hlt
    rw [← hs] at hfilter
    have hg := (getLast?_filter_eq_some_iff ((Sheet.ofReport_ordered r).inline line) _).mp
      (hfilter ▸ hl)
    show Hung _ _ _ _ _ (Glyph.bar.char charset, inked pipe.colour)
    rw [← hcolour]
    exact .pipe ⟨owner, howner, beq_iff_eq.mp hc⟩ hg

theorem area_labelRow (charset : Charset) (s : Sheet) (line : Nat) (earlier : List Entry)
    (e : Entry) : (s.labelRow line earlier e).area charset s =
      shades ((pipePieces 1 e.1.start.column (s.pipesBefore earlier e.1.start.column)).map
        (Piece.draw charset)) ++
      [((labelGlyph earlier e).char charset, inked (s.colour e)),
       (Glyph.labelPoint.char charset, inked (s.colour e)), (' ', Style.plain)] ++
      shades (labelMessage s.severity e).fragments := by
  obtain ⟨span, marker⟩ := e
  have hglyph : (if earlier.any fun other => other.1.start.column == span.start.column
      then Glyph.labelBranch else .labelLast) = labelGlyph earlier (span, marker) := by
    simp only [labelGlyph, List.any_eq_true, beq_iff_eq]
  have hwidth : (labelGlyph earlier (span, marker)).width = 1 := by
    rw [labelGlyph]
    split <;> rfl
  have hend : shades ([.glyph (labelGlyph earlier (span, marker)) (inked (s.colour (span, marker))),
      .glyph .labelPoint (inked (s.colour (span, marker))), .text " "].map (Piece.draw charset)) =
      [((labelGlyph earlier (span, marker)).char charset, inked (s.colour (span, marker))),
       (Glyph.labelPoint.char charset, inked (s.colour (span, marker))), (' ', Style.plain)] := by
    rw [List.map_cons, List.map_cons, List.map_singleton, shades_cons, shades_glyph charset hwidth,
      shades_cons, shades_glyph charset rfl]
    exact congrArg _ (congrArg _ (shades_blanks charset 1))
  rw [← hend, ← shades_append, ← List.map_append, ← hglyph]
  exact Row.area_eq (List.append_assoc _ _ _) (s.dotMargin_stretch line)

theorem isLabel_labelRow (charset : Charset)
    (hs : (Sheet.ofReport r).inline line = earlier ++ e :: later) :
    IsLabel charset r ((Sheet.ofReport r).inline line) earlier e
      ((Sheet.ofReport r).labelRow line earlier e) where
  area := by
    have hcolumns := (Sheet.ofReport_ordered r).inline_columns line
    rw [hs, List.pairwise_append] at hcolumns
    rw [area_labelRow, Sheet.shades_pipesBefore hcolumns.1]
    refine ⟨_, ?_, rfl⟩
    rw [List.forall₂_map_right_iff, List.forall₂_same]
    intro column hcolumn
    refine hung_pipeShade hs ?_
    have := List.mem_range'_1.mp hcolumn
    omega
  message := by
    rw [Row.fragments_eq]
    exact List.suffix_append _ _

-- ---------------------------------------------------------------------------
-- From a label to its caret
-- ---------------------------------------------------------------------------

/-- What leads through a column of a label's row to a caret in the given colour. -/
inductive Traced (charset : Charset) (severity : Severity) (earlier : List Entry) (e : Entry)
    (column : Nat) (colour : String) : Char × Style → Prop
  | pipe (h : column < e.1.start.column) :
      Traced charset severity earlier e column colour (Glyph.bar.char charset, inked colour)
  | branch (h : column = e.1.start.column) :
      Traced charset severity earlier e column colour
        ((labelGlyph earlier e).char charset, inked (e.2.colour severity))

/-- Each label down to that of a marker keeps the marker's column. -/
theorem traced_of_isLabel (h : OnLine r line ms) (hs : ms = earlier ++ e :: later)
    (hlabel : IsLabel charset r ms earlier e row) (hm : m ∈ earlier ++ [e])
    (hb : Begun ms m.1.start.column) (hg : Greatest ms (·.1.covers line m.1.start.column) owner) :
    ∃ cell, (row.area charset (Sheet.ofReport r))[m.1.start.column - 1]? = some cell ∧
      Traced charset r.severity earlier e m.1.start.column (owner.2.colour r.severity) cell := by
  obtain ⟨hung, hhung, harea⟩ := hlabel.area
  obtain ⟨hlength, hcells⟩ := forall₂_columns_iff.mp hhung
  have hone := m.1.one_le_column.1
  have hle : m.1.start.column ≤ e.1.start.column := by
    rcases List.mem_append.mp hm with hm | hm
    · exact (hs ▸ h).columns_around.1 m hm
    · rw [List.mem_singleton.mp hm]
  rw [harea, List.append_assoc]
  rcases Nat.lt_or_eq_of_le hle with hlt | heq
  · have hi : m.1.start.column - 1 < hung.length := by omega
    have hcell := hcells _ _ (List.getElem?_eq_getElem hi)
    rw [List.getElem?_append_left hi, List.getElem?_eq_getElem hi]
    rw [Nat.sub_add_cancel hone] at hcell
    generalize hung[m.1.start.column - 1] = cell at hcell
    refine ⟨cell, rfl, ?_⟩
    cases hcell with
    | pipe _ ho =>
      rw [h.greatest_eq hb ho hg]
      exact .pipe hlt
    | blank hnone =>
      have hearlier : m ∈ earlier := by
        refine (List.mem_append.mp hm).resolve_right fun hme => ?_
        rw [List.mem_singleton.mp hme] at hlt
        exact Nat.lt_irrefl _ hlt
      exact absurd rfl (hnone m hearlier)
  · rw [heq, ← hlength, List.getElem?_append_right (Nat.le_refl _), Nat.sub_self]
    exact ⟨_, rfl, .branch rfl⟩

theorem getElem?_labelRows (s : Sheet) (line : Nat) (before : List Entry) (e : Entry)
    (rest : List Entry) : (s.labelRows line (before ++ e :: rest))[before.length]? =
      some (s.labelRow line rest.reverse e) := by
  induction before with
  | nil => rfl
  | cons other before ih => exact ih

theorem length_labelRows (s : Sheet) (line : Nat) (es : List Entry) :
    (s.labelRows line es).length = es.length := by
  simpa using congrArg List.length (s.part_labelRows line es)

/-- The row of a label stands below those of all greater markers of the line. -/
theorem getElem?_partRows_label (sources : Sources)
    (hs : (Sheet.ofReport r).inline line = earlier ++ e :: later) :
    (partRows sources r line .label)[later.length]? =
      some ((Sheet.ofReport r).labelRow line earlier e) := by
  have hreverse : ((Sheet.ofReport r).inline line).reverse = later.reverse ++ e :: earlier.reverse := by
    simp [hs]
  have hrow := getElem?_labelRows (Sheet.ofReport r) line later.reverse e earlier.reverse
  rwa [List.length_reverse, List.reverse_reverse, ← hreverse, ← partRows_label sources] at hrow

/-- The markers that lie on a line alone have a label each, the greatest marker first.
In the row of a label no marker still to come begins behind the branch, and each
column at which one begins has a pipe. From the label of a marker with some extent
its column leads to its caret, through pipes in the colour of the caret and
through branches. -/
theorem layout_labels (charset : Charset) (sources : Sources) (r : Report) (line : Nat) :
    ∃ ms, OnLine r line ms ∧ (partRows sources r line .label).length = ms.length ∧
      (∀ earlier e later, ms = earlier ++ e :: later →
        (∀ other ∈ earlier, other.1.start.column ≤ e.1.start.column) ∧
        ∃ row, (partRows sources r line .label)[later.length]? = some row ∧
          IsLabel charset r ms earlier e row) ∧
      ∀ m ∈ ms, m.1.start.column < m.1.stop.column →
        ∃ underline colour, partRows sources r line .underline = [underline] ∧
          (underline.area charset (Sheet.ofReport r))[m.1.start.column - 1]? =
            some (Glyph.caret.char charset, inked colour) ∧
          ∀ earlier e later, ms = earlier ++ e :: later → m ∈ earlier ++ [e] →
            ∃ row cell, (partRows sources r line .label)[later.length]? = some row ∧
              (row.area charset (Sheet.ofReport r))[m.1.start.column - 1]? = some cell ∧
              Traced charset r.severity earlier e m.1.start.column colour cell := by
  have hon := onLine_inline r line
  refine ⟨_, hon, ?_, fun earlier e later hs => ⟨?_, ?_⟩, fun m hm hextent => ?_⟩
  · rw [partRows_label, length_labelRows, List.length_reverse]
  · exact (hs ▸ hon).columns_around.1
  · exact ⟨_, getElem?_partRows_label sources hs, isLabel_labelRow charset hs⟩
  · have hone := Nat.sub_add_cancel m.1.one_le_column.1
    have hbegun : Begun ((Sheet.ofReport r).inline line) (m.1.start.column - 1 + 1) :=
      ⟨m, hm, hone.symm, by rwa [hone]⟩
    obtain ⟨owner, hg, hcaret⟩ := caret_strokes charset hbegun
    rw [hone] at hbegun hg
    refine ⟨_, _, ?_, hcaret, fun earlier e later hs hmem => ?_⟩
    · rw [partRows_underline, if_neg (List.ne_nil_of_mem hm)]
    · obtain ⟨cell, hcell, htraced⟩ :=
        traced_of_isLabel hon hs (isLabel_labelRow charset hs) hmem hbegun hg
      exact ⟨_, cell, getElem?_partRows_label sources hs, hcell, htraced⟩

end SpanReport.Layout
