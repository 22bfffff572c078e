import SpanReport.Proofs.Equality
import SpanReport.Proofs.Margin

/-!
# Displayed lines

`layout_lines`: a layout displays the lines that some marker of its report
touches, each of them once and in ascending order. A line has a row with its
text, then a row with its underline if some marker lies on it alone, then a
label for each of those markers. Nothing stands between two displayed lines.
-/

namespace SpanReport.Layout

-- ---------------------------------------------------------------------------
-- Rows of displayed lines
-- ---------------------------------------------------------------------------

/-- How many markers lie on a line alone. -/
def inlineCount (r : Report) (line : Nat) : Nat :=
  r.markers.entries.countP fun e => e.1.isInline && e.1.start.line == line

/-- The rows of a displayed line: its text, its underline if there is anything
to underline, and its labels. -/
def lineParts (r : Report) (line : Nat) : List (Nat × Part) :=
  let count := inlineCount r line
  (line, .text) :: (if count = 0 then [] else [(line, .underline)]) ++
    List.replicate count (line, .label)

theorem part?_eq_none {row : Row} (h : row.line? = none) : row.part? = none := by
  cases row with
  | source | underline | label => cases h
  | _ => rfl

namespace Sheet

variable {s : Sheet}

theorem part_labelRows (s : Sheet) (line : Nat) (es : List Entry) :
    (s.labelRows line es).map Row.part? = List.replicate es.length (some (line, .label)) := by
  induction es with
  | nil => rfl
  | cons e es ih =>
    rw [labelRows, List.map_cons, ih]
    rfl

theorem length_inline (r : Report) (line : Nat) :
    ((ofReport r).inline line).length = inlineCount r line := by
  rw [inline_eq, List.filter_filter, ← List.countP_eq_length_filter]
  refine Eq.trans (List.countP_congr fun e _ => ?_)
    ((sortEntries_perm r.markers.entries).countP_eq _)
  rw [Bool.and_comm]

theorem part_lineRows (sources : Sources) (r : Report) (line : Nat) :
    ((ofReport r).lineRows sources line).map Row.part? = (lineParts r line).map some := by
  have hempty : ((ofReport r).inline line).isEmpty ↔ inlineCount r line = 0 := by
    rw [← length_inline, List.isEmpty_iff_length_eq_zero]
  rw [lineRows, lineParts, List.map_append, part_labelRows, List.length_reverse, length_inline,
    List.map_append, List.map_replicate]
  by_cases h : inlineCount r line = 0
  · rw [if_pos (hempty.mpr h), if_pos h]
    rfl
  · rw [if_neg (mt hempty.mp h), if_neg h]
    rfl

end Sheet

/-- Title, pointer and rail, the displayed lines, and what follows them. -/
theorem part_rows (sources : Sources) (r : Report) :
    ∃ after, (rows sources r).map Row.part? = List.replicate 3 none ++
      ((Sheet.ofReport r).lineNumbers.flatMap fun line => (lineParts r line).map some) ++
        List.replicate after none := by
  have hclosing : (closingRows r).map Row.part? = List.replicate (closingRows r).length none := by
    rw [← List.map_const']
    exact List.map_congr_left fun row hrow => part?_eq_none (line?_of_mem_closingRows hrow)
  refine ⟨(closingRows r).length, ?_⟩
  rw [← hclosing, rows_eq_lines, List.map_append, List.map_append, List.map_flatMap]
  simp only [Sheet.part_lineRows]
  rfl

theorem textLines_rows (sources : Sources) (r : Report) :
    textLines (rows sources r) = (Sheet.ofReport r).lineNumbers := by
  obtain ⟨after, h⟩ := part_rows sources r
  have hparts : (rows sources r).filterMap Row.part? =
      (Sheet.ofReport r).lineNumbers.flatMap (lineParts r) := by
    have hid : (rows sources r).filterMap Row.part? =
        ((rows sources r).map Row.part?).filterMap id := by rw [List.filterMap_map]; rfl
    rw [hid, h]
    simp [List.filterMap_flatMap, List.filterMap_map]
  have hline (line : Nat) : (lineParts r line).filterMap textLine? = [line] := by
    rw [lineParts]
    split <;> simp [textLine?]
  rw [textLines, hparts, List.filterMap_flatMap]
  simp [hline]

-- ---------------------------------------------------------------------------
-- The rows of a part
-- ---------------------------------------------------------------------------

theorem flatMap_indicator {ns : List Nat} (h : ns.Nodup) (n : Nat) (xs : List α) :
    (ns.flatMap fun m => if m = n then xs else []) = if n ∈ ns then xs else [] := by
  induction ns with
  | nil => rfl
  | cons m ns ih =>
    obtain ⟨hm, hns⟩ := List.nodup_cons.mp h
    rw [List.flatMap_cons, ih hns]
    by_cases he : m = n
    · subst he
      simp [hm]
    · simp [he, Ne.symm he]

/-- The rows of a line stand in the layout as the sheet has them. -/
theorem filter_line?_rows (sources : Sources) (r : Report) (line : Nat) :
    (rows sources r).filter (·.line? == some line) =
      if line ∈ (Sheet.ofReport r).lineNumbers then (Sheet.ofReport r).lineRows sources line
      else [] := by
  have hclosing : (closingRows r).filter (·.line? == some line) = [] :=
    List.filter_eq_nil_iff.mpr fun row hrow => by simp [line?_of_mem_closingRows hrow]
  have hline (other : Nat) :
      ((Sheet.ofReport r).lineRows sources other).filter (·.line? == some line) =
        if other = line then (Sheet.ofReport r).lineRows sources line else [] := by
    split
    · subst other
      refine List.filter_eq_self.mpr fun row hrow => ?_
      rw [Sheet.line?_of_mem_lineRows hrow, beq_self_eq_true]
    · rename_i hne
      refine List.filter_eq_nil_iff.mpr fun row hrow => ?_
      simp [Sheet.line?_of_mem_lineRows hrow, hne]
  rw [rows_eq_lines, List.filter_append, List.filter_append, hclosing, List.append_nil,
    List.filter_flatMap]
  simp only [hline]
  exact flatMap_indicator ((Sheet.ofReport r).lineNumbers_pairwise.imp Nat.ne_of_lt) line _

theorem line?_of_part? {row : Row} (h : row.part? = some (line, part)) : row.line? = some line := by
  cases row with
  | source | underline | label =>
    cases h
    rfl
  | _ => cases h

theorem partRows_eq (sources : Sources) (r : Report) (line : Nat) (part : Part) :
    partRows sources r line part =
      if line ∈ (Sheet.ofReport r).lineNumbers then
        ((Sheet.ofReport r).lineRows sources line).filter (·.part? == some (line, part))
      else [] := by
  have hline (row : Row) : (row.part? == some (line, part)) =
      (row.part? == some (line, part) && row.line? == some line) := by
    rw [Bool.eq_iff_iff, Bool.and_eq_true, beq_iff_eq, beq_iff_eq]
    exact (and_iff_left_of_imp line?_of_part?).symm
  rw [partRows, List.filter_congr fun row _ => hline row, ← List.filter_filter, filter_line?_rows]
  split <;> rfl

namespace Sheet

variable {s : Sheet}

theorem filter_labelRows (s : Sheet) (line : Nat) (es : List Entry) (part : Part) :
    (s.labelRows line es).filter (·.part? == some (line, part)) =
      if part = .label then s.labelRows line es else [] := by
  have hlabel {row : Row} (h : row ∈ s.labelRows line es) : row.part? = some (line, .label) := by
    obtain ⟨_, _, _, -, rfl⟩ := mem_labelRows h
    rfl
  split
  · subst part
    exact List.filter_eq_self.mpr fun row hrow => by rw [hlabel hrow, beq_self_eq_true]
  · rename_i hp
    exact List.filter_eq_nil_iff.mpr fun row hrow => by simp [hlabel hrow, Ne.symm hp]

theorem filter_lineRows (s : Sheet) (sources : Sources) (line : Nat) (part : Part) :
    (s.lineRows sources line).filter (·.part? == some (line, part)) = match part with
      | .text => [.source line (s.sourceBracket line) (s.excerpt sources line)]
      | .underline =>
        if s.inline line = [] then [] else [.underline line (s.bracket line) (s.strokes line)]
      | .label => s.labelRows line (s.inline line).reverse := by
  rw [lineRows, List.cons_append, List.filter_cons, List.filter_append, filter_labelRows]
  cases part <;> by_cases hi : s.inline line = [] <;> simp [hi, Row.part?]

theorem inline_of_not_mem (h : line ∉ s.lineNumbers) : s.inline line = [] := by
  rw [List.eq_nil_iff_forall_not_mem]
  intro e he
  obtain ⟨hm, -, rfl⟩ := mem_inline.mp he
  exact h (start_mem_lineNumbers hm)

end Sheet

theorem partRows_text (h : line ∈ (Sheet.ofReport r).lineNumbers) (sources : Sources) :
    partRows sources r line .text = [.source line ((Sheet.ofReport r).sourceBracket line)
      ((Sheet.ofReport r).excerpt sources line)] := by
  rw [partRows_eq, if_pos h, Sheet.filter_lineRows]

theorem partRows_underline (sources : Sources) (r : Report) (line : Nat) :
    partRows sources r line .underline =
      if (Sheet.ofReport r).inline line = [] then []
      else [.underline line ((Sheet.ofReport r).bracket line)
        ((Sheet.ofReport r).strokes line)] := by
  rw [partRows_eq, Sheet.filter_lineRows]
  split
  · rfl
  · rename_i h
    rw [if_pos (Sheet.inline_of_not_mem h)]

theorem partRows_label (sources : Sources) (r : Report) (line : Nat) :
    partRows sources r line .label =
      (Sheet.ofReport r).labelRows line ((Sheet.ofReport r).inline line).reverse := by
  rw [partRows_eq, Sheet.filter_lineRows]
  split
  · rfl
  · rename_i h
    rw [Sheet.inline_of_not_mem h]
    rfl

-- ---------------------------------------------------------------------------
-- What touches a line
-- ---------------------------------------------------------------------------

theorem nodup_spans {entries : List Entry} (h : entries.Pairwise fun a b => a.1 < b.1) :
    (entries.map Prod.fst).Nodup := by
  refine List.pairwise_map.mpr (h.imp fun hab he => ?_)
  rw [he] at hab
  exact Span.lt_irrefl _ hab

theorem sortEntries_of_pairwise {entries : List Entry}
    (h : entries.Pairwise fun a b => a.1 < b.1) : sortEntries entries = entries :=
  eq_of_perm_ordered (sortEntries_perm _) (sortEntries_pairwise (nodup_spans h)) h

namespace Sheet

variable {s : Sheet}

/-- A marker over several lines touches the lines at its ends and those between
them. -/
theorem bounding_append_enclosing (s : Sheet) (line : Nat) :
    (s.bounding line ++ s.enclosing line).Perm (s.multiline.filter (·.1.touches line)) := by
  have hb : s.bounding line = (s.multiline.filter (·.1.touches line)).filter
      fun e => e.1.start.line == line || e.1.stop.line == line := by
    rw [bounding, List.filter_filter]
    refine List.filter_congr fun e _ => ?_
    have h := e.1.start_line_le_stop_line
    rw [Bool.eq_iff_iff]
    simp only [Span.touches, Bool.and_eq_true, Bool.or_eq_true, beq_iff_eq, decide_eq_true_eq]
    omega
  have he : s.enclosing line = (s.multiline.filter (·.1.touches line)).filter
      fun e => !(e.1.start.line == line || e.1.stop.line == line) := by
    rw [enclosing, List.filter_filter]
    refine List.filter_congr fun e _ => ?_
    rw [Bool.eq_iff_iff]
    simp only [Span.touches, Bool.and_eq_true, Bool.not_eq_true', Bool.or_eq_false_iff,
      beq_eq_false_iff_ne, decide_eq_true_eq]
    omega
  rw [hb, he]
  exact List.filter_append_perm _ _

/-- The markers that touch a line, put together from the three groups in which
they are found. -/
theorem touching_eq (h : s.Ordered) (line : Nat) : s.touching line =
    sortEntries (s.inline line ++ s.bounding line ++ s.enclosing line) := by
  have hmultiline : s.multiline.filter (·.1.touches line) =
      (s.touching line).filter (!·.1.isInline) := List.filter_comm _ _ _
  have hgroups := bounding_append_enclosing s line
  rw [hmultiline] at hgroups
  have hperm : (s.inline line ++ s.bounding line ++ s.enclosing line).Perm (s.touching line) := by
    rw [List.append_assoc]
    exact (hgroups.append_left _).trans (List.filter_append_perm _ _)
  have hsorted : (s.touching line).Pairwise fun a b => a.1 < b.1 := h.filter _
  rw [sortEntries_congr hperm ((hperm.map Prod.fst).nodup_iff.mpr (nodup_spans hsorted)),
    sortEntries_of_pairwise hsorted]

theorem touching_ne_nil (h : line ∈ s.lineNumbers) : s.touching line ≠ [] := by
  obtain ⟨e, he, ht⟩ := mem_lineNumbers.mp h
  exact List.ne_nil_of_mem (List.mem_filter.mpr ⟨he, ht⟩)

end Sheet

-- ---------------------------------------------------------------------------
-- Line numbers
-- ---------------------------------------------------------------------------

/-- What a drawn row shows in its gutter, the blanks left out. -/
def gutterText : List Fragment → List Char
  | [] => []
  | gutter :: _ => gutter.content.toList.filter (· != ' ')

theorem gutterText_source (charset : Charset) (f : Frame) (line : Nat) (bracket : Bracket)
    (excerpt : Option (List Run)) :
    gutterText ((Row.source line bracket excerpt).fragments charset f) =
      (Nat.repr line).toList := by
  have hdigits : (Nat.repr line).toList.filter (· != ' ') = (Nat.repr line).toList := by
    refine List.filter_eq_self.mpr fun c hc => ?_
    rw [Nat.toList_repr] at hc
    have hd := Nat.isDigit_of_mem_toDigits (by decide) (by decide) hc
    rw [bne_iff_ne]
    rintro rfl
    cases hd
  simp only [Row.fragments, Row.pieces, Row.head, Frame.numberGutter, List.cons_append,
    List.map_cons, gutterText, Piece.draw, Piece.text, Ink.draw, String.toList_ofList,
    List.filter_cons, List.filter_append, hdigits]
  simp

theorem mem_textLines (sources : Sources) (r : Report) (line : Nat) :
    line ∈ textLines (rows sources r) ↔
      ∃ e ∈ r.markers.entries, e.1.start.line ≤ line ∧ line ≤ e.1.stop.line := by
  rw [textLines_rows, Sheet.mem_lineNumbers]
  simp only [(sortEntries_perm r.markers.entries).mem_iff, Sheet.ofReport, Span.touches,
    Bool.and_eq_true, decide_eq_true_eq]

/-- The displayed lines are those that some marker touches. Each has a row with
its number and its text, an underline behind it if a marker lies on it alone,
and the labels of such markers, and no other row stands between title and
trailer but for pointer and rail. The file of a text is that of the first
marker that touches the line, of which there is always one. -/
theorem layout_lines (charset : Charset) (sources : Sources) (r : Report) :
    (r.layout charset sources).fragments = List.intercalate [lineFeed]
        ((rows sources r).map (Row.fragments charset (Sheet.ofReport r).frame)) ∧
      (textLines (rows sources r)).Pairwise (· < ·) ∧
      (∀ line, line ∈ textLines (rows sources r) ↔
        ∃ e ∈ r.markers.entries, e.1.start.line ≤ line ∧ line ≤ e.1.stop.line) ∧
      (∃ after, (rows sources r).map Row.part? = List.replicate 3 none ++
        ((textLines (rows sources r)).flatMap fun line => (lineParts r line).map some) ++
          List.replicate after none) ∧
      (∀ row ∈ rows sources r, ∀ line, row.part? = some (line, .text) →
        gutterText (row.fragments charset (Sheet.ofReport r).frame) = (Nat.repr line).toList) ∧
      ∀ line ∈ textLines (rows sources r),
        (Sheet.ofReport r).touching line ≠ [] ∧
        (Sheet.ofReport r).touching line = sortEntries ((Sheet.ofReport r).inline line ++
          (Sheet.ofReport r).bounding line ++ (Sheet.ofReport r).enclosing line) := by
  refine ⟨fragments_layout charset sources r, ?_, mem_textLines sources r, ?_, ?_, ?_⟩
  · rw [textLines_rows]
    exact Sheet.lineNumbers_pairwise _
  · rw [textLines_rows]
    exact part_rows sources r
  · intro row _ line h
    cases row with
    | source n bracket excerpt =>
      cases h
      exact gutterText_source charset _ line bracket excerpt
    | _ => cases h
  · intro line hline
    rw [textLines_rows] at hline
    exact ⟨Sheet.touching_ne_nil hline, Sheet.touching_eq (Sheet.ofReport_ordered r) line⟩

end SpanReport.Layout
