import SpanReport.Proofs.Margin
import Mathlib.Data.List.SplitBy

/-!
# Columns

`layout_columns`: gutter, frame glyph, blank and bracket are equally wide in all
rows of a displayed line, whatever they are made of, so a column of the source
text is the same output column in the text, in the underline and in every label.
-/

namespace SpanReport

/-- The character of a glyph that fills one column. -/
def Glyph.char (charset : Charset) (g : Glyph) : Char := (g.draw charset).toList.headD ' '

theorem Glyph.toList_draw (charset : Charset) {g : Glyph} (h : g.width = 1) :
    (g.draw charset).toList = [g.char charset] := by
  have hl : (g.draw charset).toList.length = 1 := by rw [String.length_toList, length_draw, h]
  obtain ⟨c, hc⟩ := List.length_eq_one_iff.mp hl
  rw [char, hc, List.headD_cons]

theorem Glyph.char_ne_newline (charset : Charset) (g : Glyph) : g.char charset ≠ '\n' := by
  cases charset <;> cases g <;> decide

namespace Layout

variable {charset : Charset}

theorem flatMap_runs (colourAt : Nat → Option String) (text : List Char) :
    (Sheet.runs colourAt text).flatMap (fun r => r.text.toList) = text := by
  have hmap : ∀ cells : List (List (Char × Option String)),
      cells.flatMap (fun group => group.map Prod.fst) = cells.flatten.map Prod.fst := by
    intro cells
    rw [List.map_flatten, List.flatMap]
  simp only [Sheet.runs, List.flatMap_map, String.toList_ofList]
  rw [hmap, List.flatten_splitBy]
  apply List.ext_getElem?
  intro i
  simp [List.getElem?_mapIdx, Function.comp_def]

namespace Sheet

variable {s : Sheet} {entries : List Entry}

theorem pipes_cons (s : Sheet) (e : Entry) (rest : List Entry) :
    (∃ pipe others, s.pipes rest = pipe :: others ∧ pipe.column = e.1.start.column ∧
        s.pipes (e :: rest) = s.pipes rest) ∨
      (∀ pipe others, s.pipes rest = pipe :: others → pipe.column ≠ e.1.start.column) ∧
        s.pipes (e :: rest) = ⟨e.1.start.column, s.colour e⟩ :: s.pipes rest := by
  rw [pipes]
  cases hl : s.pipes rest with
  | nil => exact .inr ⟨nofun, rfl⟩
  | cons pipe others =>
    by_cases hc : pipe.column = e.1.start.column
    · exact .inl ⟨pipe, others, rfl, hc, if_pos hc⟩
    · refine .inr ⟨?_, if_neg hc⟩
      rintro _ _ ⟨rfl, rfl⟩
      exact hc

theorem mem_pipes_column : (∃ pipe ∈ s.pipes entries, pipe.column = k) ↔
    ∃ e ∈ entries, e.1.start.column = k := by
  induction entries with
  | nil => simp [pipes]
  | cons e rest ih =>
    rw [List.exists_mem_cons_iff, ← ih]
    rcases pipes_cons s e rest with ⟨pipe, others, hl, hc, hp⟩ | ⟨-, hp⟩
    · have he : e.1.start.column = k → ∃ pipe ∈ s.pipes rest, pipe.column = k :=
        fun h => ⟨pipe, by simp [hl], hc.trans h⟩
      rw [hp, or_iff_right_of_imp he]
    · rw [hp, List.exists_mem_cons_iff]

theorem pipes_ascending (h : entries.Pairwise fun a b => a.1.start.column ≤ b.1.start.column) :
    (s.pipes entries).Pairwise fun a b => a.column < b.column := by
  induction entries with
  | nil => exact .nil
  | cons e rest ih =>
    obtain ⟨hle, hrest⟩ := List.pairwise_cons.mp h
    have hp := ih hrest
    rcases pipes_cons s e rest with ⟨pipe, others, hl, hc, he⟩ | ⟨hne, he⟩
    · rwa [he]
    · rw [he]
      refine List.pairwise_cons.mpr ⟨fun pipe hm => ?_, hp⟩
      show e.1.start.column < pipe.column
      obtain ⟨first, others, hl⟩ := List.exists_cons_of_ne_nil (List.ne_nil_of_mem hm)
      have hm' : first ∈ s.pipes rest := by simp [hl]
      obtain ⟨other, ho, hfirst⟩ := mem_pipes_column.mp ⟨first, hm', rfl⟩
      have h₁ := hle other ho
      have h₂ := hne first others hl
      rw [hl] at hm hp
      rcases List.mem_cons.mp hm with rfl | hm
      · omega
      · have h₃ := (List.pairwise_cons.mp hp).1 pipe hm
        omega

/-- A pipe is in the colour of the last marker that begins in its column. -/
theorem owner_of_mem_pipes (h : entries.Pairwise fun a b => a.1.start.column ≤ b.1.start.column)
    (hp : pipe ∈ s.pipes entries) :
    ∃ e, (entries.filter (·.1.start.column == pipe.column)).getLast? = some e ∧
      s.colour e = pipe.colour := by
  induction entries with
  | nil => cases hp
  | cons e rest ih =>
    have hlater : pipe ∈ s.pipes rest → ∃ owner,
        ((e :: rest).filter (·.1.start.column == pipe.column)).getLast? = some owner ∧
          s.colour owner = pipe.colour := by
      intro hm
      obtain ⟨owner, hl, hc⟩ := ih (List.pairwise_cons.mp h).2 hm
      refine ⟨owner, ?_, hc⟩
      rw [List.filter_cons]
      split
      · rw [List.getLast?_cons, hl, Option.getD_some]
      · exact hl
    rcases pipes_cons s e rest with ⟨_, _, -, -, he⟩ | ⟨-, he⟩
    · exact hlater (he ▸ hp)
    · rw [he] at hp
      rcases List.mem_cons.mp hp with rfl | hm
      · have hasc := pipes_ascending (s := s) h
        rw [he, List.pairwise_cons] at hasc
        have hnone : rest.filter (·.1.start.column == e.1.start.column) = [] := by
          rw [List.filter_eq_nil_iff]
          intro other ho hcolumn
          obtain ⟨pipe, hm, hpipe⟩ := mem_pipes_column.mpr ⟨other, ho, beq_iff_eq.mp hcolumn⟩
          exact Nat.lt_irrefl _ (hpipe ▸ hasc.1 pipe hm)
        exact ⟨e, by simp [hnone], rfl⟩
      · exact hlater hm

/-- The pipes of the markers that begin left of a column. -/
def pipesBefore (s : Sheet) (earlier : List Entry) (stop : Nat) : List Pipe :=
  s.pipes (earlier.filter fun other => decide (other.1.start.column < stop))

theorem owner_of_mem_pipesBefore
    (h : entries.Pairwise fun a b => a.1.start.column ≤ b.1.start.column)
    (hp : pipe ∈ s.pipesBefore entries stop) :
    ∃ e, (entries.filter (·.1.start.column == pipe.column)).getLast? = some e ∧
      s.colour e = pipe.colour := by
  obtain ⟨owner, hl, hc⟩ := owner_of_mem_pipes (h.filter _) hp
  obtain ⟨hm, hcolumn⟩ := List.mem_filter.mp (List.mem_of_getLast? hl)
  have hlt : pipe.column < stop := by
    rw [← beq_iff_eq.mp hcolumn]
    exact of_decide_eq_true (List.mem_filter.mp hm).2
  have hfilter : (entries.filter fun other => decide (other.1.start.column < stop)).filter
      (·.1.start.column == pipe.column) = entries.filter (·.1.start.column == pipe.column) := by
    rw [List.filter_filter]
    apply List.filter_congr
    intro other _
    by_cases hother : other.1.start.column = pipe.column <;> simp [hother, hlt]
  exact ⟨owner, hfilter ▸ hl, hc⟩

end Sheet

theorem shades_glyph (charset : Charset) (h : g.width = 1) (style : Style) :
    shades [(Piece.glyph g style).draw charset] = [(g.char charset, style)] := by
  have hchars : ((Piece.glyph g style).draw charset).content.toList = [g.char charset] := by
    rw [← Glyph.toList_draw charset h, ← charsOf_glyph charset g style]
    exact (List.append_nil _).symm
  rw [shades_singleton, hchars]
  rfl

/-- What pipes show in a column. -/
def pipeShade (charset : Charset) (pipes : List Pipe) (column : Nat) : Char × Style :=
  match pipes.find? (·.column == column) with
  | some pipe => (Glyph.bar.char charset, inked pipe.colour)
  | none => (' ', Style.plain)

theorem pipeShade_of_lt {pipes : List Pipe} (h : ∀ pipe ∈ pipes, column < pipe.column) :
    pipeShade charset pipes column = (' ', Style.plain) := by
  have hn : pipes.find? (·.column == column) = none :=
    List.find?_eq_none.mpr fun pipe hp => by simp [Nat.ne_of_gt (h pipe hp)]
  rw [pipeShade, hn]

theorem pipeShade_cons_of_lt {pipe : Pipe} (h : pipe.column < column) :
    pipeShade charset (pipe :: rest) column = pipeShade charset rest column := by
  have hn : (pipe.column == column) = false := beq_eq_false_iff_ne.mpr (Nat.ne_of_lt h)
  rw [pipeShade, pipeShade, List.find?_cons, hn]

theorem fst_pipeShade (charset : Charset) (pipes : List Pipe) (column : Nat) :
    (pipeShade charset pipes column).1 =
      if pipes.any (·.column == column) then Glyph.bar.char charset else ' ' := by
  rw [pipeShade, ← List.isSome_find?]
  cases pipes.find? (·.column == column) <;> rfl

theorem range'_split (h₁ : first ≤ k) (h₂ : k < last) :
    List.range' first (last - first) =
      List.range' first (k - first) ++ k :: List.range' (k + 1) (last - (k + 1)) := by
  obtain ⟨m, rfl⟩ := Nat.exists_eq_add_of_le h₁
  obtain ⟨n, rfl⟩ := Nat.exists_eq_add_of_le h₂
  have hm : first + m - first = m := by omega
  have hn : (first + m).succ + n - (first + m + 1) = n := by omega
  have hl : (first + m).succ + n - first = m + (n + 1) := by omega
  rw [hm, hn, hl, ← List.range'_append_1, List.range'_succ]

theorem shades_pipePieces {pipes : List Pipe} (charset : Charset)
    (hp : pipes.Pairwise fun a b => a.column < b.column)
    (hlow : ∀ pipe ∈ pipes, column ≤ pipe.column) (hhigh : ∀ pipe ∈ pipes, pipe.column < stop) :
    shades ((pipePieces column stop pipes).map (Piece.draw charset)) =
      (List.range' column (stop - column)).map (pipeShade charset pipes) := by
  induction pipes generalizing column with
  | nil =>
    have h : pipeShade charset [] = fun _ => (' ', Style.plain) := rfl
    rw [pipePieces, List.map_singleton, shades_blanks, h, List.map_const', List.length_range']
  | cons pipe rest ih =>
    obtain ⟨hlt, hrest⟩ := List.pairwise_cons.mp hp
    obtain ⟨hl, -⟩ := List.forall_mem_cons.mp hlow
    obtain ⟨hh, hhigh⟩ := List.forall_mem_cons.mp hhigh
    have hbefore : (List.range' column (pipe.column - column)).map
        (pipeShade charset (pipe :: rest)) =
        List.replicate (pipe.column - column) (' ', Style.plain) := by
      rw [List.eq_replicate_iff, List.length_map, List.length_range']
      refine ⟨rfl, List.forall_mem_map.mpr fun k hk => ?_⟩
      have hk : k < pipe.column := by
        have := List.mem_range'_1.mp hk
        omega
      exact pipeShade_of_lt (List.forall_mem_cons.mpr ⟨hk, fun other ho => hk.trans (hlt other ho)⟩)
    have hat : pipeShade charset (pipe :: rest) pipe.column =
        (Glyph.bar.char charset, inked pipe.colour) := by
      simp [pipeShade]
    have hafter : (List.range' (pipe.column + 1) (stop - (pipe.column + 1))).map
        (pipeShade charset (pipe :: rest)) =
        (List.range' (pipe.column + 1) (stop - (pipe.column + 1))).map (pipeShade charset rest) :=
      List.map_congr_left fun k hk => pipeShade_cons_of_lt (List.mem_range'_1.mp hk).1
    rw [pipePieces, List.map_cons, List.map_cons, shades_cons, shades_cons (Piece.draw _ (.glyph ..)),
      shades_blanks, shades_glyph charset rfl, ih hrest hlt hhigh, range'_split hl hh,
      List.map_append, List.map_cons, hbefore, hat, hafter]
    rfl

-- ---------------------------------------------------------------------------
-- What the rows of a displayed line show
-- ---------------------------------------------------------------------------

/-- What a stroke of an underline shows. -/
def strokeShade (charset : Charset) : Option Stroke → Char × Style
  | none => (' ', Style.plain)
  | some stroke =>
    ((if stroke.caret then Glyph.caret else .underline).char charset, inked stroke.colour)

theorem shades_stroke (charset : Charset) (stroke : Option Stroke) :
    shades [(strokePiece stroke).draw charset] = [strokeShade charset stroke] := by
  cases stroke with
  | none => exact shades_blanks charset 1
  | some stroke =>
    rw [strokePiece, shades_glyph charset, strokeShade]
    cases stroke.caret <;> rfl

def strokeChar (charset : Charset) : Option Stroke → Char
  | none => ' '
  | some stroke => (if stroke.caret then Glyph.caret else .underline).char charset

namespace Sheet

/-- The line as the first marker that touches it finds it in its file. -/
def text? (s : Sheet) (sources : Sources) (line : Nat) : Option String :=
  (s.touching line).head?.bind fun first => sources.line? first.1.file line

/-- Whether a marker that comes before the given one on its line begins in the
column. -/
def pending (s : Sheet) (line : Nat) (e : Entry) (column : Nat) : Bool :=
  (s.inline line).any fun other => decide (other.1 < e.1) && other.1.start.column == column

/-- The character of a label up to its branch. -/
def labelChar (charset : Charset) (s : Sheet) (line : Nat) (e : Entry) (column : Nat) : Char :=
  if column = e.1.start.column then
    (if s.pending line e column then Glyph.labelBranch else .labelLast).char charset
  else if s.pending line e column then Glyph.bar.char charset
  else ' '

/-- What a row of a displayed line shows for a column of the source text: the
text itself, its underline, or a label up to its branch. Columns count from
one. -/
def shownAt (charset : Charset) (s : Sheet) (sources : Sources) : Row → Nat → Option Char
  | .source line _ _, column + 1 => (s.text? sources line).bind (·.toList[column]?)
  | .underline line _ _, column + 1 =>
    if column + 1 < lastColumn (s.inline line) then
      some (strokeChar charset (s.strokeAt line (column + 1)))
    else none
  | .label line _ _ _ e, column + 1 =>
    if column + 1 ≤ e.1.start.column then some (s.labelChar charset line e (column + 1)) else none
  | _, _ => none

theorem shownAt_zero (charset : Charset) (s : Sheet) (sources : Sources) (row : Row) :
    s.shownAt charset sources row 0 = none := by
  cases row <;> rfl

theorem excerpt_eq (s : Sheet) (sources : Sources) (line : Nat) :
    s.excerpt sources line = (s.text? sources line).map fun text =>
      runs (s.colourAt line) text.toList := by
  rw [excerpt, text?]
  cases (s.touching line).head? with
  | none => rfl
  | some first => cases h : sources.line? first.1.file line <;> simp [h]

variable {s : Sheet}

theorem charsOf_excerpt (h : s.text? sources line = some text) :
    charsOf charset (excerptPieces (s.excerpt sources line)) = text.toList := by
  have hp (r : Run) : (r.piece.draw charset).content = r.text := by
    obtain ⟨text, colour⟩ := r
    cases colour <;> rfl
  rw [excerpt_eq, h, Option.map_some, excerptPieces, charsOf, List.flatMap_map]
  simp only [hp]
  exact flatMap_runs _ _

theorem shades_strokes (charset : Charset) (s : Sheet) (line : Nat) :
    shades (((s.strokes line).map strokePiece).map (Piece.draw charset)) =
      (List.range' 1 (lastColumn (s.inline line) - 1)).map fun column =>
        strokeShade charset (s.strokeAt line column) := by
  rw [strokes]
  induction List.range' 1 (lastColumn (s.inline line) - 1) with
  | nil => rfl
  | cons column rest ih =>
    rw [List.map_cons, List.map_cons, List.map_cons, List.map_cons, shades_cons, shades_stroke,
      ih]
    rfl

theorem charsOf_strokes (charset : Charset) (s : Sheet) (line : Nat) :
    charsOf charset ((s.strokes line).map strokePiece) =
      (List.range' 1 (lastColumn (s.inline line) - 1)).map fun column =>
        strokeChar charset (s.strokeAt line column) := by
  rw [charsOf_eq, shades_strokes, List.map_map]
  refine List.map_congr_left fun column _ => ?_
  rw [Function.comp_apply]
  cases s.strokeAt line column <;> rfl

/-- The markers before the given one on its line are those that its label is
drawn over. -/
theorem pending_eq (h : s.Ordered) (hs : s.inline line = earlier ++ e :: later) (column : Nat) :
    s.pending line e column = earlier.any (·.1.start.column == column) := by
  have ho := h.inline line
  rw [hs, List.pairwise_append, List.pairwise_cons] at ho
  obtain ⟨-, ⟨hlater, -⟩, hearlier⟩ := ho
  rw [Bool.eq_iff_iff, pending, hs]
  simp only [List.any_eq_true, Bool.and_eq_true, decide_eq_true_eq, beq_iff_eq]
  constructor
  · rintro ⟨other, hm, hlt, hc⟩
    rcases List.mem_append.mp hm with hm | hm
    · exact ⟨other, hm, hc⟩
    · rcases List.mem_cons.mp hm with rfl | hm
      · exact absurd hlt (Span.lt_irrefl _)
      · exact absurd (Span.lt_trans hlt (hlater other hm)) (Span.lt_irrefl _)
  · rintro ⟨other, hm, hc⟩
    exact ⟨other, List.mem_append_left _ hm, hearlier other hm e List.mem_cons_self, hc⟩

theorem mem_pipesBefore {earlier : List Entry} :
    (∃ pipe ∈ s.pipesBefore earlier stop, pipe.column = column) ↔
      column < stop ∧ ∃ other ∈ earlier, other.1.start.column = column := by
  simp only [pipesBefore, mem_pipes_column, List.mem_filter, decide_eq_true_eq]
  constructor
  · rintro ⟨other, ⟨ho, hlt⟩, rfl⟩
    exact ⟨hlt, other, ho, rfl⟩
  · rintro ⟨hlt, other, ho, rfl⟩
    exact ⟨other, ⟨ho, hlt⟩, rfl⟩

theorem shades_pipesBefore {earlier : List Entry}
    (h : earlier.Pairwise fun a b => a.1.start.column ≤ b.1.start.column) :
    shades ((pipePieces 1 stop (s.pipesBefore earlier stop)).map (Piece.draw charset)) =
      (List.range' 1 (stop - 1)).map (pipeShade charset (s.pipesBefore earlier stop)) := by
  refine shades_pipePieces charset (pipes_ascending (h.filter _)) (fun pipe hp => ?_) fun pipe hp =>
    (mem_pipesBefore.mp ⟨pipe, hp, rfl⟩).1
  obtain ⟨-, other, -, ho⟩ := mem_pipesBefore.mp ⟨pipe, hp, rfl⟩
  rw [← ho]
  exact other.1.one_le_column.1

theorem charsOf_label (h : s.Ordered) (hs : s.inline line = earlier ++ e :: later) :
    charsOf charset (pipePieces 1 e.1.start.column
        (s.pipesBefore earlier e.1.start.column) ++
      [.glyph (if earlier.any fun other => other.1.start.column == e.1.start.column
        then .labelBranch else .labelLast) style]) =
      (List.range' 1 e.1.start.column).map (s.labelChar charset line e) := by
  have hcolumns := h.inline_columns line
  rw [hs, List.pairwise_append] at hcolumns
  have hsplit : List.range' 1 e.1.start.column =
      List.range' 1 (e.1.start.column - 1) ++ [e.1.start.column] := by
    obtain ⟨m, hm⟩ := Nat.exists_eq_add_of_le e.1.one_le_column.1
    rw [hm, Nat.add_sub_cancel_left, Nat.add_comm 1 m, List.range'_1_concat, Nat.add_comm 1 m]
  have hbranch : charsOf charset [.glyph (if earlier.any fun other =>
      other.1.start.column == e.1.start.column then .labelBranch else .labelLast) style] =
      [s.labelChar charset line e e.1.start.column] := by
    rw [charsOf_glyph, labelChar, if_pos rfl, pending_eq h hs, Glyph.toList_draw]
    split <;> rfl
  have hpipes (column : Nat) (hlt : column < e.1.start.column) :
      (pipeShade charset (s.pipesBefore earlier e.1.start.column) column).1 =
        s.labelChar charset line e column := by
    have hany : (s.pipesBefore earlier e.1.start.column).any (·.column == column) =
        earlier.any (·.1.start.column == column) := by
      rw [Bool.eq_iff_iff]
      simp only [List.any_eq_true, beq_iff_eq, mem_pipesBefore, hlt, true_and]
    rw [labelChar, if_neg (Nat.ne_of_lt hlt), pending_eq h hs, ← hany, fst_pipeShade]
  rw [charsOf_append, charsOf_eq, shades_pipesBefore hcolumns.1, hsplit, List.map_append,
    List.map_singleton, hbranch, List.map_map]
  congr 1
  refine List.map_congr_left fun column hm => hpipes column ?_
  have := List.mem_range'_1.mp hm
  omega

theorem head_labelRow (charset : Charset) (ho : s.Ordered)
    (hs : s.inline line = earlier ++ e :: later) :
    ∃ rest, (s.labelRow line earlier e).head s.frame =
        (s.frame.dotGutter ++ .text " " :: (s.bracket line).pieces) ++ rest ∧
      charsOf charset rest = (List.range' 1 e.1.start.column).map (s.labelChar charset line e) ++
        ((Glyph.labelPoint.draw charset).toList ++ [' ']) := by
  obtain ⟨span, marker⟩ := e
  refine ⟨_, List.append_assoc .., ?_⟩
  have hpoint : charsOf charset [.glyph .labelPoint (inked (marker.colour s.severity)), .text " "] =
      (Glyph.labelPoint.draw charset).toList ++ [' '] := by
    rw [charsOf_cons, charsOf_glyph]
    exact congrArg _ (charsOf_blanks charset 1)
  rw [← charsOf_label ho hs, ← hpoint, ← charsOf_append, List.append_assoc]
  rfl

theorem mem_of_line? {sources : Sources} (h : sources.line? file line = some text) :
    ∃ source ∈ sources, text ∈ source.2 := by
  cases line with
  | zero => cases h
  | succ line =>
    obtain ⟨texts, hl, ht⟩ := Option.bind_eq_some_iff.mp h
    obtain ⟨_, _, hs, -⟩ := List.lookup_eq_some_iff.mp hl
    exact ⟨(file, texts), by simp [hs], List.mem_of_getElem? ht⟩

theorem strokeChar_ne_newline (charset : Charset) (stroke : Option Stroke) :
    strokeChar charset stroke ≠ '\n' := by
  cases stroke with
  | none => exact (by decide : ' ' ≠ '\n')
  | some stroke => exact Glyph.char_ne_newline charset _

theorem labelChar_ne_newline (charset : Charset) (s : Sheet) (line : Nat) (e : Entry)
    (column : Nat) : s.labelChar charset line e column ≠ '\n' := by
  rw [labelChar]
  split
  · exact Glyph.char_ne_newline charset _
  · split
    · exact Glyph.char_ne_newline charset _
    · decide

/-- A row of a displayed line shows what stands under the source text behind the
margin. -/
theorem getElem?_cells {sources : Sources} (ho : s.Ordered) (hline : line ∈ s.lineNumbers)
    (hsources : ∀ source ∈ sources, ∀ text ∈ source.2, '\n' ∉ text.toList)
    (hrow : row ∈ s.lineRows sources line) (hc : s.shownAt charset sources row (k + 1) = some c) :
    (row.cells charset s.frame)[s.margin + k]? = some (1 + ((s.margin + k : Nat) : Int), c) := by
  have hlead : Stretch charset s.margin _ := s.dotMargin_stretch line
  rcases mem_lineRows hrow with rfl | rfl | ⟨earlier, e, later, hs, rfl⟩
  · obtain ⟨text, ht, hc⟩ := Option.bind_eq_some_iff.mp hc
    rw [← charsOf_excerpt ht] at hc
    refine (numberMargin_stretch hline).getElem?_cells rfl ?_ hc
    obtain ⟨first, -, hl⟩ := Option.bind_eq_some_iff.mp ht
    obtain ⟨source, hm, htext⟩ := mem_of_line? hl
    rw [charsOf_excerpt ht]
    exact hsources source hm text htext
  · have hstrokes := s.charsOf_strokes charset line
    refine hlead.getElem?_cells rfl ?_ ?_
    · rw [hstrokes, List.mem_map]
      rintro ⟨column, -, h⟩
      exact strokeChar_ne_newline charset _ h
    · rw [shownAt] at hc
      split at hc
      · rw [hstrokes, List.getElem?_map, List.getElem?_range' (by omega), Option.map_some, ← hc,
          Nat.one_mul, Nat.add_comm]
      · cases hc
  · obtain ⟨rest, hhead, hrest⟩ := head_labelRow charset ho hs
    refine hlead.getElem?_cells hhead ?_ ?_
    · rw [hrest, List.mem_append, List.mem_map, List.mem_append, not_or, not_or]
      refine ⟨?_, Glyph.newline_not_mem_draw charset _, by decide⟩
      rintro ⟨column, -, h⟩
      exact labelChar_ne_newline charset s line e column h
    · rw [labelRow, shownAt] at hc
      split at hc
      · have hcell : ((List.range' 1 e.1.start.column).map (s.labelChar charset line e))[k]? =
            some c := by
          rw [List.getElem?_map, List.getElem?_range' (by omega), Option.map_some, ← hc,
            Nat.one_mul, Nat.add_comm]
        obtain ⟨hk, -⟩ := List.getElem?_eq_some_iff.mp hcell
        rw [hrest, List.getElem?_append_left hk]
        exact hcell
      · cases hc

end Sheet

/-- Every row of a layout is printed from the first column, and all but the
title have their first frame glyph right behind the gutter. In the rows of a
displayed line, each column of the source text has its own output column:
text, underline and labels stand under one another. -/
theorem layout_columns (charset : Charset) {sources : Sources}
    (hsources : ∀ source ∈ sources, ∀ text ∈ source.2, '\n' ∉ text.toList) (r : Report) :
    let s := Sheet.ofReport r
    (∀ before row after, rows sources r = before ++ row :: after →
      (∃ rest, (r.layout charset sources).cells =
        Document.cells
            ⟨before.flatMap fun earlier => earlier.fragments charset s.frame ++ [lineFeed]⟩ ++
          row.cells charset s.frame ++ rest) ∧
      ((∀ message, row ≠ .title message) → row.RailAt charset s.frame (s.gutter + 3))) ∧
    ∀ line ∈ s.lineNumbers, s.lineRows sources line <:+: rows sources r ∧
      ∀ row ∈ s.lineRows sources line, ∀ k c, s.shownAt charset sources row k = some c →
        (row.cells charset s.frame)[s.margin + k - 1]? =
          some (((s.margin + k : Nat) : Int), c) := by
  refine ⟨fun before row after h => ⟨layout_cells charset h, fun ht => ?_⟩, fun line hline => ?_⟩
  · have hrow : row ∈ rows sources r := by simp [h]
    refine row.railAt charset _ (fun line hl => ?_) ht
    exact Sheet.length_repr_le_gutter (mem_lineRows_of_mem_rows hrow hl).1
  · refine ⟨infix_rows hline, fun row hrow k c hc => ?_⟩
    cases k with
    | zero =>
      rw [Sheet.shownAt_zero] at hc
      cases hc
    | succ k =>
      have hcell := Sheet.getElem?_cells (Sheet.ofReport_ordered r) hline hsources hrow hc
      have hk : (1 : Int) + (((Sheet.ofReport r).margin + k : Nat) : Int) =
          (((Sheet.ofReport r).margin + (k + 1) : Nat) : Int) := by omega
      rw [← hk]
      exact hcell

/-- A report with one marker, on the second of three characters. -/
def oneMarker : Report :=
  { severity := .error, message := .ofText "no such name",
    markers := .ofList [(⟨"a.txt", ⟨1, 2⟩, ⟨1, 3⟩, by decide, by decide, by decide⟩,
      ⟨.primary, .ofText "here"⟩)] }

def oneText : Sources := [("a.txt", ["f x"])]

theorem sheet_oneMarker : Sheet.ofReport oneMarker = ⟨.error, oneMarker.markers.entries⟩ := by
  rw [Sheet.ofReport, sortEntries]
  exact congrArg _ (List.mergeSort_singleton _)

theorem layout_columns_oneMarker :
    (∀ source ∈ oneText, ∀ text ∈ source.2, '\n' ∉ text.toList) ∧
      ∃ row ∈ rows oneText oneMarker, row.line? = some 1 ∧
        (row.cells .ascii (Sheet.ofReport oneMarker).frame)[8]? = some (9, '^') := by
  have hs : ∀ source ∈ oneText, ∀ text ∈ source.2, '\n' ∉ text.toList := by decide
  have hline : 1 ∈ (Sheet.ofReport oneMarker).lineNumbers := by
    rw [sheet_oneMarker]
    exact Sheet.mem_lineNumbers.mpr ⟨_, List.mem_cons_self, rfl⟩
  obtain ⟨hrows, hcells⟩ := (layout_columns .ascii hs oneMarker).2 1 hline
  let row : Row := .underline 1 .absent [none, some ⟨true, "red"⟩]
  have hrow : row ∈ (Sheet.ofReport oneMarker).lineRows oneText 1 := by
    rw [sheet_oneMarker]
    exact List.mem_cons_of_mem _ List.mem_cons_self
  have hshown : (Sheet.ofReport oneMarker).shownAt .ascii oneText row 2 = some '^' := by
    rw [sheet_oneMarker]
    rfl
  have hmargin : (Sheet.ofReport oneMarker).margin = 7 := by
    rw [sheet_oneMarker]
    rfl
  have hcell := hcells row hrow 2 '^' hshown
  rw [hmargin] at hcell
  exact ⟨hs, row, hrows.subset hrow, rfl, hcell⟩

end Layout

end SpanReport
