import SpanReport.Proofs.Displayed
import SpanReport.Proofs.Printed
import SpanReport.Proofs.Session

/-!
# Source text in a layout

A displayed line is read from the file of the least marker that touches it, and
`layout_eq_of_agree` says that nothing else is read of the sources.
`layout_excerpts`: the text is shown character by character, each one in the
colour of the least marker that covers it, and is cut only where that colour
changes.
-/

namespace SpanReport

-- ---------------------------------------------------------------------------
-- Lines of a text
-- ---------------------------------------------------------------------------

namespace Text

/-- What stands in a text between two line feeds, or between one of them and an
end of the text. Lines count from one. -/
def IsLine (text : List Char) (number : Nat) (line : List Char) : Prop :=
  ∃ before after, text = before ++ line ++ after ∧ '\n' ∉ line ∧
    (∀ c ∈ before.getLast?, c = '\n') ∧ (∀ c ∈ after.head?, c = '\n') ∧
    before.count '\n' + 1 = number

theorem count_flatMap_newline {ls : List (List Char)} (h : ∀ line ∈ ls, '\n' ∉ line) :
    (ls.flatMap (· ++ ['\n'])).count '\n' = ls.length := by
  induction ls with
  | nil => rfl
  | cons line ls ih =>
    obtain ⟨hline, hls⟩ := List.forall_mem_cons.mp h
    rw [List.flatMap_cons, List.count_append, List.count_append, List.count_eq_zero.mpr hline,
      ih hls, List.length_cons]
    simp [Nat.add_comm]

theorem getLast?_flatMap_newline (ls : List (List Char)) :
    ∀ c ∈ (ls.flatMap (· ++ ['\n'])).getLast?, c = '\n' := by
  obtain rfl | ⟨front, last, rfl⟩ := List.eq_nil_or_concat ls
  · nofun
  · simp [List.flatMap_append]

theorem isLine_of_getElem? (h : (lines text)[i]? = some line) : IsLine text (i + 1) line := by
  obtain ⟨hi, hline⟩ := List.getElem?_eq_some_iff.mp h
  let before := (lines text).take i
  let after := (lines text).drop (i + 1)
  have hsplit : lines text = before ++ line :: after := by
    rw [← hline, List.getElem_cons_drop, List.take_append_drop]
  have hfree : ∀ l ∈ before, '\n' ∉ l :=
    fun l hl => newline_not_mem_line (List.mem_of_mem_take hl)
  have htext : text = before.flatMap (· ++ ['\n']) ++ line ++ after.flatMap (['\n'] ++ ·) := by
    rw [← Layout.intercalate_append_cons, ← hsplit]
    exact (joinLines_lines text).symm
  refine ⟨_, _, htext, newline_not_mem_line (List.mem_of_getElem? h),
    getLast?_flatMap_newline before, ?_, ?_⟩
  · cases after <;> simp
  · rw [count_flatMap_newline hfree, List.length_take_of_le (Nat.le_of_lt hi)]

end Text

-- ---------------------------------------------------------------------------
-- What is read
-- ---------------------------------------------------------------------------

namespace Layout

variable {r : Report}

theorem least_touching : ((Sheet.ofReport r).touching line).head? = some e ↔
    Least r.markers.entries (·.1.touches line) e := by
  rw [Sheet.touching, List.head?_filter, least_iff]

/-- A layout is the same for all sources that agree in the lines it displays, each
of them in the file of the least marker that touches it. -/
theorem layout_eq_of_agree {a b : Sources}
    (h : ∀ line e, Least r.markers.entries (·.1.touches line) e →
      a.line? e.1.file line = b.line? e.1.file line) (charset : Charset) :
    r.layout charset a = r.layout charset b := by
  refine layout_congr (fun line _ => ?_) charset
  rw [Sheet.text?, Sheet.text?]
  cases hf : ((Sheet.ofReport r).touching line).head? with
  | none => rfl
  | some e => exact h line e (least_touching.mp hf)

/-- Two markers at the same place of two files. -/
def alike : Report :=
  .build .error {} [.mark { firstLetter with file := "b.txt" } (note "b"),
    .mark firstLetter (note "a")]

theorem layout_eq_of_agree_alike :
    let a : Sources := [("a.txt", ["f x"]), ("b.txt", ["y"])]
    let b : Sources := [("b.txt", []), ("a.txt", ["f x", "g"])]
    (∀ line e, Least alike.markers.entries (·.1.touches line) e →
      a.line? e.1.file line = b.line? e.1.file line) ∧
    alike.layout .unicode a = alike.layout .unicode b := by
  intro a b
  have h : ∀ line e, Least alike.markers.entries (·.1.touches line) e →
      a.line? e.1.file line = b.line? e.1.file line := by
    intro line e he
    have hlines : ∀ e ∈ alike.markers.entries, e.1.start.line = 1 ∧ e.1.stop.line = 1 := by decide
    have hfiles : ∀ e ∈ alike.markers.entries, e.1.file = "a.txt" ∨ firstLetter < e.1 := by decide
    obtain rfl : line = 1 := by
      have htouches := he.passes
      simp only [Span.touches, Bool.and_eq_true, decide_eq_true_eq] at htouches
      have := hlines e he.mem
      omega
    rcases hfiles e he.mem with hfile | hlt
    · rw [hfile]
      rfl
    · exact absurd (he.le (firstLetter, note "a") (by decide) rfl)
        (not_le_of_gt (Span.lt_iff_rank.mp hlt))
  exact ⟨h, layout_eq_of_agree h .unicode⟩

-- ---------------------------------------------------------------------------
-- Cutting a text into runs
-- ---------------------------------------------------------------------------

/-- The style of source text in a colour, or in none. -/
def runStyle : Option String → Style
  | some colour => bold colour
  | none => Style.plain

theorem Run.draw_piece (charset : Charset) (run : Run) :
    run.piece.draw charset = { content := run.text, style := runStyle run.colour } := by
  obtain ⟨text, colour⟩ := run
  cases colour <;> rfl

theorem foreground_runStyle (colour : Option String) : (runStyle colour).foreground = colour := by
  cases colour <;> rfl

/-- In a group of characters of one colour, the first one tells the colour of all. -/
theorem colour_of_mem_group {group : List (Char × Option String)}
    (h : group.IsChain fun a b => (a.2 == b.2) = true) (hm : cell ∈ group) :
    group.head?.bind Prod.snd = cell.2 := by
  induction group with
  | nil => cases hm
  | cons first rest ih =>
    rcases List.mem_cons.mp hm with rfl | hm
    · rfl
    · obtain ⟨hfirst, hrest⟩ := List.isChain_cons.mp h
      obtain ⟨second, others, rfl⟩ := List.exists_cons_of_ne_nil (List.ne_nil_of_mem hm)
      have heq : first.2 = second.2 := by simpa using hfirst second rfl
      exact heq.trans (ih hrest hm)

theorem shades_runs (charset : Charset) (colourAt : Nat → Option String) (text : List Char) :
    shades ((Sheet.runs colourAt text).map fun run => run.piece.draw charset) =
      text.mapIdx fun i c => (c, runStyle (colourAt (i + 1))) := by
  let cells := text.mapIdx fun i c => (c, colourAt (i + 1))
  have hgroup : ∀ group ∈ cells.splitBy fun a b => a.2 == b.2,
      group.map (fun cell => (cell.1, runStyle (group.head?.bind Prod.snd))) =
        group.map fun cell => (cell.1, runStyle cell.2) := by
    intro group hg
    refine List.map_congr_left fun cell hc => ?_
    rw [colour_of_mem_group (List.isChain_of_mem_splitBy hg) hc]
  have hshades : shades ((Sheet.runs colourAt text).map fun run => run.piece.draw charset) =
      (cells.splitBy fun a b => a.2 == b.2).flatMap fun group =>
        group.map fun cell => (cell.1, runStyle (group.head?.bind Prod.snd)) := by
    simp [shades, Sheet.runs, cells, Run.draw_piece, List.flatMap_map, Function.comp_def]
  rw [hshades, List.flatMap_congr hgroup, List.flatMap_def, ← List.map_flatten,
    List.flatten_splitBy]
  exact List.ext_getElem? fun i => by simp [cells, Function.comp_def]

theorem text_of_mem_runs (h : run ∈ Sheet.runs colourAt text) : run.text ≠ "" := by
  obtain ⟨group, hg, rfl⟩ := List.mem_map.mp h
  simpa using List.ne_nil_of_mem_splitBy hg

/-- Two runs that follow each other differ in colour. -/
theorem isChain_runs (colourAt : Nat → Option String) (text : List Char) :
    (Sheet.runs colourAt text).IsChain fun a b => a.colour ≠ b.colour := by
  rw [Sheet.runs, List.isChain_map]
  refine List.IsChain.imp_of_mem_imp (fun first second hf _ hcut => ?_)
    (List.isChain_getLast_head_splitBy _ _)
  obtain ⟨hfirst, hsecond, hne⟩ := hcut
  have hlast := colour_of_mem_group (List.isChain_of_mem_splitBy hf) (List.getLast_mem hfirst)
  simp only [hlast, List.head?_eq_some_head hsecond]
  simpa using hne

-- ---------------------------------------------------------------------------
-- What is shown
-- ---------------------------------------------------------------------------

/-- The style of a character of a displayed line. -/
inductive Tinted (r : Report) (line column : Nat) : Style → Prop
  | covered (h : Least r.markers.entries (·.1.covers line column) e) :
      Tinted r line column (bold (e.2.colour r.severity))
  | bare (h : ∀ e ∈ r.markers.entries, ¬ e.1.covers line column) : Tinted r line column Style.plain

/-- The fragments that show the text of a line. -/
structure Excerpt (r : Report) (line : Nat) (text : String) (fragments : List Fragment) :
    Prop where
  text_eq : (fragments.flatMap fun f => f.content.toList) = text.toList
  shown : ∀ f ∈ fragments, f.content ≠ ""
  tinted : ∀ i c style, (shades fragments)[i]? = some (c, style) → Tinted r line (i + 1) style
  alternating : fragments.IsChain fun a b => a.style.foreground ≠ b.style.foreground

theorem Sheet.colourAt_eq (s : Sheet) (line column : Nat) :
    s.colourAt line column = (s.entries.find? (·.1.covers line column)).map s.colour := by
  have htest (e : Entry) : decide (e.1.touches line ∧ e.1.covers line column) =
      e.1.covers line column := by
    rw [Bool.eq_iff_iff, decide_eq_true_eq]
    exact and_iff_right_of_imp Span.touches_of_covers
  rw [colourAt, touching, List.find?_filter]
  simp only [htest]

theorem tinted_colourAt (r : Report) (line column : Nat) :
    Tinted r line column (runStyle ((Sheet.ofReport r).colourAt line column)) := by
  rw [Sheet.colourAt_eq]
  cases hf : (Sheet.ofReport r).entries.find? (·.1.covers line column) with
  | none =>
    exact .bare fun e he => List.find?_eq_none.mp hf e (Sheet.mem_ofReport_entries.mpr he)
  | some e => exact .covered (least_iff.mp hf)

theorem excerpt_runs (charset : Charset) (r : Report) (line : Nat) (text : String) :
    Excerpt r line text ((Sheet.runs ((Sheet.ofReport r).colourAt line) text.toList).map
      fun run => run.piece.draw charset) where
  text_eq := by
    simp only [List.flatMap_map, Run.draw_piece]
    exact flatMap_runs _ _
  shown := by
    refine List.forall_mem_map.mpr fun run hrun => ?_
    rw [Run.draw_piece]
    exact text_of_mem_runs hrun
  tinted := by
    intro i c style h
    rw [shades_runs, List.getElem?_mapIdx] at h
    obtain ⟨_, -, hc⟩ := Option.map_eq_some_iff.mp h
    obtain ⟨-, rfl⟩ := Prod.mk.inj hc
    exact tinted_colourAt r line (i + 1)
  alternating := by
    simp only [List.isChain_map, Run.draw_piece, foreground_runStyle]
    exact isChain_runs _ _

theorem lookup_withText (d : Diagnostic) (name content : String) :
    (d.withText name content).sources.lookup name = some (Diagnostic.textLines content) := by
  rw [Diagnostic.withText, Diagnostic.withLines, Diagnostic.lookup_register]
  exact List.lookup_cons_self

theorem line?_eq_bind (h : 1 ≤ line) (sources : Sources) (file : String) :
    sources.line? file line = (sources.lookup file).bind (·[line - 1]?) := by
  obtain ⟨n, rfl⟩ := Nat.exists_eq_add_of_le' h
  rfl

theorem one_le_of_touches {span : Span} (h : span.touches line) : 1 ≤ line := by
  have hone := span.one_le_line
  simp only [Span.touches, Bool.and_eq_true, decide_eq_true_eq] at h
  omega

theorem text?_eq (h : Least r.markers.entries (·.1.touches line) e) (sources : Sources) :
    (Sheet.ofReport r).text? sources line = (sources.lookup e.1.file).bind (·[line - 1]?) := by
  rw [Sheet.text?, least_touching.mpr h, ← line?_eq_bind (one_le_of_touches h.passes)]
  rfl

/-- Gutter and bracket stand before the text of a line. -/
theorem fragments_source {s : Sheet} (charset : Charset) (h : line ∈ s.lineNumbers)
    (excerpt : Option (List Run)) :
    ∃ lead, (Row.source line (s.sourceBracket line) excerpt).fragments charset s.frame =
        lead.map (Piece.draw charset) ++ (excerptPieces excerpt).map (Piece.draw charset) ∧
      Stretch charset s.margin lead := by
  refine ⟨_, ?_, Sheet.numberMargin_stretch h⟩
  rw [← List.map_append, Row.fragments]
  exact congrArg (List.map (Piece.draw charset)) (List.append_nil _)

/-- A displayed line has one row with its text, behind gutter and bracket. The text
is that of the line in the file of the least marker that touches it. If there is
no such line, a word stands for it. A file that was registered as one text has
the lines between its line feeds. -/
theorem layout_excerpts (charset : Charset) (sources : Sources)
    (h : ∃ e ∈ r.markers.entries, e.1.touches line) :
    ∃ e row lead excerpt, Least r.markers.entries (·.1.touches line) e ∧
      partRows sources r line .text = [row] ∧
      row.fragments charset (Sheet.ofReport r).frame =
        lead.map (Piece.draw charset) ++ excerpt ∧
      Stretch charset (Sheet.ofReport r).margin lead ∧
      (∀ lines text, sources.lookup e.1.file = some lines → lines[line - 1]? = some text →
        Excerpt r line text excerpt) ∧
      ((∀ lines, sources.lookup e.1.file = some lines → lines.length < line) →
        excerpt = [{ content := "<no line>", style := inked "magenta" }]) ∧
      ∀ (d : Diagnostic) content,
        sources.lookup e.1.file = (d.withText e.1.file content).sources.lookup e.1.file →
        line ≤ content.toList.count '\n' + 1 →
        ∃ text, Text.IsLine content.toList line text.toList ∧ Excerpt r line text excerpt := by
  have hline : line ∈ (Sheet.ofReport r).lineNumbers := by
    obtain ⟨e, he, ht⟩ := h
    exact Sheet.mem_lineNumbers.mpr ⟨e, (sortEntries_perm _).mem_iff.mpr he, ht⟩
  obtain ⟨e, hhead⟩ := Option.ne_none_iff_exists'.mp
    (mt List.head?_eq_none_iff.mp (Sheet.touching_ne_nil hline))
  have hleast := least_touching.mp hhead
  have hone := one_le_of_touches hleast.passes
  obtain ⟨lead, hfragments, hlead⟩ :=
    fragments_source charset hline ((Sheet.ofReport r).excerpt sources line)
  have hexcerpt {lines : List String} {text : String}
      (hlines : sources.lookup e.1.file = some lines) (htext : lines[line - 1]? = some text) :
      Excerpt r line text ((excerptPieces ((Sheet.ofReport r).excerpt sources line)).map
        (Piece.draw charset)) := by
    rw [Sheet.excerpt_eq, text?_eq hleast, hlines, Option.bind_some, htext, Option.map_some,
      excerptPieces, List.map_map]
    exact excerpt_runs charset r line text
  refine ⟨e, _, lead, _, hleast, partRows_text hline sources, hfragments, hlead,
    fun lines text => hexcerpt, fun hnone => ?_, fun d content hd hcount => ?_⟩
  · have htext : (Sheet.ofReport r).text? sources line = none := by
      rw [text?_eq hleast, Option.bind_eq_none_iff]
      intro lines hlines
      have hshort := hnone lines hlines
      exact List.getElem?_eq_none (by omega)
    rw [Sheet.excerpt_eq, htext]
    rfl
  · rw [lookup_withText] at hd
    have hi : line - 1 < (Text.lines content.toList).length := by
      rw [Text.length_lines]
      omega
    have htext := List.getElem?_eq_getElem hi
    have hisLine := Text.isLine_of_getElem? htext
    rw [Nat.sub_add_cancel hone] at hisLine
    refine ⟨String.ofList (Text.lines content.toList)[line - 1], by simpa using hisLine,
      hexcerpt hd ?_⟩
    rw [Diagnostic.textLines, List.getElem?_map, htext, Option.map_some]

theorem layout_excerpts_inOrder : (∃ e ∈ inOrder.markers.entries, e.1.touches 1) ∧
    ∃ (row : Row) (lead : List Piece) (excerpt : List Fragment) (text : String),
      partRows (Diagnostic.empty.withText "a.txt" "f x\ny").sources inOrder 1 .text = [row] ∧
      row.fragments .ascii (Sheet.ofReport inOrder).frame =
        lead.map (Piece.draw .ascii) ++ excerpt ∧
      Text.IsLine "f x\ny".toList 1 text.toList ∧ Excerpt inOrder 1 text excerpt := by
  have h : ∃ e ∈ inOrder.markers.entries, e.1.touches 1 := by decide
  obtain ⟨e, row, lead, excerpt, hleast, hrow, hfragments, -, -, -, htext⟩ :=
    layout_excerpts .ascii (Diagnostic.empty.withText "a.txt" "f x\ny").sources h
  have hfiles : ∀ e ∈ inOrder.markers.entries, e.1.file = "a.txt" := by decide
  have hfile : e.1.file = "a.txt" := hfiles e hleast.mem
  rw [hfile] at htext
  obtain ⟨text, hline, hexcerpt⟩ := htext Diagnostic.empty "f x\ny" rfl (by decide)
  exact ⟨h, row, lead, excerpt, text, hrow, hfragments, hline, hexcerpt⟩

end Layout

end SpanReport
