import SpanReport.Proofs.Outcomes
import SpanReport.Proofs.Rows
import SpanReport.Proofs.Session

/-!
# Printing on a stream

A document is written fragment by fragment, and printing it ends with the column
that its last fragment reaches, or at the first name that has no code.
`print_reached`: the column is at any time the one behind the text written so far,
as it stands without colours, so a document that is printed from where another one
has ended is printed as if the two were one.
-/

namespace SpanReport

-- ---------------------------------------------------------------------------
-- Texts
-- ---------------------------------------------------------------------------

namespace Text

/-- What stands behind the last line feed of a text. -/
def lastLine (text : List Char) : List Char := text.rtakeWhile (· != '\n')

theorem lastLine_concat (text : List Char) (c : Char) :
    lastLine (text ++ [c]) = if c = '\n' then [] else lastLine text ++ [c] := by
  by_cases hc : c = '\n' <;> simp [lastLine, hc]

theorem advance_one (text : List Char) : advance 1 text = 1 + (lastLine text).length := by
  induction text using List.reverseRecOn with
  | nil => rfl
  | append_singleton text c ih =>
    rw [advance_append, ih, lastLine_concat]
    by_cases hc : c = '\n'
    · simp [advance, hc]
    · simp [advance, hc, Int.add_assoc]

/-- Blanks behind every line feed stand between any two lines. -/
theorem hang_eq_intercalate (indent : Nat) (text : List Char) : hang indent text =
    List.intercalate ('\n' :: List.replicate indent ' ') (text.splitOn '\n') := by
  rw [← lines_eq_splitOn]
  induction text with
  | nil => rfl
  | cons c rest ih =>
    obtain ⟨line, others, hlines⟩ := List.exists_cons_of_ne_nil (lines_ne_nil rest)
    by_cases hc : c = '\n'
    · subst hc
      simp [hlines, ih]
    · simp [hang_cons hc, lines_cons hc hlines, hlines, ih, Layout.intercalate_cons]

end Text

-- ---------------------------------------------------------------------------
-- Streams
-- ---------------------------------------------------------------------------

theorem Printout.andThen_assoc (p : Printout) (second third : Int → Printout) :
    (p.andThen second).andThen third = p.andThen fun column => (second column).andThen third := by
  obtain ⟨texts, e | column⟩ := p
  · rfl
  · cases h : (second column).reached <;> simp [andThen, h]

namespace Fragment

/-- The text that is printed behind what was written before. A hanging fragment has
its further lines begin where the last line ends. -/
def Prints (f : Fragment) (before text : String) : Prop :=
  let indent := if f.hanging then (Text.lastLine before.toList).length else 0
  text.toList =
    List.intercalate ('\n' :: List.replicate indent ' ') (f.content.toList.splitOn '\n')

end Fragment

namespace Document

theorem printAll_append (colours : Bool) (column : Int) (first second : List Fragment) :
    printAll colours column (first ++ second) =
      (printAll colours column first).andThen fun reached => printAll colours reached second := by
  induction first generalizing column with
  | nil => rfl
  | cons f rest ih =>
    simp only [List.cons_append, printAll, ih, Printout.andThen_assoc]

variable {colours : Bool} {column reached : Int} {fragments : List Fragment}

theorem printAll_cons_ok {f : Fragment} (h : f.emitIn colours column = .ok text) (rest) :
    printAll colours column (f :: rest) =
      ⟨text :: (printAll colours (f.next column) rest).texts,
        (printAll colours (f.next column) rest).reached⟩ := by
  have hnext : Text.advance column (f.emit column).toList = f.next column := by
    simp [Fragment.emit, Fragment.next]
  simp [printAll, Fragment.print, h, hnext, Printout.andThen]

theorem printAll_cons_error {f : Fragment} (h : f.emitIn colours column = .error e) (rest) :
    printAll colours column (f :: rest) = ⟨[], .error e⟩ := by
  simp [printAll, Fragment.print, h, Printout.andThen]

/-- The fragments are written where they are placed. -/
theorem mapM_emitIn (colours : Bool) (column : Int) (fragments : List Fragment) :
    ((placeFrom column fragments).mapM fun p => p.2.emitIn colours p.1) =
      (fun _ => (printAll colours column fragments).texts) <$>
        (printAll colours column fragments).reached := by
  induction fragments generalizing column with
  | nil => rfl
  | cons f rest ih =>
    rw [placeFrom, List.mapM_cons, ih]
    cases h : f.emitIn colours column with
    | error e =>
      rw [printAll_cons_error h]
      rfl
    | ok text =>
      rw [printAll_cons_ok h, ok_bind]
      cases (printAll colours (f.next column) rest).reached <;> rfl

theorem render_eq_print (colours : Bool) (d : Document) : d.render colours =
    (fun _ => String.join (d.print colours 1).texts) <$> (d.print colours 1).reached := by
  have hplaced : d.render colours =
      String.join <$> (placeFrom 1 d.fragments).mapM fun p => p.2.emitIn colours p.1 :=
    render_eq d colours
  rw [hplaced, mapM_emitIn, Functor.map_map]
  rfl

theorem reached_printAll (h : (printAll colours column fragments).reached = .ok reached) :
    reached = columnFrom column fragments := by
  induction fragments generalizing column with
  | nil => exact (Except.ok.inj h).symm
  | cons f rest ih =>
    cases hf : f.emitIn colours column with
    | error e =>
      rw [printAll_cons_error hf] at h
      cases h
    | ok text =>
      rw [printAll_cons_ok hf] at h
      exact ih h

theorem printAll_plain (column : Int) (fragments : List Fragment) :
    printAll false column fragments =
      ⟨(placeFrom column fragments).map fun p => p.2.emit p.1,
        .ok (columnFrom column fragments)⟩ := by
  induction fragments generalizing column with
  | nil => rfl
  | cons f rest ih =>
    have hf : f.emitIn false column = .ok (f.emit column) := rfl
    rw [printAll_cons_ok hf, ih]
    rfl

theorem columnFrom_eq (column : Int) (fragments : List Fragment) :
    columnFrom column fragments = Text.advance column
      ((placeFrom column fragments).flatMap fun p => p.2.chars p.1) := by
  induction fragments generalizing column with
  | nil => rfl
  | cons f rest ih =>
    rw [placeFrom, List.flatMap_cons, Text.advance_append]
    exact ih _

theorem column_eq (d : Document) : d.column = 1 + (Text.lastLine d.renderPlain.toList).length := by
  rw [toList_renderPlain, ← Text.advance_one]
  exact columnFrom_eq 1 d.fragments

theorem prints_emit (before : List Fragment) (f : Fragment) :
    f.Prints (renderPlain ⟨before⟩) (f.emit (columnFrom 1 before)) := by
  have hcolumn : columnFrom 1 before = 1 + (Text.lastLine (renderPlain ⟨before⟩).toList).length :=
    column_eq ⟨before⟩
  have hindent : f.indent (columnFrom 1 before) =
      if f.hanging then (Text.lastLine (renderPlain ⟨before⟩).toList).length else 0 := by
    have hback (n : Nat) : ((1 : Int) + n - 1).toNat = n := by omega
    rw [Fragment.indent, hcolumn, hback]
  rw [Fragment.Prints, Fragment.emit, String.toList_ofList, Fragment.chars, hindent,
    Text.hang_eq_intercalate]

/-- Without colours, each fragment is written as its text with an indent behind every
line feed, which for a hanging one is the length of the last line written before it.
In either mode a document ends one column behind the last line of its plain text, and
printing two documents as one is printing the second one from where the first ends. -/
theorem print_reached (d : Document) :
    (String.join (d.print false 1).texts = d.renderPlain ∧
      (d.print false 1).reached = .ok d.column ∧
      ∀ before f after, d.fragments = before ++ f :: after → ∃ written text later,
        (d.print false 1).texts = written ++ text :: later ∧ written.length = before.length ∧
          f.Prints (String.join written) text) ∧
    (∀ colours, d.render colours =
        (fun _ => String.join (d.print colours 1).texts) <$> (d.print colours 1).reached ∧
      ∀ reached, (d.print colours 1).reached = .ok reached →
        reached = 1 + (Text.lastLine d.renderPlain.toList).length) ∧
    ∀ colours column other, (d ++ other).print colours column =
      (d.print colours column).andThen fun reached => other.print colours reached := by
  refine ⟨⟨?_, ?_, ?_⟩, ?_, ?_⟩
  · rw [print, printAll_plain]
    rfl
  · rw [print, printAll_plain]
    rfl
  · intro before f after hsplit
    have htexts : (d.print false 1).texts = ((placeFrom 1 before).map fun p => p.2.emit p.1) ++
        f.emit (columnFrom 1 before) :: (placeFrom (f.next (columnFrom 1 before)) after).map
          fun p => p.2.emit p.1 := by
      rw [print, printAll_plain, hsplit, placeFrom_append, List.map_append]
      rfl
    have hlength : (placeFrom 1 before).length = before.length := by
      rw [← List.length_map Prod.snd, map_snd_placeFrom]
    refine ⟨_, _, _, htexts, by rw [List.length_map, hlength], ?_⟩
    exact prints_emit before f
  · exact fun colours =>
      ⟨render_eq_print colours d, fun reached h => (reached_printAll h).trans (column_eq d)⟩
  · intro colours column other
    exact printAll_append colours column d.fragments other.fragments

end Document

end SpanReport
