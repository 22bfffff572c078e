import SpanReport.Diagnostic
import SpanReport.Proofs.Columns
import Mathlib.Data.List.DropRight

/-!
# Sessions

`run_render`: a session prints the reports that were added since it was last
cleared, each as it is printed by itself. The line feeds that end a report take
the column back to the first one, whatever the report left it at, and a source
counts with the lines that it was last registered with.
-/

namespace SpanReport

-- ---------------------------------------------------------------------------
-- What a layout reads
-- ---------------------------------------------------------------------------

/-- A layout reads no source but for the lines that it shows. -/
theorem Layout.layout_congr (h : ∀ line ∈ (Sheet.ofReport r).lineNumbers,
      (Sheet.ofReport r).text? a line = (Sheet.ofReport r).text? b line) (charset : Charset) :
    r.layout charset a = r.layout charset b := by
  have hlines : (Sheet.ofReport r).lineNumbers.flatMap ((Sheet.ofReport r).lineRows a) =
      (Sheet.ofReport r).lineNumbers.flatMap ((Sheet.ofReport r).lineRows b) := by
    refine List.flatMap_congr fun line hline => ?_
    rw [Sheet.lineRows, Sheet.lineRows, Sheet.excerpt_eq, Sheet.excerpt_eq, h line hline]
  simp only [Report.layout, pieces, rows, hlines]

theorem Layout.layout_congr_lookup {a b : Sources} (h : ∀ name, a.lookup name = b.lookup name)
    (charset : Charset) (r : Report) : r.layout charset a = r.layout charset b := by
  have hline : a.line? = b.line? := by
    funext file line
    cases line with
    | zero => rfl
    | succ n => simp only [Sources.line?, h]
  refine layout_congr (fun line _ => ?_) charset
  rw [Sheet.text?, Sheet.text?, hline]

-- ---------------------------------------------------------------------------
-- Documents one after the other
-- ---------------------------------------------------------------------------

namespace Document

/-- What fragments print from a column on. -/
def printFrom (colours : Bool) (column : Int) (fragments : List Fragment) :
    Except UnknownName String :=
  String.join <$> (placeFrom column fragments).mapM fun (column, f) =>
    if colours then f.emitColoured column else .ok (f.emit column)

theorem render_eq (d : Document) (colours : Bool) :
    d.render colours = printFrom colours 1 d.fragments := by
  cases colours with
  | false => exact congrArg (String.join <$> ·) (List.mapM_pure (m := Except UnknownName)).symm
  | true => exact bind_pure_comp String.join _

theorem printFrom_append (colours : Bool) (column : Int) (first second : List Fragment) :
    printFrom colours column (first ++ second) = (do
      let before ← printFrom colours column first
      let after ← printFrom colours (columnFrom column first) second
      .ok (before ++ after)) := by
  unfold printFrom
  rw [placeFrom_append, List.mapM_append]
  cases (placeFrom column first).mapM fun (column, f) =>
    if colours then f.emitColoured column else .ok (f.emit column) with
  | error e => rfl
  | ok before =>
    cases (placeFrom (columnFrom column first) second).mapM fun (column, f) =>
      if colours then f.emitColoured column else .ok (f.emit column) with
    | error e => rfl
    | ok after => exact congrArg Except.ok String.join_append

end Document

namespace Diagnostic

open Document

theorem columnFrom_ending (column : Int) : columnFrom column ending.fragments = 1 := rfl

theorem printFrom_ending (colours : Bool) (column : Int) :
    printFrom colours column ending.fragments = .ok "\n\n" := by
  cases colours <;> rfl

/-- Documents that each end their line, and the next one, print nothing into
each other. -/
theorem printFrom_documents (colours : Bool) (documents : List Document) :
    printFrom colours 1 (documents.flatMap fun d => (d ++ ending).fragments) =
      String.join <$> documents.mapM fun d => (· ++ "\n\n") <$> d.render colours := by
  induction documents with
  | nil => rfl
  | cons d rest ih =>
    rw [List.flatMap_cons, printFrom_append, fragments_append, columnFrom_append,
      columnFrom_ending, ih, printFrom_append, printFrom_ending, ← render_eq, List.mapM_cons]
    cases d.render colours with
    | error e => rfl
    | ok text =>
      cases rest.mapM fun d => (· ++ "\n\n") <$> d.render colours with
      | error e => rfl
      | ok texts =>
        refine congrArg Except.ok ?_
        rw [String.join_cons, String.append_assoc]

theorem render_reports (charset : Charset) (colours : Bool) (d : Diagnostic) :
    d.render charset colours = String.join <$> d.reports.mapM fun r =>
      (· ++ "\n\n") <$> (r.layout charset d.sources).render colours := by
  have h := printFrom_documents colours (d.reports.map (Report.layout charset d.sources))
  rw [List.flatMap_map, List.mapM_map] at h
  rw [render, render_eq]
  exact h

-- ---------------------------------------------------------------------------
-- Histories
-- ---------------------------------------------------------------------------

def Step.isClear : Step → Bool
  | .clear => true
  | _ => false

/-- The steps after the last one that clears, or all of them. -/
def sinceClear (steps : List Step) : List Step := steps.rtakeWhile (!·.isClear)

def Step.report? : Step → Option Report
  | .report r => some r
  | _ => none

/-- The source that a step registers. -/
def Step.source? : Step → Option (String × List String)
  | .text name content => some (name, textLines content)
  | .lines name content => some (name, content)
  | _ => none

/-- The lines that a name was registered with last. -/
def latest? (name : String) (steps : List Step) : Option (List String) :=
  (steps.filterMap Step.source?).reverse.lookup name

theorem run_concat (steps : List Step) (x : Step) : run (steps ++ [x]) = (run steps).step x := by
  simp [run]

theorem sinceClear_concat (steps : List Step) (x : Step) :
    sinceClear (steps ++ [x]) = if x.isClear then [] else sinceClear steps ++ [x] := by
  rw [sinceClear, List.rtakeWhile_concat]
  cases x.isClear <;> rfl

/-- Registering anew is as good as registering in front of all the others. -/
theorem lookup_register (name other : String) (content : List String) (sources : Sources) :
    (register other content sources).lookup name = ((other, content) :: sources).lookup name := by
  induction sources with
  | nil => rfl
  | cons first rest ih =>
    obtain ⟨earlier, old⟩ := first
    by_cases he : earlier = other
    · subst he
      simp only [register, if_true, List.lookup_cons]
      split <;> rfl
    · simp only [register, if_neg he, List.lookup_cons, ih]
      by_cases hn : name = earlier
      · have hb : (earlier == other) = false := beq_eq_false_iff_ne.mpr he
        simp [hn, hb]
      · have hb : (name == earlier) = false := beq_eq_false_iff_ne.mpr hn
        rw [hb]

theorem lookup_step (h : x.isClear = false) (d : Diagnostic) (name : String) :
    (d.step x).sources.lookup name = (x.source?.toList ++ d.sources).lookup name := by
  cases x with
  | text other content => exact lookup_register name other _ d.sources
  | lines other content => exact lookup_register name other content d.sources
  | report r => rfl
  | clear => cases h

theorem run_reports (steps : List Step) :
    (run steps).reports = (sinceClear steps).filterMap Step.report? := by
  induction steps using List.reverseRecOn with
  | nil => rfl
  | append_singleton steps x ih =>
    rw [run_concat, sinceClear_concat]
    cases x with
    | clear => rfl
    | _ => simp [step, withText, withLines, withReport, ih, Step.report?, Step.isClear]

theorem lookup_run (steps : List Step) (name : String) :
    (run steps).sources.lookup name = latest? name (sinceClear steps) := by
  induction steps using List.reverseRecOn with
  | nil => rfl
  | append_singleton steps x ih =>
    rw [run_concat, sinceClear_concat]
    cases hx : x.isClear with
    | true =>
      cases x with
      | clear => rfl
      | _ => cases hx
    | false =>
      simp only [Bool.false_eq_true, if_false, latest?, List.filterMap_append, List.reverse_append,
        List.lookup_append, lookup_step hx, ih]
      cases x <;> rfl

/-- A session prints the reports added since it was last cleared, in their
order: each as it is printed by itself beside the sources as they were last
registered, before or after the report was added, and two line feeds. The
first report that cannot be printed is what the session fails with. -/
theorem run_render {sources : Sources}
    (h : ∀ name, sources.lookup name = latest? name (sinceClear steps))
    (charset : Charset) (colours : Bool) :
    (run steps).render charset colours =
      String.join <$> ((sinceClear steps).filterMap Step.report?).mapM fun r =>
        (· ++ "\n\n") <$> (r.layout charset sources).render colours := by
  have hlayout (r : Report) : r.layout charset (run steps).sources = r.layout charset sources :=
    Layout.layout_congr_lookup (fun name => (lookup_run steps name).trans (h name).symm) charset r
  rw [render_reports, run_reports]
  simp only [hlayout]

/-- A source that is registered again after the report was added. -/
def cleared : List Step :=
  [.text "b.txt" "x", .report Layout.oneMarker, .clear, .text "a.txt" "old",
    .report Layout.oneMarker, .lines "a.txt" ["new"]]

theorem run_render_cleared : (run cleared).render .ascii false =
    .ok ((Layout.oneMarker.layout .ascii [("a.txt", ["new"])]).renderPlain ++ "\n\n") := by
  have hsources (name : String) :
      List.lookup name [("a.txt", ["new"])] = latest? name (sinceClear cleared) := by
    have hlatest : latest? name (sinceClear cleared) =
        List.lookup name [("a.txt", ["new"]), ("a.txt", ["old"])] := rfl
    rw [hlatest]
    cases hn : name == "a.txt" <;> simp [List.lookup_cons, hn]
  refine (run_render hsources .ascii false).trans (congrArg Except.ok ?_)
  exact (String.join_cons).trans (String.append_empty ..)

end Diagnostic

end SpanReport
