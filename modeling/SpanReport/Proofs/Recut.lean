import SpanReport.Proofs.Cells
import SpanReport.Proofs.Indents
import SpanReport.Proofs.Reword

/-!
# Messages cut anew

A message may be cut into fragments in many ways. `layout_recut`: another cut
leaves the printed report as it was just if every line feed of a message still
stands in a fragment that begins at the same column. As long as no fragment but
the first one holds a line feed, all lines of a message begin at the column
where the message begins.
-/

namespace SpanReport

/-- The same text in one fragment without style. -/
def Document.uncut (d : Document) : Document := .ofText (String.ofList d.wording)

/-- Reports that agree once all messages are uncut differ at most in styles and
cuts. -/
def Report.uncut (r : Report) : Report := r.reword Document.uncut

namespace Document

theorem wording_uncut (d : Document) : d.uncut.wording = d.wording := by
  simp [uncut, ofText, wording]

theorem wording_restyle (style : Style) (d : Document) : (d.restyle style).wording = d.wording := by
  simp [restyle, Fragment.restyle, wording, List.flatMap_map]

theorem wording_hang (d : Document) : d.hang.wording = d.wording := by
  simp [hang, Fragment.hang, wording, List.flatMap_map]

/-- What fragments print from a column on, by themselves. -/
def charsFrom (column : Int) (fragments : List Fragment) : List Char :=
  (placeFrom column fragments).flatMap fun (column, f) => f.chars column

theorem charsFrom_append (column : Int) (first second : List Fragment) :
    charsFrom column (first ++ second) =
      charsFrom column first ++ charsFrom (columnFrom column first) second := by
  rw [charsFrom, placeFrom_append, List.flatMap_append]
  rfl

end Document

namespace Layout

-- ---------------------------------------------------------------------------
-- Rows between line feeds
-- ---------------------------------------------------------------------------

/-- Whatever is read off fragments from left to right is read off line by line,
since a line feed takes the column back to the first one. -/
theorem read_lines (feed : List α) {F : Int → List Fragment → List α}
    (hnil : ∀ column, F column [] = [])
    (happend : ∀ column first second,
      F column (first ++ second) = F column first ++ F (Document.columnFrom column first) second)
    (hfeed : ∀ column, F column [lineFeed] = feed) (lines : List (List Fragment)) :
    F 1 (List.intercalate [lineFeed] lines) = List.intercalate feed (lines.map (F 1)) := by
  induction lines with
  | nil => exact hnil 1
  | cons first rest ih =>
    cases rest with
    | nil => simp
    | cons second rest =>
      have hcolumn : Document.columnFrom 1 (first ++ [lineFeed]) = 1 :=
        Document.columnFrom_append 1 first [lineFeed]
      rw [List.intercalate_cons_cons, happend, happend, hfeed, hcolumn, ih]
      simp only [List.map_cons, List.intercalate_cons_cons]

theorem intercalate_inj {sep : List α} {xs ys : List (List α)}
    (h : xs.map List.length = ys.map List.length) :
    List.intercalate sep xs = List.intercalate sep ys ↔ xs = ys := by
  refine ⟨fun he => ?_, fun he => by rw [he]⟩
  induction xs generalizing ys with
  | nil =>
    obtain rfl : ys = [] := List.map_eq_nil_iff.mp h.symm
    rfl
  | cons x xs ih =>
    cases ys with
    | nil => cases h
    | cons y ys =>
      obtain ⟨hxy, hrest⟩ := List.cons.inj h
      cases xs with
      | nil =>
        obtain rfl : ys = [] := List.map_eq_nil_iff.mp hrest.symm
        simpa using he
      | cons x' xs =>
        cases ys with
        | nil => cases hrest
        | cons y' ys =>
          rw [List.intercalate_cons_cons, List.intercalate_cons_cons, List.append_assoc,
            List.append_assoc] at he
          obtain ⟨rfl, he⟩ := List.append_inj he hxy
          rw [ih hrest (List.append_cancel_left (List.append_cancel_left he))]

-- ---------------------------------------------------------------------------
-- The message of a row
-- ---------------------------------------------------------------------------

namespace Row

variable (charset : Charset) (f : Frame)

/-- The column at which the message of a row begins. -/
def messageColumn (row : Row) : Int :=
  Document.columnFrom 1 ((row.head f).map (Piece.draw charset))

/-- The indents behind the line feeds of a message, each that of the fragment
which holds the line feed. -/
def messageIndents (row : Row) : List Nat :=
  Document.indentsFrom (row.messageColumn charset f) (row.message f).hang.fragments

theorem wording_eq (row : Row) : Document.wording ⟨row.fragments charset f⟩ =
    charsOf charset (row.head f) ++ (row.message f).wording := by
  rw [fragments_eq, Document.wording, List.flatMap_append, List.flatMap_map,
    ← Document.wording_hang]
  rfl

theorem charsFrom_eq (row : Row) : Document.charsFrom 1 (row.fragments charset f) =
    charsOf charset (row.head f) ++
      Text.hangEach (row.messageIndents charset f) (row.message f).wording := by
  have hhead : Document.charsFrom 1 ((row.head f).map (Piece.draw charset)) =
      charsOf charset (row.head f) := by
    have hplain : ∀ fragment ∈ (row.head f).map (Piece.draw charset), fragment.hanging = false :=
      List.forall_mem_map.mpr (row.head_hanging f)
    rw [Document.charsFrom, Document.chars_of_not_hanging hplain, List.flatMap_map]
    rfl
  rw [fragments_eq, Document.charsFrom_append, hhead, ← Document.wording_hang]
  exact congrArg _ (Document.chars_eq_hangEach _ _)

theorem indentsFrom_eq (row : Row) : Document.indentsFrom 1 (row.fragments charset f) =
    Document.indentsFrom 1 ((row.head f).map (Piece.draw charset)) ++
      row.messageIndents charset f := by
  rw [fragments_eq, Document.indentsFrom_append]
  rfl

theorem wording_message_uncut (row : Row) :
    ((row.reword Document.uncut).message f).wording = (row.message f).wording := by
  cases row <;> simp [reword, message, rewordEntry, Marker.reword, Marker.colour,
    Document.wording_restyle, Document.wording_uncut]

end Row

-- ---------------------------------------------------------------------------
-- Layouts
-- ---------------------------------------------------------------------------

theorem rows_uncut (sources : Sources) (r : Report) :
    rows sources r.uncut = (rows sources r).map (Row.reword Document.uncut) :=
  rows_reword Document.uncut sources r

theorem frame_uncut (r : Report) : (Sheet.ofReport r.uncut).frame = (Sheet.ofReport r).frame := by
  rw [Report.uncut, ofReport_reword, Sheet.frame_reword]

/-- A printed layout, row by row. -/
theorem toList_renderPlain_layout (charset : Charset) (sources : Sources) (r : Report) :
    (r.layout charset sources).renderPlain.toList =
      Text.joinLines ((rows sources r).map fun row =>
        charsOf charset (row.head (Sheet.ofReport r).frame) ++
          Text.hangEach (row.messageIndents charset (Sheet.ofReport r).frame)
            (row.message (Sheet.ofReport r).frame).wording) := by
  have hread := read_lines ['\n'] (F := Document.charsFrom) (fun _ => rfl)
    Document.charsFrom_append (fun _ => rfl)
    ((rows sources r).map (Row.fragments charset (Sheet.ofReport r).frame))
  rw [Document.toList_renderPlain, Document.placed, fragments_layout]
  refine hread.trans ?_
  rw [List.map_map, Text.joinLines]
  exact congrArg _ (List.map_congr_left fun row _ => row.charsFrom_eq charset _)

theorem indents_layout (charset : Charset) (sources : Sources) (r : Report) :
    (r.layout charset sources).indents = List.intercalate [0] ((rows sources r).map fun row =>
      Document.indentsFrom 1 (row.fragments charset (Sheet.ofReport r).frame)) := by
  have hread := read_lines [0] (F := Document.indentsFrom) (fun _ => rfl)
    Document.indentsFrom_append (fun _ => rfl)
    ((rows sources r).map (Row.fragments charset (Sheet.ofReport r).frame))
  rw [Document.indents, fragments_layout, hread, List.map_map]
  rfl

theorem wording_layout (charset : Charset) (sources : Sources) (r : Report) :
    (r.layout charset sources).wording = Text.joinLines ((rows sources r).map fun row =>
      charsOf charset (row.head (Sheet.ofReport r).frame) ++
        (row.message (Sheet.ofReport r).frame).wording) := by
  have hread := read_lines ['\n'] (F := fun _ fragments => Document.wording ⟨fragments⟩)
    (fun _ => rfl) (fun _ _ _ => List.flatMap_append) (fun _ => rfl)
    ((rows sources r).map (Row.fragments charset (Sheet.ofReport r).frame))
  rw [← fragments_layout, List.map_map] at hread
  refine Eq.trans hread (congrArg _ (List.map_congr_left fun row _ => ?_))
  exact row.wording_eq charset _

theorem wording_layout_uncut (charset : Charset) (sources : Sources) (r : Report) :
    (r.uncut.layout charset sources).wording = (r.layout charset sources).wording := by
  rw [wording_layout, wording_layout, rows_uncut, frame_uncut, List.map_map]
  refine congrArg _ (List.map_congr_left fun row _ => ?_)
  rw [Function.comp_apply, Row.head_reword, Row.wording_message_uncut]

-- ---------------------------------------------------------------------------
-- Two cuts of the same messages
-- ---------------------------------------------------------------------------

section
variable (charset : Charset) (f : Frame)

theorem Row.length_indentsFrom_uncut (row : Row) :
    (Document.indentsFrom 1 ((row.reword Document.uncut).fragments charset f)).length =
      (Document.indentsFrom 1 (row.fragments charset f)).length := by
  have hlength (row : Row) : (Document.indentsFrom 1 (row.fragments charset f)).length =
      (charsOf charset (row.head f) ++ (row.message f).wording).count '\n' := by
    rw [Document.length_indentsFrom, ← row.wording_eq]
    rfl
  rw [hlength, hlength, head_reword, wording_message_uncut]

variable {as bs : List Row}
  (h : as.map (Row.reword Document.uncut) = bs.map (Row.reword Document.uncut))
include h

theorem map_length_indentsFrom :
    (as.map fun row => Document.indentsFrom 1 (row.fragments charset f)).map List.length =
      (bs.map fun row => Document.indentsFrom 1 (row.fragments charset f)).map List.length := by
  have huncut (rows : List Row) :
      (rows.map fun row => Document.indentsFrom 1 (row.fragments charset f)).map List.length =
        (rows.map (Row.reword Document.uncut)).map fun row =>
          (Document.indentsFrom 1 (row.fragments charset f)).length := by
    rw [List.map_map, List.map_map]
    exact List.map_congr_left fun row _ => (row.length_indentsFrom_uncut charset f).symm
  rw [huncut, huncut, h]

/-- The heads of rows do not depend on where messages are cut. -/
theorem map_indentsFrom_iff :
    (as.map fun row => Document.indentsFrom 1 (row.fragments charset f)) =
        (bs.map fun row => Document.indentsFrom 1 (row.fragments charset f)) ↔
      as.map (Row.messageIndents charset f) = bs.map (Row.messageIndents charset f) := by
  induction as generalizing bs with
  | nil =>
    obtain rfl : bs = [] := List.map_eq_nil_iff.mp h.symm
    simp
  | cons a as ih =>
    cases bs with
    | nil => cases h
    | cons b bs =>
      obtain ⟨hab, hrest⟩ := List.cons.inj h
      have hhead : a.head f = b.head f := by
        rw [← a.head_reword Document.uncut, hab, b.head_reword]
      have hone : Document.indentsFrom 1 (a.fragments charset f) =
          Document.indentsFrom 1 (b.fragments charset f) ↔
            a.messageIndents charset f = b.messageIndents charset f := by
        rw [Row.indentsFrom_eq, Row.indentsFrom_eq, hhead, List.append_cancel_left_eq]
      simp only [List.map_cons, List.cons.injEq, ih hrest, hone]

end

/-- As long as its first fragment holds all line feeds, the lines of a message
begin where the message begins. -/
theorem Row.messageIndents_of_first {row : Row}
    (h : (row.message f).fragments = first :: others)
    (ho : ∀ fragment ∈ others, '\n' ∉ fragment.content.toList) (charset : Charset) :
    row.messageIndents charset f = List.replicate ((row.message f).wording.count '\n')
      (row.messageColumn charset f - 1).toNat := by
  have hcount : (others.flatMap (·.content.toList)).count '\n' = 0 := by
    rw [List.count_eq_zero]
    intro hm
    obtain ⟨fragment, hf, hm⟩ := List.mem_flatMap.mp hm
    exact ho fragment hf hm
  have hothers (column : Int) : Document.indentsFrom column (others.map Fragment.hang) = [] := by
    rw [← List.length_eq_zero_iff, Document.length_indentsFrom, List.flatMap_map]
    exact hcount
  rw [messageIndents, Document.hang, h, List.map_cons, Document.indentsFrom, hothers,
    List.append_nil, Document.wording, h, List.flatMap_cons, List.count_append, hcount]
  rfl

/-- Two reports that say the same, cut and styled differently, are printed
alike just if every line feed of a message is followed by the same indent in
both: the one of the fragment that holds it. That is the indent of the whole
message if no fragment but the first one holds a line feed. -/
theorem layout_recut {a b : Report} (h : a.uncut = b.uncut) (charset : Charset)
    (sources : Sources) :
    ((a.layout charset sources).renderPlain = (b.layout charset sources).renderPlain ↔
        (rows sources a).map (Row.messageIndents charset (Sheet.ofReport a).frame) =
          (rows sources b).map (Row.messageIndents charset (Sheet.ofReport b).frame)) ∧
      (a.layout charset sources).renderPlain.toList =
        Text.joinLines ((rows sources a).map fun row =>
          charsOf charset (row.head (Sheet.ofReport a).frame) ++
            Text.hangEach (row.messageIndents charset (Sheet.ofReport a).frame)
              (row.message (Sheet.ofReport a).frame).wording) ∧
      ∀ row ∈ rows sources a, ∀ first others,
        (row.message (Sheet.ofReport a).frame).fragments = first :: others →
        (∀ fragment ∈ others, '\n' ∉ fragment.content.toList) →
          row.messageIndents charset (Sheet.ofReport a).frame =
            List.replicate ((row.message (Sheet.ofReport a).frame).wording.count '\n')
              (row.messageColumn charset (Sheet.ofReport a).frame - 1).toNat := by
  have hrows : (rows sources a).map (Row.reword Document.uncut) =
      (rows sources b).map (Row.reword Document.uncut) := by
    rw [← rows_uncut, ← rows_uncut, h]
  have hframe : (Sheet.ofReport a).frame = (Sheet.ofReport b).frame := by
    rw [← frame_uncut, h, frame_uncut]
  have hwording : (a.layout charset sources).wording = (b.layout charset sources).wording := by
    rw [← wording_layout_uncut, h, wording_layout_uncut]
  refine ⟨?_, toList_renderPlain_layout charset sources a,
    fun row _ _ _ hm ho => row.messageIndents_of_first hm ho charset⟩
  rw [Document.renderPlain_eq_iff hwording, indents_layout, indents_layout, ← hframe,
    intercalate_inj (map_length_indentsFrom charset _ hrows), map_indentsFrom_iff charset _ hrows]

/-- A report without markers, whose title has the given fragments. -/
def titled (fragments : List Fragment) : Report := { severity := .error, message := ⟨fragments⟩ }

/-- Its second line begins below the first character of the message. -/
def whole : Report := titled [{ content := "ab\nc" }]

/-- Its second line begins below the second fragment. -/
def cutBefore : Report := titled [{ content := "a" }, { content := "b\nc" }]

def cutAfter : Report := titled [{ content := "ab\n" }, { content := "c", style := inked "red" }]

theorem ofReport_titled (fragments : List Fragment) :
    Sheet.ofReport (titled fragments) = ⟨.error, []⟩ :=
  congrArg (Sheet.mk .error) List.mergeSort_nil

/-- Styling part of a message can move its text. -/
theorem layout_cut_before : cutBefore.uncut = whole.uncut ∧
    (cutBefore.layout .ascii []).renderPlain ≠ (whole.layout .ascii []).renderPlain := by
  refine ⟨rfl, ?_⟩
  simp only [Report.layout, pieces, rows, cutBefore, whole, ofReport_titled]
  decide

theorem layout_recut_cut_after : cutAfter.uncut = whole.uncut ∧
    (cutAfter.layout .ascii []).renderPlain = (whole.layout .ascii []).renderPlain := by
  have h : cutAfter.uncut = whole.uncut := rfl
  refine ⟨h, (layout_recut h .ascii []).1.mpr ?_⟩
  simp only [rows, cutAfter, whole, ofReport_titled]
  decide

end Layout

end SpanReport
