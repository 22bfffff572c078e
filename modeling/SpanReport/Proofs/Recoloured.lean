import SpanReport.Proofs.Equality
import SpanReport.Proofs.Known
import SpanReport.Proofs.Markers

/-!
# Which styles a layout keeps

The title and the trailer show their messages in the styles that these have. A
label shows its message in the colour of its role, and a hint is shown in the
colour of hints, whatever styles they come with. `layout_recoloured`: a report is
printed in colour once the names in its own message and in those of its markers
over several lines are known.
-/

namespace SpanReport.Layout

/-- A message in one foreground colour and nothing else, its lines hanging. -/
def tinted (colour : String) (d : Document) : List Fragment :=
  d.fragments.map fun f => ⟨f.content, ⟨some colour, none, []⟩, true⟩

def Row.isWordless : Row → Bool
  | title _ | label _ _ _ _ _ | trailer _ _ | hint _ => false
  | _ => true

/-- What a row displays of the messages of its report. -/
inductive Displays (r : Report) : Row → List Fragment → Prop
  | title : Displays r (.title r.message) r.message.hang.fragments
  | label (h : (span, marker) ∈ r.markers.entries) (hi : span.isInline) :
      Displays r (.label line bracket pipes shared (span, marker))
        (tinted (marker.role.colour r.severity) marker.message)
  | trailer (h : (span, marker) ∈ r.markers.entries) (hi : span.isInline = false) :
      Displays r (.trailer last (span, marker)) marker.message.hang.fragments
  | hint (h : message ∈ r.hints) : Displays r (.hint message) (tinted "cyan" message)
  | wordless (h : row.isWordless) : Displays r row []

theorem hang_restyle (colour : String) (d : Document) :
    (d.restyle (inked colour)).hang.fragments = tinted colour d := by
  simp [Document.restyle, Document.hang, Fragment.restyle, Fragment.hang, inked, tinted,
    Function.comp_def]

/-- One case for each kind of row: what stands behind its head is what it displays. -/
theorem displays_of_mem_rows (h : row ∈ rows sources r) :
    Displays r row (row.message (Sheet.ofReport r).frame).hang.fragments := by
  rcases mem_rows h with rfl | rfl | rfl | ⟨line, -, hm⟩ | hm | hm | rfl
  · exact .title
  · exact .wordless rfl
  · exact .wordless rfl
  · rcases Sheet.mem_lineRows hm with rfl | rfl | ⟨earlier, ⟨span, marker⟩, later, hs, rfl⟩
    · exact .wordless rfl
    · exact .wordless rfl
    · have he : (span, marker) ∈ (Sheet.ofReport r).inline line := by simp [hs]
      obtain ⟨he, hi, -⟩ := Sheet.mem_inline.mp he
      simp only [Sheet.labelRow, Row.message, hang_restyle]
      exact .label (Sheet.mem_ofReport_entries.mp he) hi
  · obtain ⟨⟨span, marker⟩, he, rfl | ⟨last, rfl⟩⟩ := Sheet.mem_trailerRows hm
    · exact .wordless rfl
    · obtain ⟨he, hi⟩ := Sheet.mem_multiline.mp he
      exact .trailer (Sheet.mem_ofReport_entries.mp he) hi
  · obtain rfl | ⟨message, hmessage, rfl⟩ := mem_hintRows hm
    · exact .wordless rfl
    · simp only [Row.message, hang_restyle]
      exact .hint hmessage
  · exact .wordless rfl

theorem known_drawn_head (h : row ∈ rows sources r) (charset : Charset) :
    ∀ f ∈ (row.head (Sheet.ofReport r).frame).map (Piece.draw charset), f.style.Known := by
  intro f hf
  obtain ⟨p, hp, rfl⟩ := List.mem_map.mp hf
  refine Row.known_head (fun c hc => ?_) p hp
  obtain ⟨role, rfl⟩ := colours_rows sources r row h c hc
  exact isColour_role _ _

-- ---------------------------------------------------------------------------
-- The hints that are shown
-- ---------------------------------------------------------------------------

def Row.hinted? : Row → Option Document
  | hint message => some message
  | _ => none

theorem hinted_hintRows (r : Report) :
    (hintRows r).filterMap Row.hinted? = if r.markers.isEmpty then [] else r.hints := by
  have hshown : (r.hints.map Row.hint).filterMap Row.hinted? = r.hints := by
    simp [List.filterMap_map, Function.comp_def, Row.hinted?]
  unfold hintRows
  cases hh : r.hints.isEmpty with
  | true =>
    have hnone : r.hints = [] := List.isEmpty_iff.mp hh
    simp [hnone]
  | false =>
    cases r.markers.isEmpty with
    | true => simp
    | false => exact hshown

theorem hinted_rows (sources : Sources) (r : Report) :
    (rows sources r).filterMap Row.hinted? = if r.markers.isEmpty then [] else r.hints := by
  have hlines : ((Sheet.ofReport r).lineNumbers.flatMap
      ((Sheet.ofReport r).lineRows sources)).filterMap Row.hinted? = [] := by
    refine List.filterMap_eq_nil_iff.mpr fun row hrow => ?_
    obtain ⟨line, -, hrow⟩ := List.mem_flatMap.mp hrow
    rcases Sheet.mem_lineRows hrow with rfl | rfl | ⟨_, _, _, -, rfl⟩ <;> rfl
  have htrailer : (Sheet.ofReport r).trailerRows.filterMap Row.hinted? = [] := by
    refine List.filterMap_eq_nil_iff.mpr fun row hrow => ?_
    obtain ⟨e, -, rfl | ⟨last, rfl⟩⟩ := Sheet.mem_trailerRows hrow <;> rfl
  have hhead : [Row.title r.message, .pointer (headerSpan (Sheet.ofReport r).entries),
      .rail].filterMap Row.hinted? = [] := rfl
  have hfoot : [Row.footer].filterMap Row.hinted? = [] := rfl
  simp only [rows, List.filterMap_append, hhead, hlines, htrailer, hfoot, hinted_hintRows,
    List.nil_append, List.append_nil]

-- ---------------------------------------------------------------------------
-- The whole layout
-- ---------------------------------------------------------------------------

/-- Every fragment of a layout is drawn in a known style, or stands for a fragment of
a message.

Behind heads whose styles are known, the title and the trailer show their messages
as they are styled, labels and hints in one colour. Each marker has one such row,
and the hints are shown in their order, if there are markers. Hence printing in
colour can fail only for a name in the report's own message or in that of a marker
over several lines. -/
theorem layout_recoloured (charset : Charset) (sources : Sources) (r : Report) :
    (r.layout charset sources).fragments = List.intercalate [lineFeed]
        ((rows sources r).map (Row.fragments charset (Sheet.ofReport r).frame)) ∧
      (∀ row ∈ rows sources r, ∃ head shown,
        row.fragments charset (Sheet.ofReport r).frame = head ++ shown ∧
          (∀ f ∈ head, f.style.Known) ∧ Displays r row shown) ∧
      (((rows sources r).filterMap Row.carried?).map Prod.snd).Perm r.markers.entries ∧
      (rows sources r).filterMap Row.hinted? = (if r.markers.isEmpty then [] else r.hints) ∧
      (KeepsKnown r → ∃ text, (r.layout charset sources).render true = .ok text) := by
  refine ⟨fragments_layout charset sources r, fun row hrow => ?_, carried_perm sources r,
    hinted_rows sources r, fun h => Document.render_ok (layout_known h charset sources) true⟩
  exact ⟨_, _, row.fragments_eq charset _, known_drawn_head hrow charset, displays_of_mem_rows hrow⟩

/-- A label and a hint in colours that no terminal knows. -/
def wildlyStyled : Report :=
  let wild : Document := ⟨[⟨"no", ⟨some "octarine", none, ["wavy"]⟩, false⟩]⟩
  let tame : Document := ⟨[⟨"yes", ⟨some "red", none, ["bold"]⟩, false⟩]⟩
  { severity := .error, message := tame, hints := [wild],
    markers := .ofList [(firstLetter, ⟨.context, wild⟩), (nextLine, ⟨.primary, tame⟩)] }

theorem layout_recoloured_wild : KeepsKnown wildlyStyled ∧
    ∃ text, (wildlyStyled.layout .unicode []).render true = .ok text := by
  have h : KeepsKnown wildlyStyled := by
    unfold KeepsKnown Document.Known
    decide
  exact ⟨h, (layout_recoloured .unicode [] wildlyStyled).2.2.2.2 h⟩

end SpanReport.Layout
