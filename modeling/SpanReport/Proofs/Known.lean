import SpanReport.Proofs.Columns
import SpanReport.Proofs.Outcomes
import SpanReport.Proofs.Terminal

/-!
# Documents with known names

A document is printed in colour without fail if all its styles have known
names. In a layout only two kinds of rows keep a style that comes from outside:
the title, and the messages of markers over several lines. All else is drawn in
the colours of the frame or of a role, and those are known.
-/

namespace SpanReport

def Document.Known (d : Document) : Prop := ∀ f ∈ d.fragments, f.style.Known

theorem Fragment.emitColoured_ok {f : Fragment} (h : f.style.Known) (column : Int) :
    ∃ text, f.emitColoured column = .ok text := by
  unfold emitColoured
  split
  · rw [Terminal.codes_of_known h]
    exact ⟨_, rfl⟩
  · exact ⟨_, rfl⟩

theorem Document.render_ok {d : Document} (h : d.Known) (colours : Bool) :
    ∃ text, d.render colours = .ok text := by
  cases colours with
  | false => exact ⟨_, rfl⟩
  | true =>
    have hall : ∀ p ∈ d.placed, ∃ text, p.2.emitColoured p.1 = .ok text := by
      rintro ⟨column, f⟩ hp
      have hf : f ∈ (placeFrom 1 d.fragments).map Prod.snd := List.mem_map_of_mem hp
      rw [map_snd_placeFrom] at hf
      exact f.emitColoured_ok (h f hf) column
    obtain ⟨texts, ht⟩ := exists_mapM_ok.mpr hall
    exact ⟨String.join texts, bind_ok.mpr ⟨texts, ht, rfl⟩⟩

-- ---------------------------------------------------------------------------
-- Styles of a layout
-- ---------------------------------------------------------------------------

namespace Layout

def IsColour (name : String) : Prop := (Aspect.foreground.code? name).isSome

theorem isColour_role (severity : Severity) (role : Role) : IsColour (role.colour severity) := by
  cases severity <;> cases role <;> rfl

theorem isColour_severity (severity : Severity) : IsColour severity.colour := by
  cases severity <;> rfl

theorem known_plain : Style.plain.Known := by
  decide

theorem known_inked (h : IsColour colour) : (inked colour).Known := by
  simpa [inked, Style.Known, Style.names, IsColour] using h

theorem known_bold (h : IsColour colour) : (bold colour).Known := by
  have hbold : (Aspect.attribute.code? "bold").isSome := rfl
  simpa [bold, Style.Known, Style.names, IsColour, hbold] using h

theorem known_restyle {style : Style} (h : style.Known) (d : Document) :
    (d.restyle style).Known := by
  intro f hf
  obtain ⟨g, -, rfl⟩ := List.mem_map.mp hf
  exact h

-- ---------------------------------------------------------------------------
-- The colours of a row
-- ---------------------------------------------------------------------------

def Bracket.colours : Bracket → List String
  | .absent | .blank => []
  | .through colour | .branch _ colour => [colour]

/-- The colours that a row has from its own line, in its bracket and its cells. -/
def Row.colours : Row → List String
  | source _ bracket excerpt => bracket.colours ++ (excerpt.getD []).filterMap Run.colour
  | underline _ bracket strokes => bracket.colours ++ strokes.filterMap (Option.map Stroke.colour)
  | label _ bracket pipes _ _ => bracket.colours ++ pipes.map Pipe.colour
  | trailerHead colour => [colour]
  | _ => []

theorem Bracket.known {b : Bracket} (h : ∀ c ∈ b.colours, IsColour c) :
    ∀ p ∈ b.pieces, p.style.Known := by
  cases b with
  | absent => simp [pieces]
  | blank => simp [pieces, known_plain]
  | through colour =>
    have hc : IsColour colour := h colour (by simp [colours])
    simp [pieces, known_plain, known_inked hc]
  | branch opens colour =>
    have hc : IsColour colour := h colour (by simp [colours])
    simp [pieces, known_plain, known_inked hc]

theorem known_excerptPieces {excerpt : Option (List Run)}
    (h : ∀ c ∈ (excerpt.getD []).filterMap Run.colour, IsColour c) :
    ∀ p ∈ excerptPieces excerpt, p.style.Known := by
  cases excerpt with
  | none =>
    have hc : IsColour absentColour := rfl
    simp [excerptPieces, known_inked hc]
  | some runs =>
    intro p hp
    obtain ⟨run, hr, rfl⟩ := List.mem_map.mp hp
    unfold Run.piece
    split
    · rename_i colour hc
      exact known_bold (h colour (List.mem_filterMap.mpr ⟨run, hr, hc⟩))
    · exact known_plain

theorem known_strokes {strokes : List (Option Stroke)}
    (h : ∀ c ∈ strokes.filterMap (Option.map Stroke.colour), IsColour c) :
    ∀ p ∈ strokes.map strokePiece, p.style.Known := by
  intro p hp
  obtain ⟨stroke, hs, rfl⟩ := List.mem_map.mp hp
  cases stroke with
  | none => exact known_plain
  | some stroke => exact known_inked (h _ (List.mem_filterMap.mpr ⟨_, hs, rfl⟩))

theorem known_pipePieces {pipes : List Pipe} (h : ∀ c ∈ pipes.map Pipe.colour, IsColour c)
    (column stop : Nat) : ∀ p ∈ pipePieces column stop pipes, p.style.Known := by
  induction pipes generalizing column with
  | nil => simp [pipePieces, known_plain]
  | cons pipe rest ih =>
    obtain ⟨hc, hrest⟩ := List.forall_mem_cons.mp h
    simp only [pipePieces, List.forall_mem_cons]
    exact ⟨known_plain, known_inked hc, ih hrest _⟩

theorem Row.known_head {f : Frame} {row : Row} (h : ∀ c ∈ row.colours, IsColour c) :
    ∀ p ∈ row.head f, p.style.Known := by
  have hframe : IsColour frameColour := rfl
  have hrole (marker : Marker) : IsColour (marker.colour f.severity) := isColour_role _ _
  have hdot : ∀ p ∈ f.dotGutter, p.style.Known := by
    simp [Frame.dotGutter, Frame.blankGutter, known_plain, known_bold hframe]
  have hbar : ∀ p ∈ f.barGutter, p.style.Known := by
    simp [Frame.barGutter, Frame.blankGutter, known_plain, known_bold hframe]
  cases row with
  | title _ => simp [head, known_plain, known_bold (isColour_severity f.severity)]
  | pointer span =>
    have hfile : IsColour fileColour := rfl
    simp [head, Frame.blankGutter, known_plain, known_bold hframe, known_bold hfile]
  | rail => exact hbar
  | source line bracket excerpt =>
    obtain ⟨hb, he⟩ := List.forall_mem_append.mp h
    have hnumber : ∀ p ∈ f.numberGutter line, p.style.Known := by
      simp [Frame.numberGutter, known_inked hframe]
    simp only [head, List.forall_mem_append, List.forall_mem_cons]
    exact ⟨⟨hnumber, known_plain, Bracket.known hb⟩, known_excerptPieces he⟩
  | underline line bracket strokes =>
    obtain ⟨hb, hs⟩ := List.forall_mem_append.mp h
    simp only [head, List.forall_mem_append, List.forall_mem_cons]
    exact ⟨⟨hdot, known_plain, Bracket.known hb⟩, known_strokes hs⟩
  | label line bracket pipes shared entry =>
    obtain ⟨hb, hp⟩ := List.forall_mem_append.mp h
    simp only [head, List.forall_mem_append, List.forall_mem_cons]
    exact ⟨⟨⟨hdot, known_plain, Bracket.known hb⟩, known_pipePieces hp _ _⟩,
      known_inked (hrole _), known_inked (hrole _), known_plain, List.forall_mem_nil _⟩
  | trailerHead colour =>
    have hc : IsColour colour := h colour (by simp [colours])
    simp only [head, List.forall_mem_append, List.forall_mem_cons]
    exact ⟨hdot, known_plain, known_inked hc, List.forall_mem_nil _⟩
  | trailer last entry =>
    simp only [head, List.forall_mem_append, List.forall_mem_cons]
    exact ⟨hdot, known_plain, known_inked (hrole _), List.forall_mem_nil _⟩
  | gap => exact hdot
  | hint _ =>
    have hhint : IsColour hintColour := rfl
    simp only [head, List.forall_mem_append, List.forall_mem_cons]
    exact ⟨hbar, known_plain, known_bold hhint, known_plain, List.forall_mem_nil _⟩
  | footer => simp [head, known_bold hframe]

-- ---------------------------------------------------------------------------
-- Where the colours of a row come from
-- ---------------------------------------------------------------------------

namespace Sheet

variable {s : Sheet} {P : String → Prop} (hP : ∀ e, P (s.colour e))
include hP

theorem colours_bracket (line : Nat) : ∀ c ∈ (s.bracket line).colours, P c := by
  unfold bracket
  split
  · rename_i colour hc
    obtain ⟨e, -, rfl⟩ := Option.map_eq_some_iff.mp hc
    simpa [Bracket.colours] using hP e
  · split <;> simp [Bracket.colours]

theorem colours_sourceBracket (line : Nat) : ∀ c ∈ (s.sourceBracket line).colours, P c := by
  unfold sourceBracket
  split
  · rename_i e _ _
    simpa [Bracket.colours] using hP e
  · exact colours_bracket hP line

omit hP in
/-- A run is in the colour of its first character. -/
theorem colour_of_mem_runs {colourAt : Nat → Option String} (h : run ∈ runs colourAt text)
    (hc : run.colour = some c) : ∃ column, colourAt column = some c := by
  obtain ⟨cells, hcells, rfl⟩ := List.mem_map.mp h
  obtain ⟨⟨char, colour⟩, hhead, rfl⟩ := Option.bind_eq_some_iff.mp hc
  have hcell := List.mem_flatten_of_mem hcells (List.mem_of_mem_head? hhead)
  rw [List.flatten_splitBy] at hcell
  obtain ⟨i, hi, heq⟩ := List.mem_mapIdx.mp hcell
  exact ⟨i + 1, congrArg Prod.snd heq⟩

theorem colours_excerpt (sources : Sources) (line : Nat) :
    ∀ c ∈ ((s.excerpt sources line).getD []).filterMap Run.colour, P c := by
  intro c hc
  obtain ⟨run, hr, hc⟩ := List.mem_filterMap.mp hc
  cases he : s.excerpt sources line with
  | none => simp [he] at hr
  | some shown =>
    rw [he, Option.getD_some] at hr
    simp only [excerpt, Option.bind_eq_bind, Option.bind_eq_some_iff] at he
    obtain ⟨first, -, text, -, ⟨⟩⟩ := he
    obtain ⟨column, hcolumn⟩ := colour_of_mem_runs hr hc
    obtain ⟨e, -, rfl⟩ := Option.map_eq_some_iff.mp hcolumn
    exact hP e

theorem colours_strokes (line : Nat) :
    ∀ c ∈ (s.strokes line).filterMap (Option.map Stroke.colour), P c := by
  intro c hc
  obtain ⟨stroke, hs, hc⟩ := List.mem_filterMap.mp hc
  obtain ⟨column, -, rfl⟩ := List.mem_map.mp hs
  simp only [strokeAt, Option.map_map, Option.map_eq_some_iff] at hc
  obtain ⟨e, -, rfl⟩ := hc
  exact hP e

theorem colours_pipes (entries : List Entry) : ∀ c ∈ (s.pipes entries).map Pipe.colour, P c := by
  induction entries with
  | nil => simp [pipes]
  | cons e rest ih =>
    rcases pipes_cons s e rest with ⟨_, _, -, -, hp⟩ | ⟨-, hp⟩
    · rwa [hp]
    · rw [hp, List.map_cons]
      exact List.forall_mem_cons.mpr ⟨hP e, ih⟩

theorem colours_lineRows (sources : Sources) (line : Nat) :
    ∀ row ∈ s.lineRows sources line, ∀ c ∈ row.colours, P c := by
  intro row hrow
  rcases mem_lineRows hrow with rfl | rfl | ⟨earlier, e, later, -, rfl⟩
  · exact List.forall_mem_append.mpr
      ⟨colours_sourceBracket hP line, colours_excerpt hP sources line⟩
  · exact List.forall_mem_append.mpr ⟨colours_bracket hP line, colours_strokes hP line⟩
  · exact List.forall_mem_append.mpr ⟨colours_bracket hP line, colours_pipes hP _⟩

theorem colours_trailerRows : ∀ row ∈ s.trailerRows, ∀ c ∈ row.colours, P c := by
  intro row hrow
  obtain ⟨e, -, rfl | ⟨last, rfl⟩⟩ := mem_trailerRows hrow
  · exact fun c hc => List.mem_singleton.mp hc ▸ hP e
  · nofun

end Sheet

theorem colours_rows (sources : Sources) (r : Report) :
    ∀ row ∈ rows sources r, ∀ c ∈ row.colours, ∃ role : Role, c = role.colour r.severity := by
  have hP (e : Entry) : ∃ role : Role, (Sheet.ofReport r).colour e = role.colour r.severity :=
    ⟨e.2.role, rfl⟩
  intro row hrow
  rcases mem_rows hrow with rfl | rfl | rfl | ⟨line, -, h⟩ | h | h | rfl
  · nofun
  · nofun
  · nofun
  · exact Sheet.colours_lineRows hP sources line row h
  · exact Sheet.colours_trailerRows hP row h
  · obtain rfl | ⟨hint, -, rfl⟩ := mem_hintRows h <;> nofun
  · nofun

-- ---------------------------------------------------------------------------
-- Messages
-- ---------------------------------------------------------------------------

/-- What has to be known of a report: its own message and those of the markers
over several lines keep their styles. -/
def KeepsKnown (r : Report) : Prop :=
  r.message.Known ∧ ∀ e ∈ r.markers.entries, e.1.isInline = false → e.2.message.Known

theorem known_empty : ({} : Document).Known := nofun

theorem Row.message_known {row : Row} (h : KeepsKnown r) (hrow : row ∈ rows sources r) (f : Frame) :
    (row.message f).Known := by
  rcases mem_rows hrow with rfl | rfl | rfl | ⟨line, -, hm⟩ | hm | hm | rfl
  · exact h.1
  · exact known_empty
  · exact known_empty
  · rcases Sheet.mem_lineRows hm with rfl | rfl | ⟨_, e, _, -, rfl⟩
    · exact known_empty
    · exact known_empty
    · exact known_restyle (known_inked (isColour_role _ _)) _
  · obtain ⟨e, he, rfl | ⟨last, rfl⟩⟩ := Sheet.mem_trailerRows hm
    · exact known_empty
    · obtain ⟨he, hlines⟩ := Sheet.mem_multiline.mp he
      exact h.2 e ((sortEntries_perm _).mem_iff.mp he) hlines
  · obtain rfl | ⟨hint, -, rfl⟩ := mem_hintRows hm
    · exact known_empty
    · have hcolour : IsColour hintColour := rfl
      exact known_restyle (known_inked hcolour) hint
  · exact known_empty

theorem Piece.known_message {d : Document} (h : d.Known) :
    ∀ p ∈ Piece.message d, p.style.Known := by
  intro p hp
  obtain ⟨g, hg, rfl⟩ := List.mem_map.mp hp
  obtain ⟨f, hf, rfl⟩ := List.mem_map.mp hg
  exact h f hf

/-- All styles of a layout are known if those of the messages are that keep theirs. -/
theorem layout_known (h : KeepsKnown r) (charset : Charset) (sources : Sources) :
    (r.layout charset sources).Known := by
  have hpieces : ∀ p ∈ pieces sources r, p.style.Known := by
    refine forall_pieces (P := fun p => p.style.Known) known_plain fun row hrow => ?_
    have hcolours : ∀ c ∈ row.colours, IsColour c := by
      intro c hc
      obtain ⟨role, rfl⟩ := colours_rows sources r row hrow c hc
      exact isColour_role _ _
    exact List.forall_mem_append.mpr
      ⟨Row.known_head hcolours, Piece.known_message (Row.message_known h hrow _)⟩
  intro f hf
  obtain ⟨p, hp, rfl⟩ := List.mem_map.mp hf
  exact hpieces p hp

end Layout

end SpanReport
