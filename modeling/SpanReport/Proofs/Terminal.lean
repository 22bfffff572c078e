import SpanReport.Document
import SpanReport.Terminal
import SpanReport.Proofs.Lines
import Mathlib.Data.List.Forall2

/-!
# Reading coloured text back

`read_coloured`: a terminal that reads a document printed in colour sees the
characters of the plain print, each one under the colours and attributes that
the fragment it comes from names. Escapes are closed at the end of every
physical line, so no line and no fragment hands a colour on.
-/

namespace SpanReport

-- ---------------------------------------------------------------------------
-- Reading escapes
-- ---------------------------------------------------------------------------

namespace Terminal

theorem readFrom_number (pen : Pen) (n : Nat) (digits rest : List Char)
    (h : ∀ c ∈ digits, c.isDigit) :
    readFrom pen (.number n) (digits ++ 'm' :: rest) =
      readFrom (pen.apply (Nat.ofDigitChars 10 digits n)) .text rest := by
  induction digits generalizing n with
  | nil => simp [readFrom, show ('m').isDigit = false from rfl]
  | cons c digits ih =>
    have hc : c.isDigit = true := h c (by simp)
    rw [Nat.ofDigitChars_cons, List.cons_append, readFrom, if_pos hc,
      ih _ fun d hd => h d (List.mem_cons_of_mem _ hd)]
    rw [Nat.mul_comm]

theorem readFrom_escape (pen : Pen) (code : Nat) (rest : List Char) :
    readFrom pen .text (escape code ++ rest) = readFrom (pen.apply code) .text rest := by
  have hd : ∀ c ∈ Nat.toDigits 10 code, c.isDigit :=
    fun c hc => Nat.isDigit_of_mem_toDigits (by decide) (by decide) hc
  have hn := readFrom_number pen 0 (Nat.toDigits 10 code) rest hd
  rw [Nat.ofDigitChars_ten_toDigits] at hn
  simpa [escape, readFrom] using hn

theorem readFrom_escapes (pen : Pen) (codes : List Nat) (rest : List Char) :
    readFrom pen .text (codes.flatMap escape ++ rest) =
      readFrom (codes.foldl Pen.apply pen) .text rest := by
  induction codes generalizing pen with
  | nil => rfl
  | cons code codes ih =>
    rw [List.flatMap_cons, List.append_assoc, readFrom_escape, ih, List.foldl_cons]

theorem readFrom_text (pen : Pen) (text rest : List Char) (h : '\x1b' ∉ text) :
    readFrom pen .text (text ++ rest) =
      text.map (fun c => (c, pen)) ++ readFrom pen .text rest := by
  induction text with
  | nil => rfl
  | cons c text ih =>
    obtain ⟨hc, ht⟩ : ¬ '\x1b' = c ∧ '\x1b' ∉ text := by simpa using h
    rw [List.cons_append, readFrom, if_neg (Ne.symm hc), ih ht, List.map_cons, List.cons_append]

/-- The codes in force after a line under some codes was opened. -/
def penOf (codes : List Nat) : Pen := codes.reverse.foldl Pen.apply .reset

theorem read_paint (codes : List Nat) (line rest : List Char) (h : '\x1b' ∉ line) :
    read (paint codes line ++ rest) = line.map (fun c => (c, penOf codes)) ++ read rest := by
  by_cases hl : line = []
  · subst hl; rfl
  · rw [paint, if_neg hl, List.append_assoc, List.append_assoc, read, readFrom_escapes,
      readFrom_text _ _ _ h, readFrom_escape]
    rfl

-- ---------------------------------------------------------------------------
-- Texts that hand no codes on
-- ---------------------------------------------------------------------------

/-- What is left of a text without its escapes. -/
def visible (text : List Char) : List Char := (read text).map Prod.fst

/-- Whatever comes after the text is read as if the text had not been there. -/
def Closed (text : List Char) : Prop := ∀ later, read (text ++ later) = read text ++ read later

/-- Every physical line of the text is closed. -/
def LinesClosed (text : List Char) : Prop := ∀ line ∈ Text.lines text, Closed line

theorem closed_nil : Closed [] := fun _ => rfl

theorem closed_text (h : '\x1b' ∉ text) : Closed text := by
  intro later
  have ht : read text = text.map fun c => (c, .reset) := by
    simpa [read, readFrom] using readFrom_text .reset text [] h
  rw [ht, read, readFrom_text _ _ _ h]
  rfl

theorem closed_paint (codes : List Nat) (h : '\x1b' ∉ line) : Closed (paint codes line) := by
  intro later
  have ht := read_paint codes line [] h
  rw [List.append_nil, show read [] = [] from rfl, List.append_nil] at ht
  rw [read_paint codes line later h, ht]

theorem Closed.append (h₁ : Closed first) (h₂ : Closed second) : Closed (first ++ second) := by
  intro later
  rw [List.append_assoc, h₁, h₂, h₁, List.append_assoc]

theorem Closed.visible_append (h : Closed first) (second : List Char) :
    visible (first ++ second) = visible first ++ visible second := by
  rw [visible, h, List.map_append, visible, visible]

theorem mem_of_mem_readFrom (h : c ∈ (readFrom pen phase text).map Prod.fst) : c ∈ text := by
  fun_induction readFrom pen phase text <;> grind

theorem closed_joinLines (h : ∀ line ∈ ls, Closed line) : Closed (Text.joinLines ls) := by
  induction ls with
  | nil => exact closed_nil
  | cons first others ih =>
    rcases others with _ | ⟨second, others⟩
    · simpa [Text.joinLines] using h first (by simp)
    · rw [Text.joinLines_cons_cons]
      have hn : Closed ['\n'] := closed_text (by decide)
      have ho := ih fun line hl => h line (List.mem_cons_of_mem _ hl)
      exact (h first (by simp)).append (hn.append ho)

theorem LinesClosed.closed (h : LinesClosed text) : Closed text := by
  rw [← Text.joinLines_lines text]
  exact closed_joinLines h

theorem visible_joinLines (h : ∀ line ∈ ls, Closed line) :
    visible (Text.joinLines ls) = Text.joinLines (ls.map visible) := by
  induction ls with
  | nil => rfl
  | cons first others ih =>
    rcases others with _ | ⟨second, others⟩
    · simp [Text.joinLines]
    · have ho := ih fun line hl => h line (List.mem_cons_of_mem _ hl)
      rw [Text.joinLines_cons_cons, (h first (by simp)).visible_append, List.map_cons,
        List.map_cons, Text.joinLines_cons_cons, ← List.map_cons, ← ho]
      rfl

theorem LinesClosed.map_visible (h : LinesClosed text) :
    (Text.lines text).map visible = Text.lines (visible text) := by
  have hv : visible text = Text.joinLines ((Text.lines text).map visible) := by
    rw [← visible_joinLines h, Text.joinLines_lines]
  rw [hv, Text.lines_joinLines]
  · simpa using Text.lines_ne_nil text
  · intro line hl hn
    obtain ⟨coloured, hc, rfl⟩ := List.mem_map.mp hl
    exact Text.newline_not_mem_line hc (mem_of_mem_readFrom hn)

theorem linesClosed_text (h : '\x1b' ∉ text) : LinesClosed text :=
  fun _ hl => closed_text fun hm => h (Text.mem_of_mem_line hl hm)

theorem LinesClosed.append (h₁ : LinesClosed first) (h₂ : LinesClosed second) :
    LinesClosed (first ++ second) := by
  obtain ⟨firsts, last, hf⟩ := List.eq_nil_or_concat (Text.lines first) |>.resolve_left
    (Text.lines_ne_nil first)
  obtain ⟨head, others, hs⟩ := List.exists_cons_of_ne_nil (Text.lines_ne_nil second)
  intro line hl
  rw [Text.lines_append (by simpa using hf) hs] at hl
  rcases List.mem_append.mp hl with hl | hl
  · exact h₁ line (by simp [hf, hl])
  · rcases List.mem_cons.mp hl with rfl | hl
    · exact (h₁ last (by simp [hf])).append (h₂ head (by simp [hs]))
    · exact h₂ line (by simp [hs, hl])

-- ---------------------------------------------------------------------------
-- Painted texts
-- ---------------------------------------------------------------------------

theorem newline_not_mem_escape (code : Nat) : '\n' ∉ escape code := by
  simp [escape, Text.newline_not_mem_toDigits]

theorem newline_not_mem_paint (codes : List Nat) (h : '\n' ∉ line) : '\n' ∉ paint codes line := by
  unfold paint
  split
  · simp
  · simp [h, newline_not_mem_escape]

theorem lines_painted (codes : List Nat) (text : List Char) :
    Text.lines (Text.joinLines ((Text.lines text).map (paint codes))) =
      (Text.lines text).map (paint codes) := by
  apply Text.lines_joinLines
  · simpa using Text.lines_ne_nil text
  · intro line hl
    obtain ⟨plain, hp, rfl⟩ := List.mem_map.mp hl
    exact newline_not_mem_paint codes (Text.newline_not_mem_line hp)

theorem linesClosed_painted (codes : List Nat) (h : '\x1b' ∉ text) :
    LinesClosed (Text.joinLines ((Text.lines text).map (paint codes))) := by
  intro line hl
  rw [lines_painted] at hl
  obtain ⟨plain, hp, rfl⟩ := List.mem_map.mp hl
  exact closed_paint codes fun hm => h (Text.mem_of_mem_line hp hm)

theorem read_joinLines_paint (codes : List Nat) (he : ∀ line ∈ ls, '\x1b' ∉ line)
    (hn : ∀ line ∈ ls, '\n' ∉ line) :
    read (Text.joinLines (ls.map (paint codes))) =
      (Text.joinLines ls).map fun c => (c, if c = '\n' then .reset else penOf codes) := by
  have hline : ∀ line ∈ ls, (line.map fun c => (c, if c = '\n' then .reset else penOf codes)) =
      line.map fun c => (c, penOf codes) := by
    intro line hl
    refine List.map_congr_left fun c hc => ?_
    have hc : c ≠ '\n' := by
      rintro rfl
      exact hn line hl hc
    rw [if_neg hc]
  induction ls with
  | nil => rfl
  | cons first others ih =>
    have hf := hline first (by simp)
    rcases others with _ | ⟨second, others⟩
    · have hr := read_paint codes first [] (he first (by simp))
      simpa [Text.joinLines, read, readFrom, hf] using hr
    · have ho := ih (fun l hl => he l (List.mem_cons_of_mem _ hl))
        (fun l hl => hn l (List.mem_cons_of_mem _ hl))
        (fun l hl => hline l (List.mem_cons_of_mem _ hl))
      rw [List.map_cons, List.map_cons, Text.joinLines_cons_cons, Text.joinLines_cons_cons,
        read_paint _ _ _ (he first (by simp)), List.map_append, hf, List.map_cons, ← ho]
      rfl

theorem read_painted (codes : List Nat) (h : '\x1b' ∉ text) :
    read (Text.joinLines ((Text.lines text).map (paint codes))) =
      text.map fun c => (c, if c = '\n' then .reset else penOf codes) := by
  rw [read_joinLines_paint, Text.joinLines_lines]
  · exact fun line hl hm => h (Text.mem_of_mem_line hl hm)
  · exact fun line hl => Text.newline_not_mem_line hl

-- ---------------------------------------------------------------------------
-- The codes of a style
-- ---------------------------------------------------------------------------

/-- The pen has exactly the codes that the style names. -/
structure Pen.Shows (pen : Pen) (s : Style) : Prop where
  foreground : pen.foreground = s.foreground.bind Aspect.foreground.code?
  background : pen.background = s.background.bind Aspect.background.code?
  attributes : ∀ n, n ∈ pen.attributes ↔ n ∈ s.attributes.filterMap Aspect.attribute.code?

theorem reset_shows_plain : Pen.reset.Shows Style.plain :=
  ⟨rfl, rfl, by simp [Pen.reset, Style.plain]⟩

theorem eq_reset_of_shows_plain {pen : Pen} (h : pen.Shows Style.plain) : pen = .reset := by
  obtain ⟨foreground, background, attributes⟩ := pen
  obtain ⟨rfl, rfl, ha⟩ := h
  have ha : attributes = [] := List.eq_nil_iff_forall_not_mem.mpr fun n hn => by
    simpa [Style.plain] using (ha n).mp hn
  rw [ha]
  rfl

theorem code?_mem {aspect : Aspect} (h : aspect.code? name = some n) :
    (name, n) ∈ aspect.names := by
  obtain ⟨before, after, hl, -⟩ := List.lookup_eq_some_iff.mp h
  simp [hl]

theorem apply_foreground (pen : Pen) (h : Aspect.foreground.code? name = some n) :
    pen.apply n = { pen with foreground := some n } := by
  have hr : ∀ p ∈ Aspect.foreground.names, 30 ≤ p.2 ∧ p.2 ≤ 37 ∨ 90 ≤ p.2 ∧ p.2 ≤ 97 := by decide
  have hn := hr _ (code?_mem h)
  rw [Pen.apply, if_neg (by omega), if_pos hn]

theorem apply_background (pen : Pen) (h : Aspect.background.code? name = some n) :
    pen.apply n = { pen with background := some n } := by
  have hr : ∀ p ∈ Aspect.background.names, 40 ≤ p.2 ∧ p.2 ≤ 47 ∨ 100 ≤ p.2 ∧ p.2 ≤ 107 := by decide
  have hn := hr _ (code?_mem h)
  rw [Pen.apply, if_neg (by omega), if_neg (by omega), if_pos hn]

theorem apply_attribute (pen : Pen) (h : Aspect.attribute.code? name = some n) :
    pen.apply n =
      if n ∈ pen.attributes then pen else { pen with attributes := n :: pen.attributes } := by
  have hr : ∀ p ∈ Aspect.attribute.names, 1 ≤ p.2 ∧ p.2 ≤ 9 := by decide
  have hn := hr _ (code?_mem h)
  rw [Pen.apply, if_neg (by omega), if_neg (by omega), if_neg (by omega)]
  by_cases hm : n ∈ pen.attributes
  · rw [if_neg (by simp [hm]), if_pos hm]
  · rw [if_pos ⟨hn.2, hm⟩, if_neg hm]

theorem foldr_attributes (names : List String) :
    ∃ attributes, (names.filterMap Aspect.attribute.code?).foldr (fun n pen => pen.apply n) .reset =
        { Pen.reset with attributes } ∧
      ∀ n, n ∈ attributes ↔ n ∈ names.filterMap Aspect.attribute.code? := by
  induction names with
  | nil => exact ⟨[], rfl, by simp⟩
  | cons name names ih =>
    obtain ⟨attributes, hp, ha⟩ := ih
    cases hn : Aspect.attribute.code? name with
    | none => exact ⟨attributes, by simpa [List.filterMap_cons, hn] using hp,
        by simpa [List.filterMap_cons, hn] using ha⟩
    | some n =>
      rw [List.filterMap_cons, hn, List.foldr_cons, hp, apply_attribute _ hn]
      by_cases hm : n ∈ attributes
      · rw [if_pos hm]
        exact ⟨attributes, rfl, by grind⟩
      · rw [if_neg hm]
        exact ⟨n :: attributes, rfl, by grind⟩

theorem mapM_code {names : List (Aspect × String)}
    (h : ∀ named ∈ names, (named.1.code? named.2).isSome) :
    names.mapM Style.code = .ok (names.filterMap fun named => named.1.code? named.2) := by
  induction names with
  | nil => rfl
  | cons named rest ih =>
    obtain ⟨n, hn⟩ := Option.isSome_iff_exists.mp (h named (by simp))
    have hc : Style.code named = .ok n := by simp [Style.code, hn]
    rw [List.mapM_cons, hc, ih fun other ho => h other (List.mem_cons_of_mem _ ho),
      List.filterMap_cons, hn]
    rfl

theorem codes_of_known {s : Style} (h : s.Known) :
    s.codes = .ok (s.names.filterMap fun named => named.1.code? named.2) := mapM_code h

/-- A colour that has a code replaces the one on the pen. -/
theorem foldr_colour {aspect : Aspect} {set : Pen → Nat → Pen}
    (h : ∀ pen name n, aspect.code? name = some n → pen.apply n = set pen n)
    (name : Option String) (pen : Pen) :
    ((name.toList.map fun name => (aspect, name)).filterMap fun named =>
        named.1.code? named.2).foldr (fun n pen => pen.apply n) pen =
      (name.bind aspect.code?).elim pen (set pen) := by
  cases name with
  | none => rfl
  | some name =>
    cases hc : aspect.code? name with
    | none => simp [hc]
    | some n => simpa [hc] using h pen name n hc

theorem penOf_shows (s : Style) :
    (penOf (s.names.filterMap fun named => named.1.code? named.2)).Shows s := by
  obtain ⟨foreground, background, names⟩ := s
  obtain ⟨attributes, hp, ha⟩ := foldr_attributes names
  have hnames : (names.map fun name => (Aspect.attribute, name)).filterMap
      (fun named => named.1.code? named.2) = names.filterMap Aspect.attribute.code? := by
    rw [List.filterMap_map]
    rfl
  rw [penOf, List.foldl_reverse, Style.names, List.filterMap_append, List.filterMap_append,
    List.foldr_append, List.foldr_append, hnames, hp,
    foldr_colour fun pen _ _ => apply_background pen,
    foldr_colour fun pen _ _ => apply_foreground pen]
  refine ⟨?_, ?_, ?_⟩
  · cases foreground.bind Aspect.foreground.code? <;>
      cases background.bind Aspect.background.code? <;> rfl
  · cases foreground.bind Aspect.foreground.code? <;>
      cases background.bind Aspect.background.code? <;> rfl
  · cases foreground.bind Aspect.foreground.code? <;>
      cases background.bind Aspect.background.code? <;> exact ha

/-- A character read is the one meant, under exactly the codes of its style. -/
def Shown (seen : Char × Pen) (meant : Char × Style) : Prop :=
  seen.1 = meant.1 ∧ seen.2.Shows meant.2

theorem map_fst_of_shown (h : List.Forall₂ Shown seen meant) :
    seen.map Prod.fst = meant.map Prod.fst := by
  induction h with
  | nil => rfl
  | cons hc _ ih => rw [List.map_cons, List.map_cons, hc.1, ih]

theorem mem_of_shown (h : List.Forall₂ Shown seen meant) (hm : cell ∈ seen) :
    ∃ intended ∈ meant, Shown cell intended := by
  induction h with
  | nil => cases hm
  | @cons first intended _ _ hc _ ih =>
    rcases List.mem_cons.mp hm with rfl | hm
    · exact ⟨intended, by simp, hc⟩
    · obtain ⟨other, ho, hs⟩ := ih hm
      exact ⟨other, List.mem_cons_of_mem _ ho, hs⟩

end Terminal

-- ---------------------------------------------------------------------------
-- Printed documents
-- ---------------------------------------------------------------------------

open Terminal

/-- The characters printed at a column, each with the style it is meant to be
seen in. Line feeds are to be seen in none. -/
def Fragment.styled (f : Fragment) (column : Int) : List (Char × Style) :=
  (f.chars column).map fun c => (c, if c = '\n' then Style.plain else f.style)

def Document.styled (d : Document) : List (Char × Style) :=
  d.placed.flatMap fun (column, f) => f.styled column

theorem Fragment.escape_not_mem_chars {f : Fragment} (h : '\x1b' ∉ f.content.toList)
    (column : Int) : '\x1b' ∉ f.chars column := by
  intro hm
  rcases Text.mem_of_mem_hang hm with hm | hm
  · exact h hm
  · exact absurd hm (by decide)

theorem Style.eq_plain {s : Style} (h : s.isPlain) : s = Style.plain := by
  obtain ⟨foreground, background, names⟩ := s
  cases foreground <;> cases background <;> cases names <;> simp_all [isPlain, Style.names, plain]

theorem Fragment.shown_unpainted {f : Fragment} (h : f.paints column = false) :
    List.Forall₂ Shown ((f.chars column).map fun c => (c, .reset)) (f.styled column) := by
  rw [styled, List.forall₂_map_left_iff, List.forall₂_map_right_iff, List.forall₂_same]
  intro c hc
  refine ⟨rfl, ?_⟩
  have hs : (if c = '\n' then Style.plain else f.style) = Style.plain := by
    split
    · rfl
    · rename_i hn
      rw [paints, Bool.and_eq_false_iff] at h
      rcases h with h | h
      · exact Style.eq_plain (by simpa using h)
      · exact absurd (List.any_eq_false.mp h c hc) (by simpa using hn)
  rw [hs]
  exact reset_shows_plain

theorem Fragment.emitColoured_shown {f : Fragment} (hv : '\x1b' ∉ f.content.toList)
    (hk : f.style.Known) (column : Int) :
    ∃ text, f.emitColoured column = .ok text ∧ LinesClosed text.toList ∧
      List.Forall₂ Shown (read text.toList) (f.styled column) := by
  have hc := escape_not_mem_chars hv column
  cases hp : f.paints column with
  | false =>
    refine ⟨f.emit column, by simp [emitColoured, hp], ?_, ?_⟩
    · simpa [emit] using linesClosed_text hc
    · have hr := readFrom_text .reset (f.chars column) [] hc
      rw [List.append_nil, readFrom, List.append_nil] at hr
      rw [emit, String.toList_ofList, Terminal.read, hr]
      exact shown_unpainted hp
  | true =>
    refine ⟨_, by rw [emitColoured, if_pos hp, codes_of_known hk]; rfl, ?_, ?_⟩
    · simpa using linesClosed_painted _ hc
    · rw [String.toList_ofList, read_painted _ hc, styled, List.forall₂_map_left_iff,
        List.forall₂_map_right_iff, List.forall₂_same]
      intro c _
      refine ⟨rfl, ?_⟩
      split
      · exact reset_shows_plain
      · exact penOf_shows f.style

theorem Document.mapM_emitColoured_shown {fragments : List Fragment}
    (hv : ∀ f ∈ fragments, '\x1b' ∉ f.content.toList) (hk : ∀ f ∈ fragments, f.style.Known)
    (column : Int) :
    ∃ texts,
      (placeFrom column fragments).mapM (fun (column, f) => f.emitColoured column) = .ok texts ∧
      LinesClosed (String.join texts).toList ∧
      List.Forall₂ Shown (read (String.join texts).toList)
        ((placeFrom column fragments).flatMap fun (column, f) => f.styled column) := by
  induction fragments generalizing column with
  | nil => exact ⟨[], rfl, linesClosed_text (by simp), .nil⟩
  | cons f fragments ih =>
    obtain ⟨text, ht, hl, hs⟩ := f.emitColoured_shown (hv f (by simp)) (hk f (by simp)) column
    obtain ⟨texts, hts, hls, hss⟩ := ih (fun g hg => hv g (List.mem_cons_of_mem _ hg))
      (fun g hg => hk g (List.mem_cons_of_mem _ hg)) (f.next column)
    refine ⟨text :: texts, ?_, ?_, ?_⟩
    · simp only [placeFrom, List.mapM_cons, ht, hts]
      rfl
    · simpa using hl.append hls
    · have hr := hl.closed (String.join texts).toList
      rw [String.join_cons, String.toList_append, hr]
      exact List.rel_append hs hss

theorem Document.map_fst_styled (d : Document) : d.styled.map Prod.fst = d.renderPlain.toList := by
  have hf : ∀ (column : Int) (f : Fragment), (f.styled column).map Prod.fst = f.chars column := by
    intro column f
    simp [Fragment.styled, Function.comp_def]
  simp [styled, renderPlain, List.map_flatMap, hf, Fragment.emit, List.flatMap_map]

theorem Document.styled_of_newline {d : Document} (h : ('\n', s) ∈ d.styled) : s = Style.plain := by
  obtain ⟨⟨column, f⟩, -, hm⟩ := List.mem_flatMap.mp h
  obtain ⟨c, -, hc⟩ := List.mem_map.mp hm
  obtain ⟨rfl, rfl⟩ := Prod.mk.inj hc
  rfl

/-- A document printed in colour, as a terminal reads it.

Premise: no fragment holds an escape, and every style has known names only.

The coloured print is read as `Document.styled` says, so each character is the
one of the plain print and has exactly the codes of the fragment that it comes
from. Line feeds are read with no codes in force. Each physical line closes the
codes that it opens, and without its escapes it is the line of the plain
print. -/
theorem read_coloured (d : Document) (hv : ∀ f ∈ d.fragments, '\x1b' ∉ f.content.toList)
    (hk : ∀ f ∈ d.fragments, f.style.Known) :
    ∃ text, d.render true = .ok text ∧
      List.Forall₂ Shown (Terminal.read text.toList) d.styled ∧
      d.styled.map Prod.fst = d.renderPlain.toList ∧
      (∀ pen, ('\n', pen) ∈ Terminal.read text.toList → pen = .reset) ∧
      LinesClosed text.toList ∧
      (Text.lines text.toList).map Terminal.visible = Text.lines d.renderPlain.toList := by
  obtain ⟨texts, ht, hl, hs⟩ := Document.mapM_emitColoured_shown hv hk 1
  refine ⟨String.join texts, ?_, hs, d.map_fst_styled, ?_, hl, ?_⟩
  · rw [Document.render, if_pos rfl, Document.renderColoured, Document.placed]
    simp only [ht]
    rfl
  · intro pen hp
    obtain ⟨⟨c, s⟩, hm, hc, hpen⟩ := mem_of_shown hs hp
    obtain rfl : '\n' = c := hc
    rw [Document.styled_of_newline hm] at hpen
    exact eq_reset_of_shows_plain hpen
  · have hseen : Terminal.visible (String.join texts).toList = d.renderPlain.toList :=
      (map_fst_of_shown hs).trans d.map_fst_styled
    rw [hl.map_visible, hseen]

/-- A hanging fragment in three colours between two others, at a column that
its further lines are indented to. -/
def Document.sample : Document :=
  ⟨[{ content := "ab", style := { attributes := ["dark"] } },
    { content := "c\n\nd\n"
      style := { foreground := some "red", background := some "on_white",
                 attributes := ["bold", "underline", "bold"] }
      hanging := true },
    { content := "e" }]⟩

theorem read_coloured_sample :
    (∀ f ∈ Document.sample.fragments, '\x1b' ∉ f.content.toList) ∧
      (∀ f ∈ Document.sample.fragments, f.style.Known) ∧
      ∃ text, Document.sample.render true = .ok text ∧
        List.Forall₂ Shown (Terminal.read text.toList) Document.sample.styled ∧
        LinesClosed text.toList := by
  have hv : ∀ f ∈ Document.sample.fragments, '\x1b' ∉ f.content.toList := by decide
  have hk : ∀ f ∈ Document.sample.fragments, f.style.Known := by decide
  obtain ⟨text, ht, hs, -, -, hl, -⟩ := read_coloured Document.sample hv hk
  exact ⟨hv, hk, text, ht, hs, hl⟩

end SpanReport
