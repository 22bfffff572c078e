import SpanReport.Proofs.Rows
import SpanReport.Proofs.Sheet
import Mathlib.Data.List.Perm.Basic

/-!
# The markers of a layout

`layout_markers`: every marker of a report has one row of the layout that
carries its message. Labels come line by line, then the trailer, and on a line
and in the trailer the markers come in descending order.
-/

namespace SpanReport.Layout

-- ---------------------------------------------------------------------------
-- Grouping
-- ---------------------------------------------------------------------------

theorem flatMap_filter_perm [DecidableEq β] {keys : List β} (hk : keys.Nodup) (key : α → β)
    (h : ∀ x ∈ xs, key x ∈ keys) : (keys.flatMap fun k => xs.filter (key · == k)).Perm xs := by
  induction keys generalizing xs with
  | nil =>
    obtain rfl : xs = [] := List.eq_nil_iff_forall_not_mem.mpr fun x hx => nomatch h x hx
    exact .nil
  | cons k keys ih =>
    obtain ⟨hne, hk⟩ := List.nodup_cons.mp hk
    have hrest : ∀ x ∈ xs.filter (key · != k), key x ∈ keys := by
      intro x hx
      obtain ⟨hx, hxk⟩ := List.mem_filter.mp hx
      exact (List.mem_cons.mp (h x hx)).resolve_left (by simpa using hxk)
    have hgroups : (keys.flatMap fun k' => xs.filter (key · == k')) =
        keys.flatMap fun k' => (xs.filter (key · != k)).filter (key · == k') := by
      refine List.flatMap_congr fun k' hk' => ?_
      rw [List.filter_filter]
      refine List.filter_congr fun x _ => ?_
      have hkk : k' ≠ k := fun he => hne (he ▸ hk')
      by_cases hx : key x = k'
      · simp [hx, hkk]
      · simp [hx]
    rw [List.flatMap_cons, hgroups]
    exact ((ih hk hrest).append_left _).trans (List.filter_append_perm (key · == k) xs)

-- ---------------------------------------------------------------------------
-- Rows that carry a message
-- ---------------------------------------------------------------------------

/-- Labels come line by line and before the trailer. Among those of a line and
in the trailer, the greater marker comes first. -/
def Precedes : Carrier × Entry → Carrier × Entry → Prop
  | (.label m, a), (.label n, b) => m < n ∨ m = n ∧ b.1 < a.1
  | (.label _, _), (.trailer _, _) => True
  | (.trailer _, _), (.label _, _) => False
  | (.trailer _, a), (.trailer _, b) => b.1 < a.1

/-- A marker on one line has its label there. One over several lines is in the
trailer, which the least of them closes. -/
def Suits (entries : List Entry) : Carrier × Entry → Prop
  | (.label line, e) => e.1.isInline ∧ e.1.start.line = line
  | (.trailer closing, e) => e.1.isInline = false ∧
      (closing ↔ ∀ other ∈ entries, other.1.isInline = false → ¬ other.1 < e.1)

namespace Sheet

variable {s : Sheet}

theorem carried_labelRows (s : Sheet) (line : Nat) (es : List Entry) :
    (s.labelRows line es).filterMap Row.carried? = es.map (Carrier.label line, ·) := by
  induction es with
  | nil => rfl
  | cons e es ih => simp [labelRows, labelRow, Row.carried?, ih]

theorem carried_lineRows (s : Sheet) (sources : Sources) (line : Nat) :
    (s.lineRows sources line).filterMap Row.carried? =
      (s.inline line).reverse.map (Carrier.label line, ·) := by
  rw [lineRows, List.cons_append, List.filterMap_cons_none rfl, List.filterMap_append,
    carried_labelRows]
  split <;> rfl

theorem carried_trailers (last : Bool) (es : List Entry) :
    (es.map (Row.trailer last)).filterMap Row.carried? = es.map (Carrier.trailer last, ·) := by
  induction es with
  | nil => rfl
  | cons e es ih => simp [Row.carried?, ih]

theorem carried_trailerRows (h : s.multiline = first :: rest) :
    s.trailerRows.filterMap Row.carried? =
      rest.reverse.map (Carrier.trailer false, ·) ++ [(Carrier.trailer true, first)] := by
  rw [trailerRows, h]
  simp only [List.cons_append]
  rw [List.filterMap_cons_none rfl, List.filterMap_append, carried_trailers]
  rfl

end Sheet

theorem carried_hintRows (r : Report) : (hintRows r).filterMap Row.carried? = [] := by
  rw [hintRows]
  split
  · rfl
  · simp [Row.carried?]

theorem carried_rows (sources : Sources) (r : Report) :
    (rows sources r).filterMap Row.carried? =
      ((Sheet.ofReport r).lineNumbers.flatMap fun line =>
        ((Sheet.ofReport r).inline line).reverse.map (Carrier.label line, ·)) ++
      (Sheet.ofReport r).trailerRows.filterMap Row.carried? := by
  have hhead : [Row.title r.message, .pointer (headerSpan (Sheet.ofReport r).entries),
      .rail].filterMap Row.carried? = [] := rfl
  have hfoot : [Row.footer].filterMap Row.carried? = [] := rfl
  simp only [rows, List.filterMap_append, List.filterMap_flatMap, Sheet.carried_lineRows,
    carried_hintRows, hhead, hfoot, List.nil_append, List.append_nil]

-- ---------------------------------------------------------------------------
-- Which markers, and in which order
-- ---------------------------------------------------------------------------

namespace Sheet

variable {s : Sheet}

theorem flatMap_inline_perm (s : Sheet) :
    (s.lineNumbers.flatMap s.inline).Perm (s.entries.filter (·.1.isInline)) := by
  have hn : s.lineNumbers.Nodup := s.lineNumbers_pairwise.imp Nat.ne_of_lt
  simp only [funext s.inline_eq]
  refine flatMap_filter_perm hn (fun e : Entry => e.1.start.line) fun e he => ?_
  exact start_mem_lineNumbers (List.mem_of_mem_filter he)

theorem map_snd_trailerRows (s : Sheet) :
    (s.trailerRows.filterMap Row.carried?).map Prod.snd = s.multiline.reverse := by
  cases h : s.multiline with
  | nil => simp [trailerRows, h]
  | cons first rest =>
    rw [carried_trailerRows h]
    simp [Function.comp_def]

theorem suits_of_mem_trailerRows (h : s.Ordered) (hp : p ∈ s.trailerRows.filterMap Row.carried?) :
    ∃ closing, p.1 = .trailer closing ∧ Suits s.entries p := by
  cases hs : s.multiline with
  | nil => simp [trailerRows, hs] at hp
  | cons first rest =>
    have hm := h.multiline
    rw [hs] at hm
    have hleast := (List.pairwise_cons.mp hm).1
    have hfirst := mem_multiline.mp (hs ▸ List.mem_cons_self : first ∈ s.multiline)
    rw [carried_trailerRows hs] at hp
    rcases List.mem_append.mp hp with hp | hp
    · obtain ⟨e, he, rfl⟩ := List.mem_map.mp hp
      have he := List.mem_reverse.mp he
      have hmem := mem_multiline.mp (hs ▸ List.mem_cons_of_mem first he : e ∈ s.multiline)
      refine ⟨false, rfl, hmem.2, iff_of_false Bool.false_ne_true fun hall => ?_⟩
      exact hall first hfirst.1 hfirst.2 (hleast e he)
    · obtain rfl := List.mem_singleton.mp hp
      refine ⟨true, rfl, hfirst.2, iff_of_true rfl fun other ho hi hlt => ?_⟩
      have hmem := mem_multiline.mpr ⟨ho, hi⟩
      rw [hs] at hmem
      rcases List.mem_cons.mp hmem with rfl | hmem
      · exact Span.lt_irrefl _ hlt
      · exact Span.lt_irrefl _ (Span.lt_trans hlt (hleast other hmem))

theorem trailerRows_precedes (h : s.Ordered) :
    (s.trailerRows.filterMap Row.carried?).Pairwise Precedes := by
  cases hs : s.multiline with
  | nil => simp [trailerRows, hs]
  | cons first rest =>
    have hm := h.multiline
    rw [hs, List.pairwise_cons] at hm
    rw [carried_trailerRows hs, List.pairwise_append, List.pairwise_map, List.pairwise_reverse]
    refine ⟨hm.2, List.pairwise_singleton .., fun p hp q hq => ?_⟩
    obtain ⟨e, he, rfl⟩ := List.mem_map.mp hp
    obtain rfl := List.mem_singleton.mp hq
    exact hm.1 e (List.mem_reverse.mp he)

end Sheet

theorem carried_perm (sources : Sources) (r : Report) :
    (((rows sources r).filterMap Row.carried?).map Prod.snd).Perm r.markers.entries := by
  have hlabels : ((Sheet.ofReport r).lineNumbers.flatMap fun line =>
      ((Sheet.ofReport r).inline line).reverse).Perm
      ((Sheet.ofReport r).entries.filter (·.1.isInline)) :=
    (List.Perm.flatMap_left _ fun line _ => List.reverse_perm _).trans
      (Sheet.ofReport r).flatMap_inline_perm
  have htrailer : (Sheet.ofReport r).multiline.reverse.Perm
      ((Sheet.ofReport r).entries.filter (!·.1.isInline)) := List.reverse_perm _
  have hall := (hlabels.append htrailer).trans (List.filter_append_perm _ _)
  rw [carried_rows, List.map_append, Sheet.map_snd_trailerRows, List.map_flatMap]
  simp only [List.map_map, Function.comp_def, List.map_id']
  exact hall.trans (sortEntries_perm _)

theorem carried_precedes (sources : Sources) (r : Report) :
    ((rows sources r).filterMap Row.carried?).Pairwise Precedes := by
  have ho := Sheet.ofReport_ordered r
  rw [carried_rows, List.pairwise_append, List.pairwise_flatMap]
  refine ⟨⟨fun line _ => ?_, ?_⟩, Sheet.trailerRows_precedes ho, ?_⟩
  · rw [List.pairwise_map, List.pairwise_reverse]
    exact (ho.inline line).imp fun hab => .inr ⟨rfl, hab⟩
  · refine (Sheet.ofReport r).lineNumbers_pairwise.imp fun {m n} hmn p hp q hq => ?_
    obtain ⟨a, -, rfl⟩ := List.mem_map.mp hp
    obtain ⟨b, -, rfl⟩ := List.mem_map.mp hq
    exact .inl hmn
  · intro p hp q hq
    obtain ⟨line, -, hp⟩ := List.mem_flatMap.mp hp
    obtain ⟨a, -, rfl⟩ := List.mem_map.mp hp
    obtain ⟨closing, hc, -⟩ := Sheet.suits_of_mem_trailerRows ho hq
    obtain ⟨carrier, b⟩ := q
    cases hc
    trivial

theorem Suits.perm {es fs : List Entry} (h : es.Perm fs) (hp : Suits es p) : Suits fs p := by
  obtain ⟨_ | closing, e⟩ := p
  · exact hp
  · obtain ⟨hi, hc⟩ := hp
    refine ⟨hi, hc.trans ?_⟩
    simp only [h.mem_iff]

theorem carried_suits (hp : p ∈ (rows sources r).filterMap Row.carried?) :
    Suits r.markers.entries p := by
  rw [carried_rows] at hp
  rcases List.mem_append.mp hp with hp | hp
  · obtain ⟨line, -, hp⟩ := List.mem_flatMap.mp hp
    obtain ⟨e, he, rfl⟩ := List.mem_map.mp hp
    exact (Sheet.mem_inline.mp (List.mem_reverse.mp he)).2
  · obtain ⟨-, -, hs⟩ := Sheet.suits_of_mem_trailerRows (Sheet.ofReport_ordered r) hp
    exact hs.perm (sortEntries_perm _)

theorem Row.eq_trailer (h : carried? row = some (.trailer closing, e)) :
    row = .trailer closing e := by
  cases row with
  | trailer last entry =>
    cases h
    rfl
  | _ => cases h

theorem rows_after_trailer (sources : Sources) (r : Report) :
    (rows sources r).Pairwise fun a b =>
      ∀ closing e, a.carried? = some (.trailer closing, e) → b.line? = none := by
  have hbefore : ∀ row ∈ [.title r.message, .pointer (headerSpan (Sheet.ofReport r).entries),
      .rail] ++ (Sheet.ofReport r).lineNumbers.flatMap ((Sheet.ofReport r).lineRows sources),
      ∀ closing e, row.carried? ≠ some (.trailer closing, e) := by
    intro row hrow closing e h
    obtain rfl := row.eq_trailer h
    rcases List.mem_append.mp hrow with hrow | hrow
    · simp at hrow
    · obtain ⟨line, -, hrow⟩ := List.mem_flatMap.mp hrow
      cases Sheet.line?_of_mem_lineRows hrow
  rw [rows_eq_lines, List.pairwise_append]
  refine ⟨?_, ?_, fun _ _ _ hb _ _ _ => line?_of_mem_closingRows hb⟩
  · exact List.pairwise_of_forall_mem_list fun a ha _ _ closing e h =>
      absurd h (hbefore a ha closing e)
  · exact List.pairwise_of_forall_mem_list fun _ _ _ hb _ _ _ => line?_of_mem_closingRows hb

-- ---------------------------------------------------------------------------
-- Messages
-- ---------------------------------------------------------------------------

/-- A row of the trailer has a cap before its message. -/
def Carrier.Capped (charset : Charset) (lead : List Fragment) : Carrier → Prop
  | .label _ => True
  | .trailer closing => lead.getLast?.map Fragment.content =
      some ((if closing then Glyph.trailerLast else .trailerBranch).draw charset)

/-- A row shows the fragments of a message behind its head, all of them
hanging. Styles may differ. -/
def Row.Carries (charset : Charset) (f : Frame) (carrier : Carrier) (message : Document)
    (row : Row) : Prop :=
  ∃ lead shown, row.fragments charset f = lead ++ shown ∧ carrier.Capped charset lead ∧
    (∀ fragment ∈ lead, fragment.hanging = false) ∧ (∀ fragment ∈ shown, fragment.hanging = true) ∧
    shown.map Fragment.content = message.fragments.map Fragment.content

theorem content_message (charset : Charset) (d : Document) :
    ((Piece.message d).map (Piece.draw charset)).map Fragment.content =
      d.fragments.map Fragment.content := by
  simp [Piece.message, Document.hang, Fragment.hang, Function.comp_def, Piece.draw_ofFragment]

theorem Row.content_carried (f : Frame) (h : carried? row = some (carrier, e)) :
    (row.message f).fragments.map Fragment.content =
      e.2.message.fragments.map Fragment.content := by
  cases row with
  | label line bracket pipes shared entry =>
    cases h
    simp [Row.message, Document.restyle, Fragment.restyle, Function.comp_def]
  | trailer last entry =>
    cases h
    rfl
  | _ => cases h

theorem Row.capped_head (charset : Charset) (f : Frame) (h : carried? row = some (carrier, e)) :
    carrier.Capped charset ((row.head f).map (Piece.draw charset)) := by
  cases row with
  | label line bracket pipes shared entry =>
    cases h
    trivial
  | trailer last entry =>
    cases h
    simp [Carrier.Capped, Row.head, Piece.draw, Piece.glyph, Ink.draw]
  | _ => cases h

theorem Row.carries (charset : Charset) (f : Frame) (h : carried? row = some (carrier, e)) :
    row.Carries charset f carrier e.2.message := by
  refine ⟨(row.head f).map (Piece.draw charset),
    (Piece.message (row.message f)).map (Piece.draw charset), ?_, row.capped_head charset f h,
    ?_, ?_, ?_⟩
  · rw [Row.fragments, Row.pieces, List.map_append]
  · exact List.forall_mem_map.mpr (row.head_hanging f)
  · exact List.forall_mem_map.mpr (Piece.message_hanging _)
  · rw [content_message, content_carried f h]

/-- No marker is lost or shown twice.

The fragments of a layout are those of its rows. The rows that carry messages
have just the markers of the report, each at its place and in order, and show
what the messages hold. -/
theorem layout_markers (charset : Charset) (sources : Sources) (r : Report) :
    (r.layout charset sources).fragments = List.intercalate [lineFeed]
        ((rows sources r).map (Row.fragments charset (Sheet.ofReport r).frame)) ∧
      (((rows sources r).filterMap Row.carried?).map Prod.snd).Perm r.markers.entries ∧
      (∀ p ∈ (rows sources r).filterMap Row.carried?, Suits r.markers.entries p) ∧
      ((rows sources r).filterMap Row.carried?).Pairwise Precedes ∧
      ((rows sources r).Pairwise fun a b =>
        ∀ closing e, a.carried? = some (.trailer closing, e) → b.line? = none) ∧
      ∀ row ∈ rows sources r, ∀ carrier e, row.carried? = some (carrier, e) →
        row.Carries charset (Sheet.ofReport r).frame carrier e.2.message :=
  ⟨fragments_layout charset sources r, carried_perm sources r, fun _ => carried_suits,
    carried_precedes sources r, rows_after_trailer sources r,
    fun row _ _ _ => row.carries charset _⟩

end SpanReport.Layout
