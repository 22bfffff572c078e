import SpanReport.Proofs.Rows
import SpanReport.Proofs.Sheet
import Mathlib.Data.List.Nodup
import Mathlib.Data.Prod.Lex
import Mathlib.Data.String.Basic

/-!
# Equal reports

Two reports are equal if they agree in severity, message and hints and have the
same marker at every span. `layout_of_beq`: equal reports have the same layout,
in whatever order their markers were put in and whatever was replaced on the
way, since nothing after the sorting of the markers sees that order.
-/

namespace SpanReport

-- ---------------------------------------------------------------------------
-- Markers by span
-- ---------------------------------------------------------------------------

namespace Markers

theorem mem_entries {ms : Markers} : (span, marker) ∈ ms.entries ↔ ms.get? span = some marker := by
  rw [get?, List.lookup_eq_some_iff]
  constructor
  · intro h
    obtain ⟨before, after, he⟩ := List.append_of_mem h
    refine ⟨before, after, he, fun e hb => ?_⟩
    have hn := ms.nodup
    rw [he, List.map_append, List.nodup_append] at hn
    have hne : e.1 ≠ span := hn.2.2 _ (List.mem_map_of_mem hb) _ (by simp)
    simpa using hne.symm
  · rintro ⟨before, after, he, -⟩
    simp [he]

theorem sameMap_iff_perm {a b : Markers} : a.sameMap b ↔ a.entries.Perm b.entries := List.isPerm_iff

theorem sameMap_iff {a b : Markers} : a.sameMap b ↔ ∀ span, a.get? span = b.get? span := by
  have hn (ms : Markers) : ms.entries.Nodup := List.Nodup.of_map Prod.fst ms.nodup
  rw [sameMap_iff_perm, List.perm_ext_iff_of_nodup (hn a) (hn b)]
  constructor
  · intro h span
    exact Option.ext fun marker => mem_entries.symm.trans ((h (span, marker)).trans mem_entries)
  · rintro h ⟨span, marker⟩
    rw [mem_entries, mem_entries, h]

end Markers

theorem Report.beq_iff {a b : Report} : a == b ↔ a.severity = b.severity ∧ a.message = b.message ∧
    a.hints = b.hints ∧ ∀ span, a.markers.get? span = b.markers.get? span := by
  have hbeq : (a == b) = (a.severity == b.severity && a.message == b.message &&
      a.markers.sameMap b.markers && a.hints == b.hints) := rfl
  simp only [hbeq, Bool.and_eq_true, beq_iff_eq, Markers.sameMap_iff]
  tauto

-- ---------------------------------------------------------------------------
-- Ranks
-- ---------------------------------------------------------------------------

/-- Lines and columns of both ends, and then the file by its code points. -/
def Span.rank (s : Span) : ℕ ×ₗ ℕ ×ₗ ℕ ×ₗ ℕ ×ₗ String :=
  toLex (s.start.line, toLex (s.start.column, toLex (s.stop.line, toLex (s.stop.column, s.file))))

theorem Span.lt_iff_rank {a b : Span} : a < b ↔ a.rank < b.rank := by
  rw [lt_iff_coordinates]
  simp only [rank, Prod.Lex.toLex_lt_toLex]

namespace Layout

-- ---------------------------------------------------------------------------
-- The least and the greatest marker
-- ---------------------------------------------------------------------------

/-- The marker with the least span of those that pass a test. -/
structure Least (entries : List Entry) (test : Entry → Bool) (e : Entry) : Prop where
  mem : e ∈ entries
  passes : test e
  le : ∀ other ∈ entries, test other → e.1.rank ≤ other.1.rank

/-- The marker with the greatest span of those that pass a test. -/
structure Greatest (entries : List Entry) (test : Entry → Bool) (e : Entry) : Prop where
  mem : e ∈ entries
  passes : test e
  le : ∀ other ∈ entries, test other → other.1.rank ≤ e.1.rank

theorem Least.perm (hp : es.Perm fs) (h : Least es test e) : Least fs test e :=
  ⟨hp.mem_iff.mp h.mem, h.passes, fun other ho => h.le other (hp.mem_iff.mpr ho)⟩

theorem Least.imp {p q : Entry → Bool} (h : Least entries p e) (hq : q e)
    (himp : ∀ other, q other → p other) : Least entries q e :=
  ⟨h.mem, hq, fun other ho hother => h.le other ho (himp other hother)⟩

/-- In a list that follows an order, only the first element has none before it. -/
theorem head?_eq_some_iff_of_pairwise {xs : List α} {R : α → α → Prop} (hr : ∀ a b, R a b → ¬ R b a)
    (h : xs.Pairwise R) : xs.head? = some x ↔ x ∈ xs ∧ ∀ y ∈ xs, ¬ R y x := by
  cases xs with
  | nil => simp
  | cons first rest =>
    obtain ⟨hfirst, -⟩ := List.pairwise_cons.mp h
    rw [List.head?_cons, Option.some_inj]
    constructor
    · rintro rfl
      refine ⟨List.mem_cons_self, List.forall_mem_cons.mpr ⟨fun hxx => hr _ _ hxx hxx, ?_⟩⟩
      exact fun y hy => hr _ _ (hfirst y hy)
    · rintro ⟨hx, hnone⟩
      rcases List.mem_cons.mp hx with rfl | hx
      · rfl
      · exact absurd (hfirst x hx) (hnone first List.mem_cons_self)

section
variable {entries : List Entry} (h : entries.Pairwise fun a b => a.1 < b.1)
  (test : Entry → Bool)
include h

/-- Of markers in order, the first one to pass is the least. -/
theorem find?_eq_some_iff_least : entries.find? test = some e ↔ Least entries test e := by
  have hr (a b : Entry) : a.1 < b.1 → ¬ b.1 < a.1 :=
    fun hab hba => Span.lt_irrefl _ (Span.lt_trans hab hba)
  rw [← List.head?_filter, head?_eq_some_iff_of_pairwise hr (h.filter test)]
  simp only [List.mem_filter, Span.lt_iff_rank, not_lt, and_imp]
  exact ⟨fun ⟨⟨hm, ht⟩, hle⟩ => ⟨hm, ht, hle⟩, fun ⟨hm, ht, hle⟩ => ⟨⟨hm, ht⟩, hle⟩⟩

/-- And the last one to pass is the greatest. -/
theorem getLast?_filter_eq_some_iff :
    (entries.filter test).getLast? = some e ↔ Greatest entries test e := by
  have hr (a b : Entry) : b.1 < a.1 → ¬ a.1 < b.1 :=
    fun hba hab => Span.lt_irrefl _ (Span.lt_trans hba hab)
  rw [← List.head?_reverse,
    head?_eq_some_iff_of_pairwise hr (List.pairwise_reverse.mpr (h.filter test))]
  simp only [List.mem_reverse, List.mem_filter, Span.lt_iff_rank, not_lt, and_imp]
  exact ⟨fun ⟨⟨hm, ht⟩, hle⟩ => ⟨hm, ht, hle⟩, fun ⟨hm, ht, hle⟩ => ⟨⟨hm, ht⟩, hle⟩⟩

end

section
variable {r : Report} {test : Entry → Bool}

/-- The sheet of a report finds the least marker first. -/
theorem least_iff :
    (Sheet.ofReport r).entries.find? test = some e ↔ Least r.markers.entries test e := by
  rw [find?_eq_some_iff_least (Sheet.ofReport_ordered r)]
  exact ⟨.perm (sortEntries_perm _), .perm (sortEntries_perm _).symm⟩

theorem Least.unique (ha : Least r.markers.entries test a) (hb : Least r.markers.entries test b) :
    a = b :=
  Option.some_inj.mp ((least_iff.mpr ha).symm.trans (least_iff.mpr hb))

theorem least_or_none (r : Report) (test : Entry → Bool) :
    (∃ e, Least r.markers.entries test e) ∨ ∀ e ∈ r.markers.entries, ¬test e := by
  cases hf : (Sheet.ofReport r).entries.find? test with
  | some e => exact .inl ⟨e, least_iff.mp hf⟩
  | none =>
    exact .inr fun e he => List.find?_eq_none.mp hf e (Sheet.mem_ofReport_entries.mpr he)

theorem exists_least (h : ∃ e ∈ r.markers.entries, test e) :
    ∃ e, Least r.markers.entries test e := by
  obtain ⟨e, he, ht⟩ := h
  exact (least_or_none r test).resolve_right fun hnone => hnone e he ht

end

-- ---------------------------------------------------------------------------
-- The header of a report
-- ---------------------------------------------------------------------------

/-- The span that the header of a report points to. -/
inductive Heads (r : Report) : Span → Prop
  | least (h : (span, marker) ∈ r.markers.entries) (hp : marker.role = .primary)
      (hl : ∀ e ∈ r.markers.entries, e.2.role = .primary → span.rank ≤ e.1.rank) : Heads r span
  | nowhere (h : ∀ e ∈ r.markers.entries, e.2.role ≠ .primary) : Heads r Span.nowhere

theorem heads_headerSpan (r : Report) : Heads r (headerSpan (Sheet.ofReport r).entries) := by
  unfold headerSpan
  split
  · rename_i span marker hf
    obtain ⟨hm, hp, hle⟩ := least_iff.mp hf
    exact .least hm (beq_iff_eq.mp hp) fun e he hprimary => hle e he (beq_iff_eq.mpr hprimary)
  · rename_i hf
    refine .nowhere fun e he hp => ?_
    have hnot := List.find?_eq_none.mp hf e (Sheet.mem_ofReport_entries.mpr he)
    simp [hp] at hnot

-- ---------------------------------------------------------------------------
-- Layouts
-- ---------------------------------------------------------------------------

/-- Entries stand in one order only if that is the order of their spans. -/
theorem eq_of_perm_ordered {a b : List Entry} (h : a.Perm b) (ha : a.Pairwise fun x y => x.1 < y.1)
    (hb : b.Pairwise fun x y => x.1 < y.1) : a = b :=
  h.eq_of_pairwise (fun _ _ _ _ hxy hyx => absurd (Span.lt_trans hxy hyx) (Span.lt_irrefl _)) ha hb

/-- The order in which entries stand is lost when they are sorted. -/
theorem sortEntries_congr (h : a.Perm b) (ha : (a.map Prod.fst).Nodup) :
    sortEntries a = sortEntries b := by
  have hb : (b.map Prod.fst).Nodup := (h.map Prod.fst).nodup_iff.mp ha
  exact eq_of_perm_ordered ((sortEntries_perm a).trans (h.trans (sortEntries_perm b).symm))
    (sortEntries_pairwise ha) (sortEntries_pairwise hb)

theorem ofReport_eq_of_beq {a b : Report} (h : a == b) : Sheet.ofReport a = Sheet.ofReport b := by
  obtain ⟨hseverity, -, -, hmarkers⟩ := Report.beq_iff.mp h
  have hperm := Markers.sameMap_iff_perm.mp (Markers.sameMap_iff.mpr hmarkers)
  rw [Sheet.ofReport, Sheet.ofReport, hseverity, sortEntries_congr hperm a.markers.nodup]

theorem rows_eq_of_beq {a b : Report} (h : a == b) (sources : Sources) :
    rows sources a = rows sources b := by
  obtain ⟨-, hmessage, hhints, hmarkers⟩ := Report.beq_iff.mp h
  have hperm := Markers.sameMap_iff_perm.mp (Markers.sameMap_iff.mpr hmarkers)
  have hempty : a.markers.isEmpty = b.markers.isEmpty := hperm.isEmpty_eq
  simp only [rows, hintRows, ofReport_eq_of_beq h, hmessage, hhints, hempty]

theorem layout_eq_of_beq {a b : Report} (h : a == b) (charset : Charset) (sources : Sources) :
    a.layout charset sources = b.layout charset sources := by
  simp only [Report.layout, pieces, rows_eq_of_beq h, ofReport_eq_of_beq h]

/-- The pointer is the second row of every layout. -/
theorem fragments_pointer (charset : Charset) (sources : Sources) (r : Report) :
    ∃ rest, (r.layout charset sources).fragments =
      (Row.title r.message).fragments charset (Sheet.ofReport r).frame ++ lineFeed ::
        (Row.pointer (headerSpan (Sheet.ofReport r).entries)).fragments charset
          (Sheet.ofReport r).frame ++ lineFeed :: rest := by
  have hrows : rows sources r = [.title r.message] ++
      .pointer (headerSpan (Sheet.ofReport r).entries) :: .rail :: (rows sources r).drop 3 := rfl
  rw [layout_fragments charset hrows]
  simp only [List.flatMap_cons, List.flatMap_nil, List.append_nil, List.append_assoc,
    List.cons_append, List.nil_append]
  exact ⟨_, rfl⟩

/-- Equal reports have the same layout, fragment by fragment. Its pointer shows
the least span of a primary marker, if there is one. -/
theorem layout_of_beq {a b : Report} (h : a == b) (charset : Charset) (sources : Sources) :
    a.layout charset sources = b.layout charset sources ∧
      ∃ span rest, Heads a span ∧ (a.layout charset sources).fragments =
        (Row.title a.message).fragments charset (Sheet.ofReport a).frame ++ lineFeed ::
          (Row.pointer span).fragments charset (Sheet.ofReport a).frame ++ lineFeed :: rest := by
  obtain ⟨rest, hrest⟩ := fragments_pointer charset sources a
  exact ⟨layout_eq_of_beq h charset sources, _, rest, heads_headerSpan a, hrest⟩

def firstLetter : Span :=
  ⟨"a.txt", ⟨1, 1⟩, ⟨1, 2⟩, Nat.le_refl 1, ⟨Nat.le_refl 1, Nat.le_succ 1⟩,
    .inr ⟨rfl, Nat.le_succ 1⟩⟩

def nextLine : Span :=
  ⟨"a.txt", ⟨1, 1⟩, ⟨2, 1⟩, Nat.le_refl 1, ⟨Nat.le_refl 1, Nat.le_refl 1⟩,
    .inl (Nat.lt_succ_self 1)⟩

def note (text : String) : Marker := ⟨.primary, .ofText text⟩

def inOrder : Report :=
  .build .error {} [.mark firstLetter (note "a"), .mark nextLine (note "b")]

def reordered : Report :=
  .build .error {} [.mark nextLine (note "x"), .mark firstLetter (note "a"),
    .mark nextLine (note "b")]

theorem layout_of_beq_reordered : (inOrder == reordered) = true ∧
    inOrder.layout .ascii [("a.txt", ["f x", "y"])] =
      reordered.layout .ascii [("a.txt", ["f x", "y"])] := by
  have h : (inOrder == reordered) = true := by decide
  exact ⟨h, (layout_of_beq h .ascii _).1⟩

end Layout

end SpanReport
