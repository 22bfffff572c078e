import SpanReport.Layout.Sheet
import Mathlib.Data.List.Basic

/-!
# What a sheet answers

Spans are totally ordered, so the markers of a report, which have distinct
spans, stand on its sheet in strictly ascending order. The displayed lines are
those that some marker touches, each once and in ascending order, and the
number of each fits into the gutter.
-/

namespace SpanReport

-- ---------------------------------------------------------------------------
-- The order of spans
-- ---------------------------------------------------------------------------

namespace Span

abbrev lexicographic : Span → Span → Ordering :=
  compareLex (compareOn (·.start.line)) <| compareLex (compareOn (·.start.column)) <|
    compareLex (compareOn (·.stop.line)) <| compareLex (compareOn (·.stop.column)) <|
      compareOn (·.file)

theorem compare_eq_lexicographic : (compare : Span → Span → Ordering) = lexicographic := rfl

instance : Std.TransOrd Span := inferInstanceAs (Std.TransCmp lexicographic)

instance : Std.LawfulEqOrd Span where
  eq_of_compare {a b} h := by
    rw [compare_eq_lexicographic] at h
    simp only [lexicographic, compareLex_eq_eq, compareOn, Std.LawfulEqCmp.compare_eq_iff_eq] at h
    obtain ⟨h₁, h₂, h₃, h₄, h₅⟩ := h
    obtain ⟨_, ⟨_, _⟩, ⟨_, _⟩, _, _, _⟩ := a
    obtain ⟨_, ⟨_, _⟩, ⟨_, _⟩, _, _, _⟩ := b
    simp_all

instance : LT Span := ltOfOrd

theorem lt_iff {a b : Span} : a < b ↔ compare a b = .lt := Iff.rfl

theorem isBefore_trans {a b c : Span} (hab : a.isBefore b) (hbc : b.isBefore c) : a.isBefore c :=
  Std.TransOrd.isLE_trans (α := Span) hab hbc

theorem isBefore_total (a b : Span) : a.isBefore b || b.isBefore a := by
  by_cases h : (compare a b).isLE
  · exact Bool.or_eq_true_iff.mpr (.inl h)
  · have hlt : compare b a = .lt := Std.OrientedCmp.lt_of_not_isLE h
    refine Bool.or_eq_true_iff.mpr (.inr ?_)
    show (compare b a).isLE
    rw [hlt]
    rfl

theorem lt_of_isBefore {a b : Span} (h : a.isBefore b) (hne : a ≠ b) : a < b := by
  have hle : (compare a b).isLE := h
  have heq : compare a b ≠ .eq := fun he => hne (Std.LawfulEqCmp.eq_of_compare he)
  rw [lt_iff]
  cases hc : compare a b <;> simp_all

theorem lt_irrefl (a : Span) : ¬ a < a := by
  intro h
  have hc : compare a a = .lt := h
  rw [Std.ReflOrd.compare_self] at hc
  cases hc

theorem lt_trans {a b c : Span} (hab : a < b) (hbc : b < c) : a < c := Std.TransCmp.lt_trans hab hbc

/-- Start first, stop second, and the file only between spans that agree in
both. -/
theorem lt_iff_coordinates {a b : Span} : a < b ↔
    a.start.line < b.start.line ∨ a.start.line = b.start.line ∧
    (a.start.column < b.start.column ∨ a.start.column = b.start.column ∧
    (a.stop.line < b.stop.line ∨ a.stop.line = b.stop.line ∧
    (a.stop.column < b.stop.column ∨ a.stop.column = b.stop.column ∧ a.file < b.file))) := by
  have hfile : compare a.file b.file = .lt ↔ a.file < b.file := compareOfLessAndEq_eq_lt
  rw [lt_iff, compare_eq_lexicographic]
  simp only [lexicographic, compareLex, compareOn, Ordering.then_eq_lt, Nat.compare_eq_lt,
    Nat.compare_eq_eq, hfile]

/-- Of two spans that begin in one line, the greater one begins no further to
the left. -/
theorem start_column_le_of_lt {a b : Span} (h : a < b) (hline : a.start.line = b.start.line) :
    a.start.column ≤ b.start.column := by
  have hc := lt_iff_coordinates.mp h
  omega

-- ---------------------------------------------------------------------------
-- Coverage
-- ---------------------------------------------------------------------------

/-- A span covers the points from its start up to, and without, its stop. -/
theorem covers_iff {s : Span} {line column : Int} : s.covers line column ↔
    ((s.start.line : Int) < line ∨ s.start.line = line ∧ s.start.column ≤ column) ∧
      (line < s.stop.line ∨ line = s.stop.line ∧ column < s.stop.column) := by
  have hs := s.start_before_stop
  unfold Point.Before at hs
  unfold covers
  split
  · rename_i hi
    have hline : s.start.line = s.stop.line := by simpa [isInline] using hi
    simp only [Bool.and_eq_true, beq_iff_eq, decide_eq_true_eq]
    omega
  · rename_i hi
    have hline : s.start.line ≠ s.stop.line := by simpa [isInline] using hi
    split_ifs <;> simp only [Bool.and_eq_true, decide_eq_true_eq] <;> omega

theorem touches_of_covers {s : Span} {line column : Nat} (h : s.covers line column) :
    s.touches line := by
  have hc := covers_iff.mp h
  simp only [touches, Bool.and_eq_true, decide_eq_true_eq]
  omega

theorem covers_inline {s : Span} {line : Nat} (h : s.isInline) (hl : s.start.line = line)
    (column : Nat) : s.covers line column ↔ s.start.column ≤ column ∧ column < s.stop.column := by
  have hline : s.start.line = s.stop.line := by simpa [isInline] using h
  rw [covers_iff]
  omega

end Span

namespace Layout

theorem sortEntries_perm (entries : List Entry) : (sortEntries entries).Perm entries :=
  List.mergeSort_perm _ _

theorem sortEntries_pairwise (h : (entries.map Prod.fst).Nodup) :
    (sortEntries entries).Pairwise fun a b => a.1 < b.1 := by
  have hsorted : (sortEntries entries).Pairwise fun a b : Entry => a.1.isBefore b.1 := by
    apply List.pairwise_mergeSort
    · exact fun a b c hab hbc => Span.isBefore_trans hab hbc
    · exact fun a b => Span.isBefore_total a.1 b.1
  have hn : (sortEntries entries).Pairwise fun a b => a.1 ≠ b.1 :=
    List.pairwise_map.mp (((sortEntries_perm entries).map Prod.fst).nodup_iff.mpr h)
  exact (hsorted.and hn).imp fun hab => Span.lt_of_isBefore hab.1 hab.2

-- ---------------------------------------------------------------------------
-- Displayed lines
-- ---------------------------------------------------------------------------

theorem uniteLines_nil_right (ms : List Nat) : uniteLines ms [] = ms := by
  cases ms <;> simp [uniteLines]

theorem mem_uniteLines : n ∈ uniteLines ms ns ↔ n ∈ ms ∨ n ∈ ns := by
  induction ms, ns using uniteLines.induct with
  | case1 ns => simp [uniteLines]
  | case2 ms h => simp [uniteLines_nil_right]
  | case3 m ms n' ns hlt ih => simp [uniteLines, hlt, ih, or_assoc]
  | case4 m ms n' ns hnlt hlt ih =>
    simp only [uniteLines, if_neg hnlt, if_pos hlt, List.mem_cons, ih]
    exact or_left_comm
  | case5 m ms n' ns hnlt hnlt' ih =>
    obtain rfl : m = n' := by omega
    simp only [uniteLines, if_neg hnlt, List.mem_cons, ih]
    grind

theorem uniteLines_pairwise (hm : ms.Pairwise (· < ·)) (hn : ns.Pairwise (· < ·)) :
    (uniteLines ms ns).Pairwise (· < ·) := by
  induction ms, ns using uniteLines.induct with
  | case1 ns => simpa [uniteLines] using hn
  | case2 ms h => rwa [uniteLines_nil_right]
  | case3 m ms n ns hlt ih =>
    obtain ⟨hms, hm⟩ := List.pairwise_cons.mp hm
    rw [uniteLines, if_pos hlt]
    refine List.pairwise_cons.mpr ⟨fun k hk => ?_, ih hm hn⟩
    rcases mem_uniteLines.mp hk with hk | hk
    · exact hms k hk
    · rcases List.mem_cons.mp hk with rfl | hk
      · exact hlt
      · exact Nat.lt_trans hlt ((List.pairwise_cons.mp hn).1 k hk)
  | case4 m ms n ns hnlt hlt ih =>
    obtain ⟨hns, hn⟩ := List.pairwise_cons.mp hn
    rw [uniteLines, if_neg hnlt, if_pos hlt]
    refine List.pairwise_cons.mpr ⟨fun k hk => ?_, ih hm hn⟩
    rcases mem_uniteLines.mp hk with hk | hk
    · rcases List.mem_cons.mp hk with rfl | hk
      · exact hlt
      · exact Nat.lt_trans hlt ((List.pairwise_cons.mp hm).1 k hk)
    · exact hns k hk
  | case5 m ms n ns hnlt hnlt' ih =>
    obtain rfl : m = n := by omega
    obtain ⟨hms, hm⟩ := List.pairwise_cons.mp hm
    obtain ⟨hns, hn⟩ := List.pairwise_cons.mp hn
    rw [uniteLines, if_neg hnlt, if_neg hnlt]
    refine List.pairwise_cons.mpr ⟨fun k hk => ?_, ih hm hn⟩
    rcases mem_uniteLines.mp hk with hk | hk
    · exact hms k hk
    · exact hns k hk

namespace Sheet

variable {s : Sheet}

theorem lineNumbers_pairwise (s : Sheet) : s.lineNumbers.Pairwise (· < ·) := by
  unfold lineNumbers
  induction s.entries with
  | nil => exact .nil
  | cons e entries ih =>
    rw [List.map_cons, List.foldr_cons]
    exact uniteLines_pairwise List.pairwise_lt_range' ih

theorem mem_lineNumbers : n ∈ s.lineNumbers ↔ ∃ e ∈ s.entries, e.1.touches n := by
  unfold lineNumbers
  induction s.entries with
  | nil => simp
  | cons e entries ih =>
    rw [List.map_cons, List.foldr_cons, mem_uniteLines, ih, Span.mem_lines,
      List.exists_mem_cons_iff]

theorem start_mem_lineNumbers {e : Entry} (h : e ∈ s.entries) : e.1.start.line ∈ s.lineNumbers := by
  refine mem_lineNumbers.mpr ⟨e, h, ?_⟩
  simpa [Span.touches] using e.1.start_line_le_stop_line

theorem length_repr_le_of_le (h : m ≤ n) : (Nat.repr m).length ≤ (Nat.repr n).length := by
  rw [← String.length_toList, ← String.length_toList, Nat.toList_repr, Nat.toList_repr]
  have hpos : 0 < (Nat.toDigits 10 n).length := Nat.length_toDigits_pos
  have hn : n < 10 ^ (Nat.toDigits 10 n).length :=
    (Nat.length_toDigits_le_iff (by decide) hpos).mp (Nat.le_refl _)
  exact (Nat.length_toDigits_le_iff (by decide) hpos).mpr (Nat.lt_of_le_of_lt h hn)

theorem le_foldl_max (f : Span → Nat) (spans : List Span) (width : Nat) :
    width ≤ spans.foldl (fun width s => max width (f s)) width ∧
      ∀ span ∈ spans, f span ≤ spans.foldl (fun width s => max width (f s)) width := by
  induction spans generalizing width with
  | nil => simp
  | cons first spans ih =>
    obtain ⟨hw, hs⟩ := ih (max width (f first))
    rw [List.foldl_cons]
    refine ⟨by omega, fun span hm => ?_⟩
    rcases List.mem_cons.mp hm with rfl | hm
    · omega
    · exact hs span hm

theorem length_repr_le_gutter (h : n ∈ s.lineNumbers) : (Nat.repr n).length ≤ s.gutter := by
  obtain ⟨e, he, ht⟩ := mem_lineNumbers.mp h
  have hn : n ≤ e.1.stop.line := by
    simp only [Span.touches, Bool.and_eq_true, decide_eq_true_eq] at ht
    exact ht.2
  have hm : e.1 ∈ s.entries.map Prod.fst := List.mem_map_of_mem he
  have hw : (Nat.repr e.1.stop.line).length ≤ s.gutter :=
    (le_foldl_max (fun span => (Nat.repr span.stop.line).length) _ 3).2 e.1 hm
  exact Nat.le_trans (length_repr_le_of_le hn) hw

-- ---------------------------------------------------------------------------
-- The markers of a line
-- ---------------------------------------------------------------------------

def Ordered (s : Sheet) : Prop := s.entries.Pairwise fun a b => a.1 < b.1

theorem ofReport_ordered (r : Report) : (ofReport r).Ordered := sortEntries_pairwise r.markers.nodup

theorem mem_ofReport_entries {r : Report} {e : Entry} :
    e ∈ (ofReport r).entries ↔ e ∈ r.markers.entries := (sortEntries_perm _).mem_iff

theorem inline_eq (s : Sheet) (line : Nat) :
    s.inline line = (s.entries.filter (·.1.isInline)).filter (·.1.start.line == line) := by
  rw [inline, touching, List.filter_filter, List.filter_filter]
  apply List.filter_congr
  intro e _
  have h := e.1.start_line_le_stop_line
  by_cases hi : e.1.start.line = e.1.stop.line
  · rw [Bool.eq_iff_iff]
    simp only [Span.isInline, Span.touches, hi, Bool.and_eq_true, decide_eq_true_eq, beq_iff_eq,
      true_and, and_true]
    omega
  · have hn : e.1.isInline = false := by simpa [Span.isInline] using hi
    rw [hn, Bool.false_and, Bool.and_false]

theorem mem_inline {e : Entry} :
    e ∈ s.inline line ↔ e ∈ s.entries ∧ e.1.isInline ∧ e.1.start.line = line := by
  rw [inline_eq, List.mem_filter, List.mem_filter, beq_iff_eq, and_assoc]

theorem mem_multiline {e : Entry} :
    e ∈ s.multiline ↔ e ∈ s.entries ∧ e.1.isInline = false := by
  simp [multiline]

theorem Ordered.inline (h : s.Ordered) (line : Nat) :
    (s.inline line).Pairwise fun a b => a.1 < b.1 := (h.filter _).filter _

theorem Ordered.multiline (h : s.Ordered) : s.multiline.Pairwise fun a b => a.1 < b.1 := h.filter _

theorem Ordered.inline_columns (h : s.Ordered) (line : Nat) :
    (s.inline line).Pairwise fun a b => a.1.start.column ≤ b.1.start.column := by
  refine (h.inline line).imp_of_mem fun ha hb hab => ?_
  have hline := (mem_inline.mp ha).2.2.trans (mem_inline.mp hb).2.2.symm
  exact Span.start_column_le_of_lt hab hline

end Sheet

end Layout

end SpanReport
