import Mathlib.Data.List.SplitBy
import SpanReport.Path

/-!
# Zero characters in paths

Taking a path apart and putting paths together drops and adds slashes and
points only. So a path has a zero character exactly if the text does that it
was read from, and a path below a directory has those of both.
-/

namespace SpanReport

theorem mem_intercalate {sep : List α} (h : a ∉ sep) (xs : List (List α)) :
    a ∈ List.intercalate sep xs ↔ ∃ x ∈ xs, a ∈ x := by
  induction xs with
  | nil => simp
  | cons x xs ih =>
    cases xs with
    | nil => simp
    | cons y xs =>
      rw [List.intercalate_cons_cons, List.mem_append, List.mem_append, ih]
      simp [h]

theorem exists_mem_filter_bne [DecidableEq α] {dropped : List α} (h : a ∉ dropped)
    (xs : List (List α)) : (∃ x ∈ xs.filter (· != dropped), a ∈ x) ↔ ∃ x ∈ xs, a ∈ x := by
  constructor
  · rintro ⟨x, hx, ha⟩
    exact ⟨x, List.mem_of_mem_filter hx, ha⟩
  · rintro ⟨x, hx, ha⟩
    have hne : x ≠ dropped := fun he => h (he ▸ ha)
    exact ⟨x, List.mem_filter.mpr ⟨hx, bne_iff_ne.mpr hne⟩, ha⟩

namespace Path

/-- No file has a zero character in its path. -/
def HasZero (p : Path) : Prop := '\x00' ∈ p.text.toList

theorem hasZero_iff (p : Path) :
    p.HasZero ↔ '\x00' ∈ p.root.toList ∨ ∃ part ∈ p.parts, '\x00' ∈ part.toList := by
  have hslash : '\x00' ∉ "/".toList := by decide
  unfold HasZero text
  split
  · rename_i h
    simp [h.1, h.2]
  · rw [String.toList_append, List.mem_append, String.toList_intercalate, mem_intercalate hslash]
    simp

theorem mem_segments (hc : c ≠ '/') (text : List Char) :
    (∃ segment ∈ segments text, c ∈ segment) ↔ c ∈ text := by
  rw [segments, exists_mem_filter_bne (by simpa using hc), ← List.mem_flatten,
    List.flatten_splitBy]

theorem root_parse (s : String) :
    (parse s).root = "" ∨ (parse s).root = "/" ∨ (parse s).root = "//" := by
  dsimp only [parse]
  split
  · exact .inl rfl
  · split
    · exact .inr (.inr rfl)
    · exact .inr (.inl rfl)

theorem hasZero_parse (s : String) : (parse s).HasZero ↔ '\x00' ∈ s.toList := by
  have hroot : '\x00' ∉ (parse s).root.toList := by
    rcases root_parse s with h | h | h <;> rw [h] <;> decide
  have hparts : (∃ part ∈ (parse s).parts, '\x00' ∈ part.toList) ↔
      ∃ segment ∈ (segments s.toList).filter (· != ['.']), '\x00' ∈ segment := by
    simp [parse]
  rw [hasZero_iff, or_iff_right hroot, hparts, exists_mem_filter_bne (by decide),
    mem_segments (by decide)]

theorem hasZero_within (base p : Path) :
    (base.within p).HasZero ↔ p.HasZero ∨ p.isAbsolute = false ∧ base.HasZero := by
  unfold within
  split
  · rename_i h
    simp [h]
  · rename_i h
    have hroot : p.root = "" := by simpa [isAbsolute] using h
    rw [hasZero_iff, hasZero_iff p, hasZero_iff base, hroot]
    simp only [List.mem_append, or_and_right, exists_or, Bool.not_eq_true] at h ⊢
    rw [eq_true h, true_and, or_comm (a := ∃ part ∈ base.parts, _)]
    simp [or_left_comm]

theorem hasZero_of_parent {p : Path} (h : p.parent.HasZero) : p.HasZero := by
  rw [hasZero_iff] at h ⊢
  refine h.imp_right ?_
  rintro ⟨part, hp, hz⟩
  exact ⟨part, List.dropLast_subset _ hp, hz⟩

end Path

end SpanReport
