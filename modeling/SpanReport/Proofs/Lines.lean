import SpanReport.Text.Lines

/-!
# Cutting and joining lines

`Text.lines` is the standard cut at a character, so what is known of that cut
holds of it: joining lines without line feeds and cutting again gives them
back. Of two texts put together, the last line of the first and the first line
of the second become one, and every other line stays. Columns and indents are
read off character by character.
-/

namespace SpanReport.Text

theorem lines_eq_splitOn (text : List Char) : lines text = text.splitOn '\n' := by
  induction text with
  | nil => rfl
  | cons c rest ih =>
    rw [List.splitOn_cons_eq_if_modifyHead, ← ih]
    obtain ⟨line, others, h⟩ := List.exists_cons_of_ne_nil (lines_ne_nil rest)
    by_cases hc : c = '\n'
    · subst hc; simp
    · simp [lines_cons hc h, h, hc]

theorem lines_joinLines (hne : ls ≠ []) (h : ∀ line ∈ ls, '\n' ∉ line) :
    lines (joinLines ls) = ls := by
  rw [lines_eq_splitOn]
  exact List.splitOn_intercalate '\n' h hne

theorem newline_not_mem_line (h : line ∈ lines text) : '\n' ∉ line := by
  induction text generalizing line with
  | nil =>
    have : line = [] := by simpa using h
    simp [this]
  | cons c rest ih =>
    by_cases hc : c = '\n'
    · subst hc
      rcases List.mem_cons.mp (lines_newline rest ▸ h) with rfl | hl
      · simp
      · exact ih hl
    · obtain ⟨first, others, hr⟩ := List.exists_cons_of_ne_nil (lines_ne_nil rest)
      rw [lines_cons hc hr] at h
      rcases List.mem_cons.mp h with rfl | hl
      · have hf : '\n' ∉ first := ih (by simp [hr])
        simp [hf, Ne.symm hc]
      · exact ih (by simp [hr, hl])

theorem mem_of_mem_line (h : line ∈ lines text) (hc : c ∈ line) : c ∈ text := by
  have hj := joinLines_lines text
  rw [← hj, joinLines]
  generalize lines text = ls at h
  induction ls with
  | nil => cases h
  | cons first others ih =>
    rcases others with _ | ⟨second, others⟩
    · obtain rfl : line = first := by simpa using h
      simpa using hc
    · rw [List.intercalate_cons_cons]
      rcases List.mem_cons.mp h with rfl | hl
      · simp [hc]
      · exact List.mem_append_right _ (ih hl)

theorem newline_not_mem_toDigits (n : Nat) : '\n' ∉ Nat.toDigits 10 n := by
  intro h
  have := Nat.isDigit_of_mem_toDigits (by decide) (by decide) h
  exact absurd this (by decide)

theorem joinLines_cons_cons (first second : List Char) (others : List (List Char)) :
    joinLines (first :: second :: others) = first ++ '\n' :: joinLines (second :: others) := by
  simp [joinLines, List.intercalate_cons_cons]

theorem lines_append (h₁ : lines first = firsts ++ [last]) (h₂ : lines second = head :: others) :
    lines (first ++ second) = firsts ++ (last ++ head) :: others := by
  induction first generalizing firsts last with
  | nil =>
    obtain ⟨rfl, rfl⟩ : firsts = [] ∧ last = [] := by
      rcases firsts with _ | ⟨_, _ | _⟩ <;> simp_all
    simpa using h₂
  | cons c rest ih =>
    by_cases hc : c = '\n'
    · subst hc
      rw [lines_newline] at h₁
      rcases firsts with _ | ⟨line, firsts⟩
      · simp [lines_ne_nil] at h₁
      · obtain ⟨rfl, hr⟩ := List.cons.inj h₁
        rw [List.cons_append, lines_newline, ih hr, List.cons_append]
    · obtain ⟨line, more, hr⟩ := List.exists_cons_of_ne_nil (lines_ne_nil rest)
      rw [lines_cons hc hr] at h₁
      rcases firsts with _ | ⟨begun, firsts⟩
      · obtain ⟨rfl, rfl⟩ : last = c :: line ∧ more = [] := by simpa [eq_comm] using h₁
        have hl : lines (rest ++ second) = (line ++ head) :: others := @ih [] line hr
        exact lines_cons hc hl
      · obtain ⟨rfl, rfl⟩ := List.cons.inj h₁
        have hl : lines (rest ++ second) = line :: (firsts ++ (last ++ head) :: others) :=
          @ih (line :: firsts) last hr
        exact lines_cons hc hl

-- ---------------------------------------------------------------------------
-- Columns and indents
-- ---------------------------------------------------------------------------

theorem advance_cons (hc : c ≠ '\n') (column : Int) (rest : List Char) :
    advance column (c :: rest) = advance (column + 1) rest := by
  simp [advance, hc]

@[simp] theorem hang_newline (indent : Nat) (rest : List Char) :
    hang indent ('\n' :: rest) = '\n' :: (List.replicate indent ' ' ++ hang indent rest) := rfl

theorem hang_cons (hc : c ≠ '\n') (indent : Nat) (rest : List Char) :
    hang indent (c :: rest) = c :: hang indent rest := by
  simp [hang, hc]

theorem mem_of_mem_hang (h : c ∈ hang indent text) : c ∈ text ∨ c = ' ' := by
  induction text with
  | nil => cases h
  | cons d rest ih =>
    by_cases hd : d = '\n'
    · subst hd
      rw [hang_newline] at h
      rcases List.mem_cons.mp h with rfl | h
      · simp
      · rcases List.mem_append.mp h with h | h
        · exact .inr (List.eq_of_mem_replicate h)
        · exact (ih h).imp_left (List.mem_cons_of_mem _)
    · rw [hang_cons hd] at h
      rcases List.mem_cons.mp h with rfl | h
      · simp
      · exact (ih h).imp_left (List.mem_cons_of_mem _)

end SpanReport.Text
