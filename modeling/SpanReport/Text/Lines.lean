/-!
# Physical lines

A text is cut at every line feed, so it has one line more than it has line
feeds, and joining the lines gives it back. Columns count characters and start
at one; a line feed takes the column back to one. A hanging indent puts blanks
after every line feed and changes nothing else.
-/

namespace SpanReport.Text

/-- The lines of a text with one more character in front. -/
def linesCons (c : Char) : List (List Char) → List (List Char)
  | [] => [[c]]
  | line :: others => if c = '\n' then [] :: line :: others else (c :: line) :: others

/-- The lines of a text: what stands before, between and after its line feeds. -/
def lines (text : List Char) : List (List Char) := text.foldr linesCons [[]]

def joinLines (ls : List (List Char)) : List Char := List.intercalate ['\n'] ls

def width (text : List Char) : Nat := (lines text).foldl (fun w line => max w line.length) 0

/-- The column reached by printing a text from the given column. -/
def advance (column : Int) (text : List Char) : Int :=
  text.foldl (fun reached c => if c = '\n' then 1 else reached + 1) column

/-- Every line feed followed by so many blanks. -/
def hang (indent : Nat) (text : List Char) : List Char :=
  text.flatMap fun c => if c = '\n' then '\n' :: List.replicate indent ' ' else [c]

/-- A carriage return becomes a line feed; one that stands before a line feed
becomes a single line feed with it. The flag tells whether the text so far
begins with a line feed of its own. -/
def unifyStep (c : Char) : List Char × Bool → List Char × Bool
  | (text, feeds) =>
    if c = '\r' then (if feeds then text else '\n' :: text, false)
    else (c :: text, c == '\n')

def unifyBreaks (text : List Char) : List Char := (text.foldr unifyStep ([], false)).1

-- ---------------------------------------------------------------------------
-- Lines
-- ---------------------------------------------------------------------------

@[simp] theorem lines_nil : lines [] = [[]] := rfl

theorem linesCons_ne_nil (c : Char) (ls : List (List Char)) : linesCons c ls ≠ [] := by
  cases ls with
  | nil => simp [linesCons]
  | cons line others => simp only [linesCons]; split <;> simp

theorem lines_ne_nil (text : List Char) : lines text ≠ [] := by
  cases text with
  | nil => simp
  | cons c rest => exact linesCons_ne_nil c _

@[simp] theorem lines_newline (rest : List Char) : lines ('\n' :: rest) = [] :: lines rest := by
  obtain ⟨line, others, h⟩ := List.exists_cons_of_ne_nil (lines_ne_nil rest)
  have : lines ('\n' :: rest) = linesCons '\n' (lines rest) := rfl
  simp [this, h, linesCons]

theorem lines_cons (hc : c ≠ '\n') (h : lines rest = line :: others) :
    lines (c :: rest) = (c :: line) :: others := by
  have : lines (c :: rest) = linesCons c (lines rest) := rfl
  simp [this, h, linesCons, hc]

theorem joinLines_lines (text : List Char) : joinLines (lines text) = text := by
  induction text with
  | nil => rfl
  | cons c rest ih =>
    obtain ⟨line, others, h⟩ := List.exists_cons_of_ne_nil (lines_ne_nil rest)
    by_cases hc : c = '\n'
    · subst hc
      simp only [lines_newline]
      rw [h] at ih ⊢
      simpa [joinLines, List.intercalate, List.intersperse] using ih
    · rw [lines_cons hc h]
      rw [h] at ih
      cases others with
      | nil => simpa [joinLines, List.intercalate, List.intersperse] using ih
      | cons next others => simpa [joinLines, List.intercalate, List.intersperse] using ih

-- ---------------------------------------------------------------------------
-- Columns and indents
-- ---------------------------------------------------------------------------

@[simp] theorem advance_nil (column : Int) : advance column [] = column := rfl

theorem advance_append (column : Int) (first second : List Char) :
    advance column (first ++ second) = advance (advance column first) second := by
  simp [advance, List.foldl_append]

theorem one_le_advance {column : Int} (h : 1 ≤ column) (text : List Char) :
    1 ≤ advance column text := by
  induction text generalizing column with
  | nil => exact h
  | cons c rest ih =>
    have := @ih (if c = '\n' then 1 else column + 1) (by split <;> omega)
    simpa [advance] using this

@[simp] theorem hang_zero (text : List Char) : hang 0 text = text := by
  induction text with
  | nil => rfl
  | cons c rest ih =>
    have : hang 0 (c :: rest) = c :: hang 0 rest := by
      by_cases h : c = '\n' <;> simp [hang, h]
    rw [this, ih]

end SpanReport.Text
