import SpanReport.Proofs.Printing
import SpanReport.Proofs.Roles

/-!
# Hanging fragments as blocks

A hanging fragment that is printed from a column stands there as a block: each of
its lines begins at that column. `emit_block`: the block has the lines of the text,
the further ones behind blanks that can be taken off again, it is as wide as the
fragment, and what is printed next goes on behind its last line.
-/

namespace SpanReport

namespace Text

-- ---------------------------------------------------------------------------
-- Lines
-- ---------------------------------------------------------------------------

/-- A text shows the lines of a content that stands at a column: the first one as it
is, and each further one behind blanks for all columns before. -/
structure IsBlock (column : Int) (content text : List Char) : Prop where
  length : (text.splitOn '\n').length = (content.splitOn '\n').length
  head : (text.splitOn '\n').head? = (content.splitOn '\n').head?
  further : ∀ i line, (content.splitOn '\n')[i + 1]? = some line →
    (text.splitOn '\n')[i + 1]? = some (List.replicate (column - 1).toNat ' ' ++ line)

/-- A text without so many characters at the begin of every line but the first. -/
def outdent (count : Nat) (text : List Char) : List Char :=
  match text.splitOn '\n' with
  | [] => []
  | first :: others => List.intercalate ['\n'] (first :: others.map (List.drop count))

theorem isBlock_hang (indent : Nat) (text : List Char) :
    IsBlock (1 + indent) text (hang indent text) := by
  obtain ⟨first, others, hlines⟩ := List.exists_cons_of_ne_nil (lines_ne_nil text)
  have hshown := lines_hang hlines indent
  rw [lines_eq_splitOn] at hlines hshown
  constructor
  case length => simp [hlines, hshown]
  case head => simp [hlines, hshown]
  case further =>
    intro i line hline
    have hother : others[i]? = some line := by simpa [hlines] using hline
    have hindent : ((1 : Int) + indent - 1).toNat = indent := by omega
    rw [hindent]
    simp [hshown, hother]

theorem outdent_hang (indent : Nat) (text : List Char) :
    outdent indent (hang indent text) = text := by
  obtain ⟨first, others, hlines⟩ := List.exists_cons_of_ne_nil (lines_ne_nil text)
  have hdrop : (others.map (List.replicate indent ' ' ++ ·)).map (List.drop indent) = others := by
    simp [Function.comp_def]
  have hback : outdent indent (hang indent text) = joinLines (lines text) := by
    simp only [outdent, ← lines_eq_splitOn, lines_hang hlines, hdrop, hlines, joinLines]
  rw [hback, joinLines_lines]

-- ---------------------------------------------------------------------------
-- Columns
-- ---------------------------------------------------------------------------

/-- The columns that the lines of a text reach when it is printed from a column on.
An empty line reaches the column before the one where it begins. -/
def reached (column : Int) (text : List Char) : List Int :=
  match text.splitOn '\n' with
  | [] => []
  | first :: others => (column - 1 + first.length) :: others.map fun line => (line.length : Int)

/-- All lines of a block reach as far as if they began at its column. -/
theorem reached_hang (indent : Nat) (text : List Char) : reached (1 + indent) (hang indent text) =
    (lines text).map fun line => indent + (line.length : Int) := by
  obtain ⟨first, others, hlines⟩ := List.exists_cons_of_ne_nil (lines_ne_nil text)
  have hbefore : (1 : Int) + indent - 1 = indent := by omega
  rw [reached, ← lines_eq_splitOn, lines_hang hlines, hlines, hbefore]
  simp

theorem max?_length_lines (text : List Char) :
    ((lines text).map List.length).max? = some (width text) := by
  obtain ⟨first, others, hlines⟩ := List.exists_cons_of_ne_nil (lines_ne_nil text)
  rw [width, hlines, List.map_cons, List.max?_cons', List.foldl_map]
  simp

theorem max?_reached_hang (indent : Nat) (text : List Char) :
    (reached (1 + indent) (hang indent text)).max? = some (indent + (width text : Int)) := by
  obtain ⟨hmem, hle⟩ := List.max?_eq_some_iff.mp (max?_length_lines text)
  obtain ⟨line, hline, hwidth⟩ := List.mem_map.mp hmem
  rw [reached_hang, List.max?_eq_some_iff, List.forall_mem_map]
  refine ⟨List.mem_map.mpr ⟨line, hline, by rw [hwidth]⟩, ?_⟩
  intro other hother
  have := List.forall_mem_map.mp hle other hother
  omega

theorem getLast?_lines (text : List Char) : (lines text).getLast? = some (lastLine text) := by
  induction text using List.reverseRecOn with
  | nil => rfl
  | append_singleton text c ih =>
    obtain ⟨firsts, last, hlines⟩ :=
      (List.eq_nil_or_concat' (lines text)).resolve_left (lines_ne_nil text)
    obtain rfl : last = lastLine text := by simpa [hlines] using ih
    by_cases hc : c = '\n'
    · subst hc
      simp [lines_append hlines (lines_newline []), lastLine_concat]
    · simp [lines_append hlines (lines_cons hc lines_nil), lastLine_concat, hc]

/-- A block ends where its text would, moved to the right with it. -/
theorem advance_hang (indent : Nat) (text : List Char) :
    advance (1 + indent) (hang indent text) = 1 + indent + (lastLine text).length := by
  have hmoved := advance_hang_add 1 0 indent text
  rw [Nat.zero_add, hang_zero, advance_one] at hmoved
  omega

end Text

namespace Fragment

-- ---------------------------------------------------------------------------
-- Fragments
-- ---------------------------------------------------------------------------

theorem checkColumn_hang (f : Fragment) (h : 1 ≤ column) (room : Nat) :
    f.hang.checkColumn room column = .ok () ↔
      ('\n' ∈ f.content.toList → column - 1 ≤ room ∧ column - 1 < wordLimit) := by
  have hword : 0 < wordLimit := by decide
  by_cases hfeed : '\n' ∈ f.content.toList
  · have hcontains : f.content.contains '\n' = true := by simpa using hfeed
    simp only [checkColumn, hang, hcontains, Bool.and_self, if_true, hfeed, forall_const]
    split_ifs with hbeyondWord hbeyondRoom
    · simp only [false_iff]
      omega
    · simp only [false_iff]
      omega
    · simp only [true_iff]
      omega
  · simp [checkColumn, hang, hfeed]

/-- A hanging fragment at a column has as many lines as its text. The first one is the
same, and each further one stands behind one blank for each column before; without
these blanks the text is back. The furthest that a line reaches is the width of the
fragment from that column on, and what comes next stands behind the last line. No column
is refused, unless there is no room for so many blanks or the indent is no word. -/
theorem emit_block (f : Fragment) {column : Int} (h : 1 ≤ column) :
    Text.IsBlock column f.content.toList (f.hang.emit column).toList ∧
    Text.outdent (column - 1).toNat (f.hang.emit column).toList = f.content.toList ∧
    (Text.reached column (f.hang.emit column).toList).max? = some (column - 1 + f.width) ∧
    (∃ last, (f.content.toList.splitOn '\n').getLast? = some last ∧
      Text.advance column (f.hang.emit column).toList = column + last.length) ∧
    ∀ room, f.hang.checkColumn room column = .ok () ↔
      ('\n' ∈ f.content.toList → column - 1 ≤ room ∧ column - 1 < wordLimit) := by
  obtain ⟨indent, rfl⟩ : ∃ indent : Nat, column = 1 + indent := ⟨(column - 1).toNat, by omega⟩
  have hindent : ((1 : Int) + indent - 1).toNat = indent := by omega
  have hbefore : (1 : Int) + indent - 1 = indent := by omega
  have hhang : f.hang.indent (1 + indent) = indent := hindent
  have hemit : (f.hang.emit (1 + indent)).toList = Text.hang indent f.content.toList := by
    rw [emit, String.toList_ofList, chars, hhang]
    rfl
  rw [hemit, hindent, hbefore, ← Text.lines_eq_splitOn]
  refine ⟨?_, ?_, ?_, ?_, ?_⟩
  · exact Text.isBlock_hang indent f.content.toList
  · exact Text.outdent_hang indent f.content.toList
  · exact Text.max?_reached_hang indent f.content.toList
  · exact ⟨_, Text.getLast?_lines _, Text.advance_hang indent f.content.toList⟩
  · intro room
    have hcheck := f.checkColumn_hang h room
    rwa [hbefore] at hcheck

/-- The text begins and ends with a line feed and has an empty line in between. -/
def ragged : Fragment := { content := "\nab\n\nc\n" }

theorem emit_block_ragged :
    (1 : Int) ≤ 4 ∧ ragged.hang.emit 4 = "\n   ab\n   \n   c\n   " ∧
    Text.IsBlock 4 "\nab\n\nc\n".toList "\n   ab\n   \n   c\n   ".toList ∧
    Text.outdent 3 "\n   ab\n   \n   c\n   ".toList = "\nab\n\nc\n".toList ∧
    (Text.reached 4 "\n   ab\n   \n   c\n   ".toList).max? = some 5 ∧
    Text.advance 4 "\n   ab\n   \n   c\n   ".toList = 4 ∧
    ragged.hang.checkColumn 3 4 = .ok () := by
  have hcolumn : (1 : Int) ≤ 4 := by decide
  have hemit : ragged.hang.emit 4 = "\n   ab\n   \n   c\n   " := by decide
  have hends : (Text.lines ragged.content.toList).getLast? = some [] := by decide
  obtain ⟨hblock, houtdent, hreached, ⟨last, hlast, hadvance⟩, hcheck⟩ :=
    emit_block ragged hcolumn
  rw [hemit] at hblock houtdent hreached hadvance
  rw [← Text.lines_eq_splitOn, hends] at hlast
  cases hlast
  exact ⟨hcolumn, hemit, hblock, houtdent, hreached, hadvance, (hcheck 3).mpr fun _ => by decide⟩

end Fragment

end SpanReport
