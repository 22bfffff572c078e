import SpanReport.Document
import SpanReport.Proofs.Lines

/-!
# Indents

A document prints its text with an indent behind every line feed. The indent is
that of the fragment which holds the line feed, so it depends on where the text
is cut into fragments and on nothing else of them. `renderPlain_eq_iff`:
documents with the same text print the same characters just if all their
indents agree.
-/

namespace SpanReport

-- ---------------------------------------------------------------------------
-- Texts
-- ---------------------------------------------------------------------------

namespace Text

/-- Every line feed followed by blanks, as many as are listed for it. -/
def hangEach : List Nat → List Char → List Char
  | _, [] => []
  | indents, c :: rest =>
    if c = '\n' then '\n' :: (List.replicate (indents.headD 0) ' ' ++ hangEach indents.tail rest)
    else c :: hangEach indents rest

theorem hangEach_newline (indent : Nat) (indents : List Nat) (rest : List Char) :
    hangEach (indent :: indents) ('\n' :: rest) =
      '\n' :: (List.replicate indent ' ' ++ hangEach indents rest) := rfl

theorem hangEach_cons (hc : c ≠ '\n') (indents : List Nat) (rest : List Char) :
    hangEach indents (c :: rest) = c :: hangEach indents rest := by
  rw [hangEach, if_neg hc]

theorem hangEach_append {a : List Nat} (h : a.length = first.count '\n') (b : List Nat)
    (second : List Char) :
    hangEach (a ++ b) (first ++ second) = hangEach a first ++ hangEach b second := by
  induction first generalizing a with
  | nil =>
    obtain rfl : a = [] := List.length_eq_zero_iff.mp h
    rfl
  | cons c rest ih =>
    by_cases hc : c = '\n'
    · subst hc
      rw [List.count_cons_self] at h
      obtain ⟨indent, a, rfl⟩ := List.exists_cons_of_length_eq_add_one h
      have hrest := ih (Nat.succ.inj h)
      simp only [List.cons_append, hangEach_newline, hrest, List.append_assoc]
    · rw [List.count_cons_of_ne hc] at h
      rw [List.cons_append, hangEach_cons hc, hangEach_cons hc, ih h, List.cons_append]

/-- One indent for all line feeds. -/
theorem hangEach_replicate (indent : Nat) (text : List Char) :
    hangEach (List.replicate (text.count '\n') indent) text = hang indent text := by
  induction text with
  | nil => rfl
  | cons c rest ih =>
    by_cases hc : c = '\n'
    · subst hc
      rw [List.count_cons_self, List.replicate_succ, hangEach_newline, ih, hang_newline]
    · rw [List.count_cons_of_ne hc, hangEach_cons hc, ih, hang_cons hc]

theorem firstLine_hangEach (indents : List Nat) (text : List Char) :
    (hangEach indents text).takeWhile (· != '\n') = text.takeWhile (· != '\n') := by
  induction text with
  | nil => rfl
  | cons c rest ih =>
    by_cases hc : c = '\n'
    · subst hc
      rfl
    · rw [hangEach_cons hc, List.takeWhile_cons_of_pos (by simpa using hc), ih,
        List.takeWhile_cons_of_pos (by simpa using hc)]

/-- The blanks at the begin of a line are known from its length. -/
theorem replicate_append_inj (h : first.takeWhile (· != '\n') = second.takeWhile (· != '\n'))
    (he : List.replicate m ' ' ++ first = List.replicate n ' ' ++ second) : m = n := by
  have hline (n : Nat) (text : List Char) : (List.replicate n ' ' ++ text).takeWhile (· != '\n') =
      List.replicate n ' ' ++ text.takeWhile (· != '\n') :=
    List.takeWhile_append_of_pos fun c hc => by simp [List.eq_of_mem_replicate hc]
  have hlength := congrArg (fun text => (text.takeWhile (· != '\n')).length) he
  simp only [hline, List.length_append, List.length_replicate, h] at hlength
  omega

theorem hangEach_inj {a b : List Nat} (ha : a.length = text.count '\n')
    (hb : b.length = text.count '\n') : hangEach a text = hangEach b text ↔ a = b := by
  refine ⟨fun h => ?_, fun h => by rw [h]⟩
  induction text generalizing a b with
  | nil => rw [List.length_eq_zero_iff.mp ha, List.length_eq_zero_iff.mp hb]
  | cons c rest ih =>
    by_cases hc : c = '\n'
    · subst hc
      rw [List.count_cons_self] at ha hb
      obtain ⟨m, a, rfl⟩ := List.exists_cons_of_length_eq_add_one ha
      obtain ⟨n, b, rfl⟩ := List.exists_cons_of_length_eq_add_one hb
      rw [hangEach_newline, hangEach_newline] at h
      have hlines : (hangEach a rest).takeWhile (· != '\n') =
          (hangEach b rest).takeWhile (· != '\n') := by
        rw [firstLine_hangEach, firstLine_hangEach]
      obtain rfl := replicate_append_inj hlines (List.cons.inj h).2
      rw [ih (Nat.succ.inj ha) (Nat.succ.inj hb) (List.append_cancel_left (List.cons.inj h).2)]
    · rw [List.count_cons_of_ne hc] at ha hb
      rw [hangEach_cons hc, hangEach_cons hc] at h
      exact ih ha hb (List.cons.inj h).2

end Text

-- ---------------------------------------------------------------------------
-- Documents
-- ---------------------------------------------------------------------------

namespace Document

/-- The text of a document, however it is cut into fragments. -/
def wording (d : Document) : List Char := d.fragments.flatMap (·.content.toList)

/-- The indent behind each line feed of fragments that are printed from a
column on. -/
def indentsFrom (column : Int) : List Fragment → List Nat
  | [] => []
  | f :: rest =>
    List.replicate (f.content.toList.count '\n') (f.indent column) ++
      indentsFrom (f.next column) rest

def indents (d : Document) : List Nat := indentsFrom 1 d.fragments

theorem indentsFrom_append (column : Int) (first second : List Fragment) :
    indentsFrom column (first ++ second) =
      indentsFrom column first ++ indentsFrom (columnFrom column first) second := by
  induction first generalizing column with
  | nil => rfl
  | cons f rest ih =>
    rw [List.cons_append, indentsFrom, ih, indentsFrom, List.append_assoc]
    rfl

theorem length_indentsFrom (column : Int) (fragments : List Fragment) :
    (indentsFrom column fragments).length =
      (fragments.flatMap (·.content.toList)).count '\n' := by
  induction fragments generalizing column with
  | nil => rfl
  | cons f rest ih =>
    rw [indentsFrom, List.length_append, List.length_replicate, ih, List.flatMap_cons,
      List.count_append]

theorem chars_eq_hangEach (column : Int) (fragments : List Fragment) :
    ((placeFrom column fragments).flatMap fun (column, f) => f.chars column) =
      Text.hangEach (indentsFrom column fragments) (fragments.flatMap (·.content.toList)) := by
  induction fragments generalizing column with
  | nil => rfl
  | cons f rest ih =>
    rw [placeFrom, List.flatMap_cons, ih, indentsFrom, List.flatMap_cons,
      Text.hangEach_append List.length_replicate, Text.hangEach_replicate]
    rfl

theorem toList_renderPlain_hangEach (d : Document) :
    d.renderPlain.toList = Text.hangEach d.indents d.wording := by
  rw [toList_renderPlain, placed, chars_eq_hangEach]
  rfl

theorem renderPlain_eq_iff {a b : Document} (h : a.wording = b.wording) :
    a.renderPlain = b.renderPlain ↔ a.indents = b.indents := by
  have ha : a.indents.length = a.wording.count '\n' := length_indentsFrom 1 a.fragments
  have hb : b.indents.length = a.wording.count '\n' := by
    rw [h]
    exact length_indentsFrom 1 b.fragments
  rw [← String.toList_inj, toList_renderPlain_hangEach, toList_renderPlain_hangEach, ← h,
    Text.hangEach_inj ha hb]

end Document

end SpanReport
