import SpanReport.Proofs.Printing

/-!
# Documents in other styles

Without colours a document is printed from the texts of its fragments alone, and
from which of them hang. `print_recolour`: other styles change neither what is
printed nor the column behind it, and a document without styles is printed in
colour as any document of its texts is printed without.
-/

namespace SpanReport

namespace Fragment

/-- A plain fragment has nothing to colour, and no name to look up. -/
theorem print_plain (colours : Bool) (column : Int) (f : Fragment) :
    (f.restyle .plain).print colours column = f.print false column := by
  cases colours <;> rfl

end Fragment

namespace Document

-- ---------------------------------------------------------------------------
-- Texts without styles
-- ---------------------------------------------------------------------------

/-- The texts of a document, each with whether it hangs. -/
def unstyled (d : Document) : List (String × Bool) :=
  d.fragments.map fun f => (f.content, f.hanging)

theorem unstyled_restyle (style : Style) (d : Document) :
    (d.restyle style).unstyled = d.unstyled := by
  simp [unstyled, restyle, Fragment.restyle]

theorem plain_eq (d : Document) :
    d.plain = ⟨d.unstyled.map fun (content, hanging) => ⟨content, .plain, hanging⟩⟩ := by
  simp [plain, restyle, unstyled, Fragment.restyle]

theorem print_plain (colours : Bool) (column : Int) (d : Document) :
    d.plain.print colours column = d.print false column := by
  simp only [print, plain, restyle]
  induction d.fragments generalizing column with
  | nil => rfl
  | cons f rest ih => simp only [List.map_cons, printAll, Fragment.print_plain, ih]

-- ---------------------------------------------------------------------------
-- Documents that are printed alike
-- ---------------------------------------------------------------------------

/-- The first document is printed like the second one: without colours with the same
texts and the same column behind them, from wherever printing begins, and in colour,
unless some name has no code, with that column behind it too. -/
structure PrintsAs (d other : Document) : Prop where
  print : ∀ column, d.print false column = other.print false column
  coloured : ∀ column reached, (d.print true column).reached = .ok reached →
    (other.print false column).reached = .ok reached
  renderPlain : d.renderPlain = other.renderPlain
  column : d.column = other.column

theorem printsAs_of_unstyled {d other : Document} (h : d.unstyled = other.unstyled) :
    d.PrintsAs other := by
  have hprint (column : Int) : d.print false column = other.print false column := by
    rw [← print_plain false, plain_eq, h, ← plain_eq, print_plain]
  have hplain (d : Document) (column : Int) : d.print false column =
      ⟨(placeFrom column d.fragments).map fun p => p.2.emit p.1,
        .ok (columnFrom column d.fragments)⟩ := printAll_plain column d.fragments
  have hone := hprint 1
  simp only [hplain, Printout.mk.injEq, Except.ok.injEq] at hone
  refine ⟨hprint, fun column reached hreached => ?_, congrArg String.join hone.1, hone.2⟩
  rw [← hprint, hplain, reached_printAll hreached]

/-- Whatever colours and attributes are asked for, known or not, a document is printed
without them as it was, and as every other one of the same texts is. Without styles it
is printed in colour just so, and never fails. It may hang before or after it is
recoloured, and only the last colours count. -/
theorem print_recolour (d : Document) :
    (∀ foreground background attributes,
      (d.recolour foreground background attributes).PrintsAs d ∧
      (d.recolour foreground background attributes).hang =
        d.hang.recolour foreground background attributes ∧
      ∀ foreground' background' attributes',
        (d.recolour foreground background attributes).recolour foreground' background' attributes' =
          d.recolour foreground' background' attributes') ∧
    (d.plain.PrintsAs d ∧ d.plain = d.recolour none none []) ∧
    (d.plain.render true = d.render false ∧ d.plain.render true = .ok d.renderPlain ∧
      ∀ column, d.plain.print true column = d.print false column) ∧
    ∀ other : Document, other.unstyled = d.unstyled → other.PrintsAs d := by
  have hcoloured : d.plain.render true = d.render false := by
    rw [render_eq_print, render_eq_print, print_plain]
  refine ⟨fun foreground background attributes => ⟨?_, ?_, fun _ _ _ => ?_⟩, ⟨?_, rfl⟩,
    ⟨hcoloured, hcoloured, fun column => print_plain true column d⟩,
    fun other => printsAs_of_unstyled⟩
  · exact printsAs_of_unstyled (unstyled_restyle _ d)
  · exact hang_restyle _ d
  · exact restyle_restyle _ _ d
  · exact printsAs_of_unstyled (unstyled_restyle _ d)

end Document

end SpanReport
