import SpanReport.Fragment

/-!
# Documents

A document is a sequence of fragments. Printing walks through them in order,
writes one text for each, and hands the column that one fragment reaches on to
the next, so the columns do not depend on whether colours are shown. Rendering
gives what printing from the first column writes, as one text.
-/

namespace SpanReport

structure Document where
  fragments : List Fragment := []
  deriving DecidableEq, Repr, Inhabited

namespace Document

def ofText (s : String) : Document := ⟨[{ content := s }]⟩

def append (first second : Document) : Document := ⟨first.fragments ++ second.fragments⟩

instance : Append Document := ⟨append⟩

def push (d : Document) (f : Fragment) : Document := ⟨d.fragments ++ [f]⟩

/-- Every fragment in the given style, whatever style it had. -/
def restyle (style : Style) (d : Document) : Document :=
  ⟨d.fragments.map (Fragment.restyle style)⟩

/-- Every fragment in the colours and attributes that are asked for, and in no others. -/
def recolour (foreground background : Option String) (attributes : List (Option String))
    (d : Document) : Document := d.restyle (.ofOptions foreground background attributes)

def plain (d : Document) : Document := d.restyle Style.plain

def hang (d : Document) : Document := ⟨d.fragments.map Fragment.hang⟩

/-- Each fragment with the column at which it is printed. -/
def placeFrom (column : Int) : List Fragment → List (Int × Fragment)
  | [] => []
  | f :: rest => (column, f) :: placeFrom (f.next column) rest

def columnFrom (column : Int) (fragments : List Fragment) : Int :=
  fragments.foldl (fun reached f => f.next reached) column

def placed (d : Document) : List (Int × Fragment) := placeFrom 1 d.fragments

def column (d : Document) : Int := columnFrom 1 d.fragments

def renderPlain (d : Document) : String :=
  String.join (d.placed.map fun (column, f) => f.emit column)

def renderColoured (d : Document) : Except UnknownName String := do
  let texts ← d.placed.mapM fun (column, f) => f.emitColoured column
  .ok (String.join texts)

def render (colours : Bool) (d : Document) : Except UnknownName String :=
  if colours then d.renderColoured else .ok d.renderPlain

end Document

-- ---------------------------------------------------------------------------
-- Printing
-- ---------------------------------------------------------------------------

/-- What was written, and the column that was reached or the name that has no code. -/
structure Printout where
  texts : List String
  reached : Except UnknownName Int

/-- What comes next is printed from the column that was reached, unless printing has
failed. -/
def Printout.andThen (p : Printout) (next : Int → Printout) : Printout :=
  match p.reached with
  | .ok column => ⟨p.texts ++ (next column).texts, (next column).reached⟩
  | .error _ => p

namespace Fragment

def emitIn (colours : Bool) (column : Int) (f : Fragment) : Except UnknownName String :=
  if colours then f.emitColoured column else .ok (f.emit column)

/-- What a fragment writes at a column, and the column behind it. Escapes do not count. -/
def print (colours : Bool) (column : Int) (f : Fragment) : Printout :=
  match f.emitIn colours column with
  | .ok text => ⟨[text], .ok (Text.advance column (f.emit column).toList)⟩
  | .error e => ⟨[], .error e⟩

end Fragment

namespace Document

def printAll (colours : Bool) (column : Int) : List Fragment → Printout
  | [] => ⟨[], .ok column⟩
  | f :: rest => (f.print colours column).andThen fun reached => printAll colours reached rest

def print (colours : Bool) (column : Int) (d : Document) : Printout :=
  printAll colours column d.fragments

-- ---------------------------------------------------------------------------
-- Laws
-- ---------------------------------------------------------------------------

@[simp] theorem fragments_append (first second : Document) :
    (first ++ second).fragments = first.fragments ++ second.fragments := rfl

/-- The last style counts. -/
theorem restyle_restyle (style later : Style) (d : Document) :
    (d.restyle style).restyle later = d.restyle later := by
  simp [restyle, Fragment.restyle]

theorem hang_restyle (style : Style) (d : Document) :
    (d.restyle style).hang = d.hang.restyle style := by
  simp [restyle, hang, Fragment.restyle, Fragment.hang]

theorem columnFrom_append (column : Int) (first second : List Fragment) :
    columnFrom column (first ++ second) = columnFrom (columnFrom column first) second := by
  simp [columnFrom, List.foldl_append]

theorem placeFrom_append (column : Int) (first second : List Fragment) :
    placeFrom column (first ++ second) =
      placeFrom column first ++ placeFrom (columnFrom column first) second := by
  induction first generalizing column with
  | nil => rfl
  | cons f rest ih => simp [placeFrom, columnFrom, ih]

theorem map_snd_placeFrom (column : Int) (fragments : List Fragment) :
    (placeFrom column fragments).map Prod.snd = fragments := by
  induction fragments generalizing column with
  | nil => rfl
  | cons f rest ih => simp [placeFrom, ih]

theorem toList_renderPlain (d : Document) :
    d.renderPlain.toList = d.placed.flatMap fun (column, f) => f.chars column := by
  simp [renderPlain, String.toList_join, List.flatMap_map, Fragment.emit]

end Document

end SpanReport
