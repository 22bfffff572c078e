/-!
# Paths

A path is absolute or not, and has parts. Empty parts and single points are
dropped, double points are kept. Two leading slashes are a root of their own;
any other number of them is the plain root.
-/

namespace SpanReport

structure Path where
  root : String
  parts : List String
  deriving DecidableEq, Repr

namespace Path

def segments (text : List Char) : List (List Char) :=
  (text.splitBy fun a b => a != '/' && b != '/').filter (· != ['/'])

def parse (s : String) : Path :=
  let slashes := (s.toList.takeWhile (· == '/')).length
  let root := if slashes = 0 then "" else if slashes = 2 then "//" else "/"
  ⟨root, ((segments s.toList).filter (· != ['.'])).map String.ofList⟩

def isAbsolute (p : Path) : Bool := p.root != ""

/-- The empty relative path is a single point. -/
def text (p : Path) : String :=
  if p.root = "" ∧ p.parts = [] then "." else p.root ++ "/".intercalate p.parts

/-- The directory that a path is in; a root is in itself. -/
def parent (p : Path) : Path := { p with parts := p.parts.dropLast }

def within (base p : Path) : Path :=
  if p.isAbsolute then p else ⟨base.root, base.parts ++ p.parts⟩

end Path

end SpanReport
