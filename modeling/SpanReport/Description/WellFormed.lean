import SpanReport.Description

/-!
# Well-formed descriptions

What a value has to be like for a description to be loaded from it, said of
the value and the disk alone. No order of checking and no refusal occurs here.
-/

namespace SpanReport.Description

-- ---------------------------------------------------------------------------
-- Shapes of values
-- ---------------------------------------------------------------------------

def Optionally (name : String) (P : Json → Prop) (members : List (String × Json)) : Prop :=
  ∀ v, Json.member? name members = some v → P v

def Requires (name : String) (P : Json → Prop) (members : List (String × Json)) : Prop :=
  ∃ v, Json.member? name members = some v ∧ P v

def IsText (P : String → Prop) (v : Json) : Prop := ∃ s, v = .text s ∧ P s

def AnyText (v : Json) : Prop := IsText (fun _ => True) v

def IsList (P : Json → Prop) (v : Json) : Prop := ∃ elements, v = .list elements ∧ ∀ x ∈ elements, P x

def IsObject (P : List (String × Json) → Prop) (v : Json) : Prop :=
  ∃ members, v = .object members ∧ P members

-- ---------------------------------------------------------------------------
-- Parts of descriptions
-- ---------------------------------------------------------------------------

def IsStyleName (aspect : Aspect) (v : Json) : Prop :=
  IsText (fun name => name ∈ aspect.names.map Prod.fst) v

def IsStyleName? (aspect : Aspect) (v : Json) : Prop := v = .null ∨ IsStyleName aspect v

def IsSegment (v : Json) : Prop :=
  AnyText v ∨ IsObject (fun members =>
    Optionally "text" AnyText members ∧
    Optionally "color" (IsStyleName? .foreground) members ∧
    Optionally "on_color" (IsStyleName? .background) members ∧
    Optionally "attrs" (IsList (IsStyleName .attribute)) members) v

def IsMessage (v : Json) : Prop := AnyText v ∨ IsList IsSegment v

def IsPoint (p : Point) (v : Json) : Prop := v = .list [.integer p.line, .integer p.column]

def IsMarker (v : Json) : Prop :=
  IsObject (fun members =>
    Requires "file" AnyText members ∧
    (∃ start stop : Point, 1 ≤ start.line ∧ 1 ≤ start.column ∧ 1 ≤ stop.line ∧ 1 ≤ stop.column ∧
      start.Before stop ∧
      Requires "begin" (IsPoint start) members ∧ Requires "end" (IsPoint stop) members) ∧
    Optionally "role" (IsText fun s => Text.keyword s ∈
      ["primary", "this", "context", "where", "suggestion", "maybe"]) members ∧
    Optionally "message" IsMessage members) v

def IsReport (v : Json) : Prop :=
  IsObject (fun members =>
    Optionally "severity" (IsText fun s => Text.keyword s ∈ ["error", "warning"]) members ∧
    Requires "message" IsMessage members ∧
    Optionally "markers" (IsList IsMarker) members ∧
    Optionally "hints" (IsList IsMessage) members) v

/-- The file holds the bytes of a text. No file has a zero character in its path. -/
def IsReadable (disk : Disk) (path : Path) : Prop :=
  '\x00' ∉ path.text.toList ∧ ∃ text, disk.read path = .ok (Text.Utf8.encode text)

def IsSource (disk : Disk) (base : Option Path) (v : Json) : Prop :=
  AnyText v ∨ IsObject (Requires "path" (IsText fun name =>
    IsReadable disk (sourcePath base name))) v

-- ---------------------------------------------------------------------------
-- Whole descriptions
-- ---------------------------------------------------------------------------

def WellFormed (disk : Disk) (base : Option Path) (v : Json) : Prop :=
  IsObject (fun members =>
    Optionally "files" (IsObject fun files => ∀ file ∈ files, IsSource disk base file.2) members ∧
    Optionally "reports" (IsList IsReport) members) v

end SpanReport.Description
