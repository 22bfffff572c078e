/-!
# Encodings by name

A name of an encoding is compared without regard to case, and runs of
characters that are neither letters, digits nor points count as one separator.
Only the encodings of the whole repertoire have all box glyphs. Some of them
have second names too, and there a point counts as a separator as well. One
name stands for an encoding that refuses every text.
-/

namespace SpanReport.Encoding

inductive Fault
  /-- A zero character ends no name. -/
  | zeroInName
  /-- The encoding that refuses every text, under the name it was given. -/
  | refusesAll (name : String)
  deriving DecidableEq, Repr

def Fault.message : Fault → String
  | .zeroInName => "embedded null character"
  | .refusesAll name =>
    "encoding with '" ++ name ++ "' codec failed (UnicodeError: undefined encoding)"

def isNamed (c : Char) : Bool := c.isAlphanum || c == '.'

/-- The parts of a name in lower case, with single separators between them. -/
def normalise (name : String) : String :=
  let groups := name.toList.splitBy fun a b => isNamed a == isNamed b
  let parts := groups.filter fun group => group.any isNamed
  "_".intercalate (parts.map fun part => String.ofList (part.map Char.toLower))

/-- A normalised name with separators for its points. -/
def separatePoints (name : String) : String :=
  String.ofList (name.toList.map fun c => if c = '.' then '_' else c)

/-- The encodings that have every box glyph. -/
def boxed : List String :=
  ["utf_8", "utf_8_sig", "utf_16", "utf_16_be", "utf_16_le", "utf_32", "utf_32_be", "utf_32_le",
   "utf_7", "gb18030", "unicode_escape", "raw_unicode_escape", "punycode", "idna"]

def boxedToo : List String :=
  ["utf8", "u8", "utf", "utf8_ucs2", "utf8_ucs4", "cp65001", "utf16", "u16", "utf_16be",
   "unicodebigunmarked", "utf_16le", "unicodelittleunmarked", "utf32", "u32", "utf_32be",
   "utf_32le", "utf7", "u7", "unicode_1_1_utf_7", "gb18030_2000"]

def refusing : String := "undefined"

def hasBoxes (name : String) : Except Fault Bool :=
  let normal := normalise name
  if name.contains '\x00' then .error .zeroInName
  else if normal = refusing then .error (.refusesAll name)
  else .ok (boxed.contains normal || boxedToo.contains (separatePoints normal))

end SpanReport.Encoding
