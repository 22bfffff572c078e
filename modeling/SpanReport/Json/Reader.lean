import SpanReport.Json

/-!
# Reading JSON

A text is read as one value between blanks. Numbers that are not finite have
the names `NaN`, `Infinity` and `-Infinity`; a member that comes twice keeps
its first place and takes its last value. A refusal tells its cause and where
in the text it arose.
-/

namespace SpanReport.Json

inductive Flaw
  | byteOrderMark
  | noValue
  | noName
  | noColon
  | noComma
  | moreText
  | openText
  | controlCharacter
  | badEscape
  | badCodeEscape
  deriving DecidableEq, Repr

def Flaw.message : Flaw → String
  | .byteOrderMark => "Unexpected UTF-8 BOM (decode using utf-8-sig)"
  | .noValue => "Expecting value"
  | .noName => "Expecting property name enclosed in double quotes"
  | .noColon => "Expecting ':' delimiter"
  | .noComma => "Expecting ',' delimiter"
  | .moreText => "Extra data"
  | .openText => "Unterminated string starting at"
  | .controlCharacter => "Invalid control character at"
  | .badEscape => "Invalid \\escape"
  | .badCodeEscape => "Invalid \\uXXXX escape"

structure SyntaxError where
  flaw : Flaw
  offset : Nat
  deriving DecidableEq, Repr

/-- Lines and columns count from one. -/
def SyntaxError.message (e : SyntaxError) (text : List Char) : String :=
  let before := text.take e.offset
  let line := before.count '\n' + 1
  let column := (before.reverse.takeWhile (· != '\n')).length + 1
  e.flaw.message ++ ": line " ++ Nat.repr line ++ " column " ++ Nat.repr column ++
    " (char " ++ Nat.repr e.offset ++ ")"

/-- What is left to read, and how much has been read. -/
structure Cursor where
  rest : List Char
  offset : Nat

/-- Reads a value of some kind, or tells the flaw. -/
abbrev Reader (α : Type) := Cursor → Except SyntaxError (α × Cursor)

def Cursor.fail (c : Cursor) (flaw : Flaw) : Except SyntaxError α := .error ⟨flaw, c.offset⟩

def Cursor.drop (c : Cursor) (n : Nat) : Cursor := ⟨c.rest.drop n, c.offset + n⟩

def isBlank (c : Char) : Bool := c == ' ' || c == '\t' || c == '\n' || c == '\r'

def Cursor.skipBlanks (c : Cursor) : Cursor := c.drop (c.rest.takeWhile isBlank).length

-- ---------------------------------------------------------------------------
-- Texts
-- ---------------------------------------------------------------------------

def hexDigit? (c : Char) : Option Nat :=
  if '0' ≤ c ∧ c ≤ '9' then some (c.toNat - '0'.toNat)
  else if 'a' ≤ c ∧ c ≤ 'f' then some (c.toNat - 'a'.toNat + 10)
  else if 'A' ≤ c ∧ c ≤ 'F' then some (c.toNat - 'A'.toNat + 10)
  else none

def hexCode? : List Char → Option Nat
  | [a, b, c, d] => do
    let a ← hexDigit? a
    let b ← hexDigit? b
    let c ← hexDigit? c
    let d ← hexDigit? d
    some (((a * 16 + b) * 16 + c) * 16 + d)
  | _ => none

def isHighSurrogate (code : Nat) : Bool := code / 0x400 == 0x36

def isLowSurrogate (code : Nat) : Bool := code / 0x400 == 0x37

/-- A code point as a character; half of a surrogate pair is none. -/
def ofCode (code : Nat) : Char := if code.isValidChar then Char.ofNat code else '\ufffd'

/-- The character of an escape by code point, from its `u` on. At least one
character has to stand after the digits. Two escapes of a surrogate pair write
one character. -/
def readCode : Reader Char := fun c =>
  let digits := c.rest.tail
  if digits.drop 4 = [] then c.fail .badCodeEscape
  else match hexCode? (digits.take 4) with
    | none => c.fail .badCodeEscape
    | some code =>
      let next := c.drop 5
      match isHighSurrogate code && next.rest.drop 6 != [], next.rest with
      | true, '\\' :: 'u' :: more =>
        match hexCode? (more.take 4) with
        | none => (next.drop 1).fail .badCodeEscape
        | some low =>
          if isLowSurrogate low then
            .ok (ofCode (0x10000 + code % 0x400 * 0x400 + low % 0x400), next.drop 6)
          else .ok (ofCode code, next)
      | _, _ => .ok (ofCode code, next)

def shortEscape? : Char → Option Char
  | '\x22' => some '\x22'
  | '\\' => some '\\'
  | '/' => some '/'
  | 'b' => some '\x08'
  | 'f' => some '\x0c'
  | 'n' => some '\n'
  | 'r' => some '\r'
  | 't' => some '\t'
  | _ => none

/-- The characters up to the closing quote. The start is where the opening
quote stands, and the fuel is at least the number of characters left. -/
def readChars (start : Cursor) : Nat → List Char → Reader String
  | 0, _, _ => start.fail .openText
  | fuel + 1, done, c =>
    match c.rest with
    | [] => start.fail .openText
    | '\x22' :: _ => .ok (String.ofList done.reverse, c.drop 1)
    | '\\' :: [] => start.fail .openText
    | '\\' :: 'u' :: _ =>
      match readCode (c.drop 1) with
      | .error e => .error e
      | .ok (char, next) => readChars start fuel (char :: done) next
    | '\\' :: escape :: _ =>
      match shortEscape? escape with
      | none => c.fail .badEscape
      | some char => readChars start fuel (char :: done) (c.drop 2)
    | char :: _ =>
      if char.toNat < 0x20 then c.fail .controlCharacter
      else readChars start fuel (char :: done) (c.drop 1)

def readText (fuel : Nat) : Reader String := fun c => readChars c fuel [] (c.drop 1)

-- ---------------------------------------------------------------------------
-- Numbers
-- ---------------------------------------------------------------------------

/-- A number as it is written: its sign, the digits before and after its
point, and its exponent. -/
structure Numeral where
  negative : Bool
  whole : List Char
  fraction : List Char
  exponent : Option Int

def digitsValue (digits : List Char) : Nat :=
  digits.foldl (fun n c => n * 10 + (c.toNat - '0'.toNat)) 0

/-- The floating-point number nearest to `digits * 10 ^ exponent`. Far outside
the range of the format the answer needs no power of ten. -/
def nearest (negative : Bool) (digits : Nat) (exponent : Int) : Float :=
  let top := exponent + (Nat.toDigits 10 digits).length
  let size : Float :=
    if digits = 0 ∨ top < -400 then 0.0
    else if 400 < top then 1.0 / 0.0
    else Float.ofScientific digits (exponent < 0) exponent.natAbs
  if negative then -size else size

/-- A numeral without fraction and exponent is an integer. -/
def Numeral.value (n : Numeral) : Json :=
  match n.fraction, n.exponent with
  | [], none =>
    let size := digitsValue n.whole
    .integer (if n.negative then -size else size)
  | fraction, exponent =>
    .float (nearest n.negative (digitsValue (n.whole ++ fraction))
      (exponent.getD 0 - fraction.length))

/-- The exponent at the front of a text, and its number of characters. A mark
without digits is none. -/
def exponent? (text : List Char) : Option (Int × Nat) :=
  match text with
  | mark :: rest =>
    if mark = 'e' ∨ mark = 'E' then
      let sign := match rest with
        | '-' :: _ => ['-']
        | '+' :: _ => ['+']
        | _ => []
      let digits := (rest.drop sign.length).takeWhile Char.isDigit
      if digits = [] then none
      else
        let size : Int := digitsValue digits
        some (if sign = ['-'] then -size else size, 1 + sign.length + digits.length)
    else none
  | [] => none

/-- The longest numeral at the front of a text, and its number of characters.
A whole part of several digits does not begin with a zero. -/
def numeral? (text : List Char) : Option (Numeral × Nat) :=
  let negative := text.head? == some '-'
  let unsigned := if negative then text.drop 1 else text
  let whole := match unsigned with
    | '0' :: _ => ['0']
    | _ => unsigned.takeWhile Char.isDigit
  if whole = [] then none
  else
    let afterWhole := unsigned.drop whole.length
    let fraction := match afterWhole with
      | '.' :: rest => rest.takeWhile Char.isDigit
      | _ => []
    let point := if fraction = [] then 0 else fraction.length + 1
    let size := (if negative then 1 else 0) + whole.length + point
    match exponent? (afterWhole.drop point) with
    | none => some (⟨negative, whole, fraction, none⟩, size)
    | some (e, n) => some (⟨negative, whole, fraction, some e⟩, size + n)

-- ---------------------------------------------------------------------------
-- Values
-- ---------------------------------------------------------------------------

def words : List (List Char × Json) :=
  [(['n', 'u', 'l', 'l'], .null), (['t', 'r', 'u', 'e'], .bool true),
   (['f', 'a', 'l', 's', 'e'], .bool false), (['N', 'a', 'N'], .float (0.0 / 0.0)),
   (['I', 'n', 'f', 'i', 'n', 'i', 't', 'y'], .float (1.0 / 0.0)),
   (['-', 'I', 'n', 'f', 'i', 'n', 'i', 't', 'y'], .float (-1.0 / 0.0))]

def readScalar : Reader Json := fun c =>
  match words.find? fun (word, _) => word.isPrefixOf c.rest with
  | some (word, value) => .ok (value, c.drop word.length)
  | none => match numeral? c.rest with
    | some (numeral, size) => .ok (numeral.value, c.drop size)
    | none => c.fail .noValue

/-- A member's name and the colon after it, up to where its value begins. -/
def readName (fuel : Nat) : Reader String := fun c =>
  match c.rest with
  | '\x22' :: _ => do
    let (name, next) ← readText fuel c
    let next := next.skipBlanks
    match next.rest with
    | ':' :: _ => .ok (name, (next.drop 1).skipBlanks)
    | _ => next.fail .noColon
  | _ => c.fail .noName

mutual
/-- A value takes at least one character and passes the fuel on at most twice,
so twice the length of the text is enough. -/
def readValue : Nat → Reader Json
  | 0, c => c.fail .noValue
  | fuel + 1, c =>
    match c.rest with
    | '\x22' :: _ => do
      let (s, next) ← readText fuel c
      .ok (.text s, next)
    | '[' :: _ =>
      let next := (c.drop 1).skipBlanks
      match next.rest with
      | ']' :: _ => .ok (.list [], next.drop 1)
      | _ => readElements fuel [] next
    | '\x7b' :: _ =>
      let next := (c.drop 1).skipBlanks
      match next.rest with
      | '\x7d' :: _ => .ok (.object [], next.drop 1)
      | _ => readMembers fuel [] next
    | _ => readScalar c

/-- The elements from the next one on; those before it come last one first. -/
def readElements : Nat → List Json → Reader Json
  | 0, _, c => c.fail .noValue
  | fuel + 1, done, c =>
    match readValue fuel c with
    | .error e => .error e
    | .ok (value, next) =>
      let next := next.skipBlanks
      match next.rest with
      | ']' :: _ => .ok (.list (value :: done).reverse, next.drop 1)
      | ',' :: _ => readElements fuel (value :: done) (next.drop 1).skipBlanks
      | _ => next.fail .noComma

/-- The members from the next one on, after those read before. -/
def readMembers : Nat → List (String × Json) → Reader Json
  | 0, _, c => c.fail .noValue
  | fuel + 1, done, c =>
    match readName fuel c with
    | .error e => .error e
    | .ok (name, start) =>
      match readValue fuel start with
      | .error e => .error e
      | .ok (value, next) =>
        let next := next.skipBlanks
        let members := setMember name value done
        match next.rest with
        | '\x7d' :: _ => .ok (.object members, next.drop 1)
        | ',' :: _ => readMembers fuel members (next.drop 1).skipBlanks
        | _ => next.fail .noComma
end

def read (text : List Char) : Except SyntaxError Json :=
  match text with
  | '\ufeff' :: _ => .error ⟨.byteOrderMark, 0⟩
  | _ => do
    let start := Cursor.skipBlanks ⟨text, 0⟩
    let (value, next) ← readValue (2 * text.length + 2) start
    let next := next.skipBlanks
    if next.rest = [] then .ok value else next.fail .moreText

end SpanReport.Json
