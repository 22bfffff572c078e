import SpanReport.Glyph
import SpanReport.Output.Encoding

/-!
# Output streams and options

A stream takes texts one by one, up to the first one that it refuses; the texts
before that one are written nonetheless.

What is not asked for is detected. Colours are shown on a terminal, unless the
environment forbids or forces them; forbidding wins. Box glyphs are drawn
unless the environment asks for ASCII or the stream's encoding lacks them; the
encoding is asked only if nothing before it decides. An empty setting counts as
none.
-/

namespace SpanReport

structure Environment where
  noColour : Option String := none
  forceColour : Option String := none
  asciiOnly : Option String := none

/-- Which texts are refused is up to the stream, whatever it took before. One whose
encoding lacks a character may refuse every text that has it. -/
structure Stream where
  terminal : Bool := false
  encoding : Option String := none
  /-- Why a text is refused, if it is. -/
  complaint? : String → Option String := fun _ => none

/-- What a stream took before it refused a text, and why it refused that one. -/
structure Unwritten where
  taken : String
  complaint : String
  deriving DecidableEq, Repr

def Stream.write (stream : Stream) : List String → Except Unwritten String
  | [] => .ok ""
  | text :: rest =>
    match stream.complaint? text with
    | some complaint => .error ⟨"", complaint⟩
    | none => match stream.write rest with
      | .ok written => .ok (text ++ written)
      | .error u => .error { u with taken := text ++ u.taken }

structure OutputOptions where
  charset : Charset
  colours : Bool
  deriving DecidableEq, Repr

def isSet (setting : Option String) : Bool := setting.any (· != "")

def Environment.colours (env : Environment) (stream : Stream) : Bool :=
  if isSet env.noColour then false
  else if isSet env.forceColour then true
  else stream.terminal

def Environment.charset (env : Environment) (stream : Stream) : Except Encoding.Fault Charset :=
  if isSet env.asciiOnly then .ok .ascii
  else match stream.encoding with
    | none => .ok .unicode
    | some name =>
      if name = "" then .ok .unicode
      else do
        let boxes ← Encoding.hasBoxes name
        .ok (if boxes then .unicode else .ascii)

def OutputOptions.detect (env : Environment) (stream : Stream) (charset : Option Charset)
    (colours : Option Bool) : Except Encoding.Fault OutputOptions := do
  let charset ← match charset with
    | some charset => .ok charset
    | none => env.charset stream
  .ok ⟨charset, colours.getD (env.colours stream)⟩

end SpanReport
