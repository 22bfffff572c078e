/-!
# UTF-8

Decoding is strict: overlong forms, surrogates and code points above 10FFFF
are refused at the second byte of their sequence. The refusal tells what was
wrong with the first bad sequence.
-/

namespace SpanReport.Text.Utf8

inductive Refusal
  | badStart
  | badContinuation
  | truncated
  deriving DecidableEq, Repr

def Refusal.message : Refusal → String
  | .badStart => "invalid start byte"
  | .badContinuation => "invalid continuation byte"
  | .truncated => "unexpected end of data"

/-- A sequence under way: how many bytes are due, the range of the next one,
and the code point so far. -/
structure Pending where
  due : Nat
  low : Nat
  high : Nat
  code : Nat

def Pending.ofLead? (lead : Nat) : Option Pending :=
  if 0xC2 ≤ lead ∧ lead ≤ 0xDF then some ⟨1, 0x80, 0xBF, lead % 0x20⟩
  else if lead = 0xE0 then some ⟨2, 0xA0, 0xBF, 0⟩
  else if lead = 0xED then some ⟨2, 0x80, 0x9F, 0xD⟩
  else if 0xE1 ≤ lead ∧ lead ≤ 0xEF then some ⟨2, 0x80, 0xBF, lead % 0x10⟩
  else if lead = 0xF0 then some ⟨3, 0x90, 0xBF, 0⟩
  else if 0xF1 ≤ lead ∧ lead ≤ 0xF3 then some ⟨3, 0x80, 0xBF, lead % 0x08⟩
  else if lead = 0xF4 then some ⟨3, 0x80, 0x8F, 4⟩
  else none

/-- The characters read so far, the last one first, and the sequence under way. -/
structure State where
  read : List Char
  pending : Option Pending

def State.step (s : State) (byte : UInt8) : Except Refusal State :=
  match s.pending with
  | none =>
    if byte.toNat < 0x80 then .ok ⟨Char.ofNat byte.toNat :: s.read, none⟩
    else match Pending.ofLead? byte.toNat with
      | none => .error .badStart
      | some pending => .ok ⟨s.read, some pending⟩
  | some ⟨due, low, high, code⟩ =>
    if byte.toNat < low ∨ high < byte.toNat then .error .badContinuation
    else
      let code := code * 0x40 + byte.toNat % 0x40
      if due ≤ 1 then .ok ⟨Char.ofNat code :: s.read, none⟩
      else .ok ⟨s.read, some ⟨due - 1, 0x80, 0xBF, code⟩⟩

def State.finish (s : State) : Except Refusal (List Char) :=
  match s.pending with
  | none => .ok s.read.reverse
  | some _ => .error .truncated

def decode (bytes : List UInt8) : Except Refusal (List Char) := do
  let s ← bytes.foldlM State.step ⟨[], none⟩
  s.finish

def encode (text : List Char) : List UInt8 := text.flatMap String.utf8EncodeChar

end SpanReport.Text.Utf8
