import SpanReport.Proofs.Outcomes
import SpanReport.Text.Utf8

/-!
# What strict decoding accepts

`decode_ok`: decoding gives a text back for the encoding of that text, and for
no other bytes. A lead byte fixes how many bytes follow it and the range of
the first of them, so a sequence that is read to its end spells one code
point, and no shorter sequence spells it.
-/

namespace SpanReport.Text.Utf8

-- ---------------------------------------------------------------------------
-- Sequences
-- ---------------------------------------------------------------------------

/-- So many bytes that go on a sequence, the first of them in a range. -/
def Continues : Nat → Nat → Nat → List UInt8 → Prop
  | 0, _, _, tail => tail = []
  | _ + 1, _, _, [] => False
  | due + 1, low, high, byte :: tail =>
    low ≤ byte.toNat ∧ byte.toNat ≤ high ∧ Continues due 0x80 0xBF tail

/-- The code point so far, with six bits more for each byte. -/
def extend (code : Nat) (tail : List UInt8) : Nat :=
  tail.foldl (fun code byte => code * 0x40 + byte.toNat % 0x40) code

/-- The bytes after a lead byte that make a sequence with it, and its code point. -/
def Spells (lead : UInt8) (tail : List UInt8) (code : Nat) : Prop :=
  lead.toNat < 0x80 ∧ tail = [] ∧ code = lead.toNat ∨
    0x80 ≤ lead.toNat ∧ ∃ p, Pending.ofLead? lead.toNat = some p ∧
      Continues p.due p.low p.high tail ∧ code = extend p.code tail

theorem ofLead?_eq (lead : Nat) :
    Pending.ofLead? lead =
      if 0xC2 ≤ lead ∧ lead ≤ 0xDF then some ⟨1, 0x80, 0xBF, lead % 0x20⟩
      else if 0xE0 ≤ lead ∧ lead ≤ 0xEF then
        some ⟨2, if lead = 0xE0 then 0xA0 else 0x80, if lead = 0xED then 0x9F else 0xBF,
          lead % 0x10⟩
      else if 0xF0 ≤ lead ∧ lead ≤ 0xF4 then
        some ⟨3, if lead = 0xF0 then 0x90 else 0x80, if lead = 0xF4 then 0x8F else 0xBF,
          lead % 0x08⟩
      else none := by
  unfold Pending.ofLead?
  grind

theorem byte_eq (b : UInt8) (h : b.toNat = n) : UInt8.ofNat n = b := by
  subst h
  simp

theorem val_ofNat (h : n.isValidChar) : (Char.ofNat n).val.toNat = n := by
  rw [Char.ofNat, dif_pos h]
  rfl

theorem encodeChar_one (h : n ≤ 0x7F) (ha : a.toNat = n) :
    String.utf8EncodeChar (Char.ofNat n) = [a] := by
  have hv : n.isValidChar := by unfold Nat.isValidChar; omega
  simp only [String.utf8EncodeChar, val_ofNat hv, h, if_true]
  rw [byte_eq a ha]

theorem encodeChar_two (hlow : 0x80 ≤ n) (hhigh : n ≤ 0x7FF) (ha : a.toNat = n / 0x40 + 0xC0)
    (hb : b.toNat = n % 0x40 + 0x80) : String.utf8EncodeChar (Char.ofNat n) = [a, b] := by
  have hv : n.isValidChar := by unfold Nat.isValidChar; omega
  simp only [String.utf8EncodeChar, val_ofNat hv]
  rw [if_neg (by omega), if_pos hhigh, byte_eq a (by omega), byte_eq b (by omega)]

theorem encodeChar_three (hlow : 0x800 ≤ n) (hhigh : n ≤ 0xFFFF)
    (hgap : n < 0xD800 ∨ 0xDFFF < n) (ha : a.toNat = n / 0x1000 + 0xE0)
    (hb : b.toNat = n / 0x40 % 0x40 + 0x80) (hc : c.toNat = n % 0x40 + 0x80) :
    String.utf8EncodeChar (Char.ofNat n) = [a, b, c] := by
  have hv : n.isValidChar := by unfold Nat.isValidChar; omega
  simp only [String.utf8EncodeChar, val_ofNat hv]
  rw [if_neg (by omega), if_neg (by omega), if_pos hhigh, byte_eq a (by omega),
    byte_eq b (by omega), byte_eq c (by omega)]

theorem encodeChar_four (hlow : 0x10000 ≤ n) (hhigh : n ≤ 0x10FFFF)
    (ha : a.toNat = n / 0x40000 + 0xF0) (hb : b.toNat = n / 0x1000 % 0x40 + 0x80)
    (hc : c.toNat = n / 0x40 % 0x40 + 0x80) (hd : d.toNat = n % 0x40 + 0x80) :
    String.utf8EncodeChar (Char.ofNat n) = [a, b, c, d] := by
  have hv : n.isValidChar := by unfold Nat.isValidChar; omega
  simp only [String.utf8EncodeChar, val_ofNat hv]
  rw [if_neg (by omega), if_neg (by omega), if_neg (by omega), byte_eq a (by omega),
    byte_eq b (by omega), byte_eq c (by omega), byte_eq d (by omega)]

theorem Spells.encodeChar (h : Spells lead tail code) :
    String.utf8EncodeChar (Char.ofNat code) = lead :: tail := by
  rcases h with ⟨hl, rfl, rfl⟩ | ⟨hl, p, hp, hc, rfl⟩
  · exact encodeChar_one (by omega) rfl
  rw [ofLead?_eq] at hp
  split at hp
  · cases hp
    match tail, hc with
    | [b], hc =>
      simp only [Continues] at hc
      simp only [extend, List.foldl]
      exact encodeChar_two (by omega) (by omega) (by omega) (by omega)
  split at hp
  · cases hp
    match tail, hc with
    | [b, c], hc =>
      simp only [Continues] at hc
      have hlow : 0x80 ≤ b.toNat ∧ (lead.toNat = 0xE0 → 0xA0 ≤ b.toNat) := by grind
      have hhigh : b.toNat ≤ 0xBF ∧ (lead.toNat = 0xED → b.toNat ≤ 0x9F) := by grind
      simp only [extend, List.foldl]
      exact encodeChar_three (by omega) (by omega) (by omega) (by omega) (by omega) (by omega)
  split at hp
  · cases hp
    match tail, hc with
    | [b, c, d], hc =>
      simp only [Continues] at hc
      have hlow : 0x80 ≤ b.toNat ∧ (lead.toNat = 0xF0 → 0x90 ≤ b.toNat) := by grind
      have hhigh : b.toNat ≤ 0xBF ∧ (lead.toNat = 0xF4 → b.toNat ≤ 0x8F) := by grind
      simp only [extend, List.foldl]
      exact encodeChar_four (by omega) (by omega) (by omega) (by omega) (by omega) (by omega)
  · cases hp

theorem spells_two (hlow : 0x80 ≤ n) (hhigh : n ≤ 0x7FF) (ha : a.toNat = n / 0x40 + 0xC0)
    (hb : b.toNat = n % 0x40 + 0x80) : Spells a [b] n := by
  have hp := ofLead?_eq a.toNat
  rw [if_pos (by omega)] at hp
  refine .inr ⟨by omega, _, hp, ?_, ?_⟩
  · simp only [Continues]
    grind
  · simp only [extend, List.foldl]
    omega

theorem spells_three (hlow : 0x800 ≤ n) (hhigh : n ≤ 0xFFFF) (hgap : n < 0xD800 ∨ 0xDFFF < n)
    (ha : a.toNat = n / 0x1000 + 0xE0) (hb : b.toNat = n / 0x40 % 0x40 + 0x80)
    (hc : c.toNat = n % 0x40 + 0x80) : Spells a [b, c] n := by
  have hp := ofLead?_eq a.toNat
  rw [if_neg (by omega), if_pos (by omega)] at hp
  refine .inr ⟨by omega, _, hp, ?_, ?_⟩
  · simp only [Continues]
    grind
  · simp only [extend, List.foldl]
    omega

theorem spells_four (hlow : 0x10000 ≤ n) (hhigh : n ≤ 0x10FFFF)
    (ha : a.toNat = n / 0x40000 + 0xF0) (hb : b.toNat = n / 0x1000 % 0x40 + 0x80)
    (hc : c.toNat = n / 0x40 % 0x40 + 0x80) (hd : d.toNat = n % 0x40 + 0x80) :
    Spells a [b, c, d] n := by
  have hp := ofLead?_eq a.toNat
  rw [if_neg (by omega), if_neg (by omega), if_pos (by omega)] at hp
  refine .inr ⟨by omega, _, hp, ?_, ?_⟩
  · simp only [Continues]
    grind
  · simp only [extend, List.foldl]
    omega

theorem toNat_byte (h : m < 0x100) (hm : m = n) : (UInt8.ofNat m).toNat = n := by
  subst hm
  rw [UInt8.toNat_ofNat']
  exact Nat.mod_eq_of_lt h

theorem encodeChar_spells (c : Char) :
    ∃ lead tail, String.utf8EncodeChar c = lead :: tail ∧ Spells lead tail c.toNat := by
  have hv : c.toNat.isValidChar := c.valid
  have hn : c.val.toNat = c.toNat := rfl
  unfold Nat.isValidChar at hv
  simp only [String.utf8EncodeChar, hn]
  generalize c.toNat = n at hv
  split
  · have ha : (UInt8.ofNat n).toNat = n := toNat_byte (by omega) rfl
    exact ⟨_, _, rfl, .inl ⟨by omega, rfl, ha.symm⟩⟩
  split
  · exact ⟨_, _, rfl, spells_two (by omega) (by omega) (toNat_byte (by omega) (by omega))
      (toNat_byte (by omega) (by omega))⟩
  split
  · exact ⟨_, _, rfl, spells_three (by omega) (by omega) (by omega)
      (toNat_byte (by omega) (by omega)) (toNat_byte (by omega) (by omega))
      (toNat_byte (by omega) (by omega))⟩
  · exact ⟨_, _, rfl, spells_four (by omega) (by omega) (toNat_byte (by omega) (by omega))
      (toNat_byte (by omega) (by omega)) (toNat_byte (by omega) (by omega))
      (toNat_byte (by omega) (by omega))⟩

-- ---------------------------------------------------------------------------
-- Decoding
-- ---------------------------------------------------------------------------

theorem step_none : State.step ⟨seen, none⟩ byte = .ok s ↔
    byte.toNat < 0x80 ∧ s = ⟨Char.ofNat byte.toNat :: seen, none⟩ ∨
      0x80 ≤ byte.toNat ∧ ∃ p, Pending.ofLead? byte.toNat = some p ∧ s = ⟨seen, some p⟩ := by
  simp only [State.step]
  split
  · grind
  · cases h : Pending.ofLead? byte.toNat <;> grind

theorem step_some : State.step ⟨seen, some ⟨due, low, high, code⟩⟩ byte = .ok s ↔
    low ≤ byte.toNat ∧ byte.toNat ≤ high ∧
      s = if due ≤ 1 then ⟨Char.ofNat (code * 0x40 + byte.toNat % 0x40) :: seen, none⟩
        else ⟨seen, some ⟨due - 1, 0x80, 0xBF, code * 0x40 + byte.toNat % 0x40⟩⟩ := by
  simp only [State.step]
  split
  · grind
  · split <;> grind

theorem run_byte (bytes : List UInt8) :
    bytes.foldlM State.step ⟨seen, some ⟨due, low, high, code⟩⟩ = .ok ⟨text, none⟩ ↔
      ∃ byte rest, bytes = byte :: rest ∧ low ≤ byte.toNat ∧ byte.toNat ≤ high ∧
        rest.foldlM State.step
          (if due ≤ 1 then ⟨Char.ofNat (code * 0x40 + byte.toNat % 0x40) :: seen, none⟩
            else ⟨seen, some ⟨due - 1, 0x80, 0xBF, code * 0x40 + byte.toNat % 0x40⟩⟩) =
          .ok ⟨text, none⟩ := by
  cases bytes with
  | nil => exact iff_of_false nofun nofun
  | cons byte rest =>
    simp only [List.foldlM_cons, bind_ok, step_some]
    constructor
    · rintro ⟨_, ⟨hlow, hhigh, rfl⟩, h⟩
      exact ⟨byte, rest, rfl, hlow, hhigh, h⟩
    · rintro ⟨_, _, ⟨⟩, hlow, hhigh, h⟩
      exact ⟨_, ⟨hlow, hhigh, rfl⟩, h⟩

/-- A sequence under way ends with the bytes that are due, or never. -/
theorem run_some (bytes : List UInt8) :
    bytes.foldlM State.step ⟨seen, some ⟨due + 1, low, high, code⟩⟩ = .ok ⟨text, none⟩ ↔
      ∃ tail rest, bytes = tail ++ rest ∧ Continues (due + 1) low high tail ∧
        rest.foldlM State.step ⟨Char.ofNat (extend code tail) :: seen, none⟩ =
          .ok ⟨text, none⟩ := by
  rw [run_byte]
  induction due generalizing bytes low high code with
  | zero =>
    constructor
    · rintro ⟨byte, rest, rfl, hlow, hhigh, h⟩
      exact ⟨[byte], rest, rfl, ⟨hlow, hhigh, rfl⟩, h⟩
    · rintro ⟨_ | ⟨byte, _⟩, rest, rfl, ht, h⟩
      · cases ht
      · obtain ⟨hlow, hhigh, rfl⟩ := ht
        exact ⟨byte, rest, rfl, hlow, hhigh, h⟩
  | succ due ih =>
    constructor
    · rintro ⟨byte, bytes, rfl, hlow, hhigh, h⟩
      obtain ⟨tail, rest, rfl, ht, h⟩ := (ih bytes).mp ((run_byte bytes).mp h)
      exact ⟨byte :: tail, rest, rfl, ⟨hlow, hhigh, ht⟩, h⟩
    · rintro ⟨_ | ⟨byte, tail⟩, rest, rfl, ht, h⟩
      · cases ht
      · obtain ⟨hlow, hhigh, ht⟩ := ht
        exact ⟨byte, tail ++ rest, rfl, hlow, hhigh,
          (run_byte _).mpr ((ih _).mpr ⟨tail, rest, rfl, ht, h⟩)⟩

theorem one_le_due (h : Pending.ofLead? lead = some p) : 1 ≤ p.due := by
  rw [ofLead?_eq] at h
  grind

/-- Between sequences the bytes are at an end, or go on with one sequence. -/
theorem run_none (bytes : List UInt8) :
    bytes.foldlM State.step ⟨seen, none⟩ = .ok ⟨text, none⟩ ↔
      bytes = [] ∧ text = seen ∨
        ∃ lead tail code rest, bytes = lead :: (tail ++ rest) ∧ Spells lead tail code ∧
          rest.foldlM State.step ⟨Char.ofNat code :: seen, none⟩ = .ok ⟨text, none⟩ := by
  constructor
  · intro h
    cases bytes with
    | nil =>
      cases h
      exact .inl ⟨rfl, rfl⟩
    | cons lead bytes =>
      simp only [List.foldlM_cons, bind_ok, step_none] at h
      obtain ⟨_, ⟨hl, rfl⟩ | ⟨hl, p, hp, rfl⟩, h⟩ := h
      · exact .inr ⟨lead, [], _, bytes, rfl, .inl ⟨hl, rfl, rfl⟩, h⟩
      · obtain ⟨_ | due, low, high, code⟩ := p
        · exact absurd (one_le_due hp) (by simp)
        · obtain ⟨tail, rest, rfl, ht, h⟩ := (run_some bytes).mp h
          exact .inr ⟨lead, tail, _, rest, rfl, .inr ⟨hl, _, hp, ht, rfl⟩, h⟩
  · rintro (⟨rfl, rfl⟩ | ⟨lead, tail, code, rest, rfl, hs, h⟩)
    · rfl
    · simp only [List.foldlM_cons, bind_ok, step_none]
      rcases hs with ⟨hl, rfl, rfl⟩ | ⟨hl, p, hp, ht, rfl⟩
      · exact ⟨_, .inl ⟨hl, rfl⟩, h⟩
      · refine ⟨_, .inr ⟨hl, p, hp, rfl⟩, ?_⟩
        obtain ⟨_ | due, low, high, code⟩ := p
        · exact absurd (one_le_due hp) (by simp)
        · exact (run_some _).mpr ⟨tail, rest, rfl, ht, h⟩

theorem run_encode (text : List Char) :
    (encode text).foldlM State.step ⟨seen, none⟩ = .ok ⟨text.reverse ++ seen, none⟩ := by
  induction text generalizing seen with
  | nil => rfl
  | cons c text ih =>
    obtain ⟨lead, tail, hc, hs⟩ := encodeChar_spells c
    refine (run_none _).mpr (.inr ⟨lead, tail, c.toNat, encode text, ?_, hs, ?_⟩)
    · rw [encode, List.flatMap_cons, hc]
      rfl
    · rw [Char.ofNat_toNat, ih]
      simp

theorem eq_encode_of_run (h : bytes.foldlM State.step ⟨seen, none⟩ = .ok ⟨out, none⟩) :
    ∃ text, bytes = encode text ∧ out = text.reverse ++ seen := by
  induction hn : bytes.length using Nat.strongRecOn generalizing bytes seen with
  | ind n ih =>
    rcases (run_none bytes).mp h with ⟨rfl, rfl⟩ | ⟨lead, tail, code, rest, rfl, hs, hr⟩
    · exact ⟨[], rfl, rfl⟩
    · have hlt : rest.length < n := by
        rw [← hn, List.length_cons, List.length_append]
        omega
      obtain ⟨text, rfl, rfl⟩ := ih _ hlt hr rfl
      refine ⟨Char.ofNat code :: text, ?_, ?_⟩
      · rw [encode, encode, List.flatMap_cons, hs.encodeChar]
        rfl
      · simp

/-- Decoding gives a text back for its encoding, and for no other bytes. -/
theorem decode_ok : decode bytes = .ok text ↔ bytes = encode text := by
  simp only [decode, bind_ok]
  constructor
  · rintro ⟨⟨seen, pending⟩, hr, hf⟩
    cases pending with
    | none =>
      obtain ⟨text, rfl, rfl⟩ := eq_encode_of_run hr
      cases hf
      simp
    | some _ => cases hf
  · rintro rfl
    exact ⟨_, run_encode text, by simp [State.finish]⟩

-- ---------------------------------------------------------------------------
-- Texts as they are written
-- ---------------------------------------------------------------------------

theorem toList_loop (bytes : ByteArray) (i : Nat) (read : List UInt8) :
    ByteArray.toList.loop bytes i read = read.reverse ++ bytes.data.toList.drop i := by
  induction i, read using ByteArray.toList.loop.induct bytes with
  | case1 i read h ih =>
    have hi : i < bytes.data.toList.length := by simpa using h
    have hget : bytes.get! i = bytes.data.toList[i] := getElem!_pos bytes.data i hi
    rw [ByteArray.toList.loop, if_pos h, ih, List.reverse_cons, List.append_assoc, hget,
      List.singleton_append, ← List.drop_eq_getElem_cons hi]
  | case2 i read h =>
    have hi : bytes.data.toList.length ≤ i := by simpa using h
    rw [ByteArray.toList.loop, if_neg h, List.drop_eq_nil_of_le hi, List.append_nil]

theorem toList_toUTF8 (s : String) : s.toUTF8.toList = encode s.toList := by
  rw [ByteArray.toList, toList_loop, List.reverse_nil, List.nil_append, List.drop_zero,
    String.toUTF8, ← String.utf8Encode_toList]
  exact List.toList_data_toByteArray

end SpanReport.Text.Utf8
