/-
  Encoded texts are read back.

  A character is one byte to four bytes, of which the first tells how many there are
  and each later one adds six bits to the code point.

  * `encode_eq`: the bytes of a text are those of its characters in a row;
  * `decodeFrom_char`: the bytes of a character are read as that character, whatever
    follows;
  * `decode_encode`: **the bytes of a text are read as that text.**
-/
import Mathlib.Tactic.SplitIfs
import Runbook.Text.Utf8

namespace Runbook.Text.Utf8

/-! ## Bytes -/

theorem toNat_byte {n : Nat} (h : n < 256) : (UInt8.ofNat n).toNat = n := by
  rw [UInt8.toNat_ofNat']
  exact Nat.mod_eq_of_lt h

theorem drop_toList {bytes : ByteArray} {i : Nat} (h : i < bytes.size) :
    bytes.data.toList.drop i = bytes.get! i :: bytes.data.toList.drop (i + 1) := by
  have hi : i < bytes.data.toList.length := by simpa using h
  simp [List.drop_eq_getElem_cons hi, ByteArray.get!, h]

/-- The bytes of an array, the first of which were seen, the last of them first. -/
theorem toList_loop (bytes : ByteArray) (i : Nat) (seen : List UInt8) :
    ByteArray.toList.loop bytes i seen = seen.reverse ++ bytes.data.toList.drop i := by
  rw [ByteArray.toList.loop]
  split
  · next h =>
    rw [toList_loop bytes (i + 1), drop_toList h, List.reverse_cons, List.append_assoc]
    rfl
  · next h =>
    rw [List.drop_eq_nil_of_le (by simpa using h), List.append_nil]
  termination_by bytes.size - i

theorem encode_eq (s : String) : encode s = s.toList.flatMap String.utf8EncodeChar := by
  rw [encode, String.toUTF8_eq_toByteArray, ← String.utf8Encode_toList, List.utf8Encode,
    ByteArray.toList, toList_loop, List.toList_data_toByteArray]
  rfl

/-! ## First bytes -/

section
variable {n : Nat}

theorem lead?_two (h : 2 ≤ n) (h' : n < 32) :
    lead? (UInt8.ofNat (n + 192)) = some ⟨1, n, 0x80, 0xBF⟩ := by
  have hbyte : (UInt8.ofNat (n + 192)).toNat = n + 192 := toNat_byte (by omega)
  simp only [lead?, hbyte]
  rw [if_pos (by omega), Nat.add_sub_cancel]

theorem lead?_three (h : n < 16) : lead? (UInt8.ofNat (n + 224)) =
    some ⟨2, n, if n = 0 then 0xA0 else 0x80, if n = 13 then 0x9F else 0xBF⟩ := by
  have hbyte : (UInt8.ofNat (n + 224)).toNat = n + 224 := toNat_byte (by omega)
  simp only [lead?, hbyte]
  rw [if_neg (by omega), if_pos (by omega)]
  simp

theorem lead?_four (h : n ≤ 4) : lead? (UInt8.ofNat (n + 240)) =
    some ⟨3, n, if n = 0 then 0x90 else 0x80, if n = 4 then 0x8F else 0xBF⟩ := by
  have hbyte : (UInt8.ofNat (n + 240)).toNat = n + 240 := toNat_byte (by omega)
  simp only [lead?, hbyte]
  rw [if_neg (by omega), if_neg (by omega), if_pos (by omega)]
  simp

end

theorem le_of_lead? {b : UInt8} {l : Lead} (h : lead? b = some l) : 0x80 ≤ b.toNat := by
  simp only [lead?] at h
  split_ifs at h <;> omega

/-! ## Later bytes -/

section
variable {n : Nat} {seen rest : List UInt8}

/-- A later byte holds the last six bits of a number, of which the others are known. -/
theorem continuation_cons {more bits low high : Nat} (hbits : bits = n / 64)
    (hlow : low ≤ n % 64 + 128) (hhigh : n % 64 + 128 ≤ high) :
    continuation (more + 1) bits low high seen (UInt8.ofNat (n % 64 + 128) :: rest) =
      continuation more n 0x80 0xBF (UInt8.ofNat (n % 64 + 128) :: seen) rest := by
  have hbyte : (UInt8.ofNat (n % 64 + 128)).toNat = n % 64 + 128 := toNat_byte (by omega)
  have hn : bits * 64 + (n % 64 + 128 - 0x80) = n := by omega
  simp only [continuation, hbyte, hn, hlow, hhigh, and_self, if_true]

theorem continuation_last {bits : Nat} (hbits : bits = n / 64) :
    continuation 1 bits 0x80 0xBF seen (UInt8.ofNat (n % 64 + 128) :: rest) = .ok (n, rest) := by
  rw [continuation_cons hbits (by omega) (by omega)]
  rfl

end

/-! ## Characters -/

section
variable {offset v : Nat} {bs : List UInt8}

/-- Reads a character whose bytes after the first are read. -/
theorem decodeFrom_lead {b : UInt8} {rest : List UInt8} {more bits low high : Nat}
    (hl : lead? b = some ⟨more, bits, low, high⟩)
    (hv : continuation more bits low high [b] bs = .ok (v, rest)) :
    decodeFrom offset (b :: bs) =
      (decodeFrom (offset + 1 + more) rest).map (Char.ofNat v :: ·) := by
  rw [decodeFrom, if_neg (Nat.not_lt.2 (le_of_lead? hl))]
  simp only [hl]
  split
  · next h => rw [hv] at h; cases h
  · next h => rw [hv] at h; cases h; rfl

theorem decodeFrom_one (h : v < 0x80) : decodeFrom offset (UInt8.ofNat v :: bs) =
    (decodeFrom (offset + 1) bs).map (Char.ofNat v :: ·) := by
  have hbyte : (UInt8.ofNat v).toNat = v := toNat_byte (by omega)
  rw [decodeFrom, hbyte, if_pos h]

theorem decodeFrom_two (h : 0x80 ≤ v) (h' : v < 0x800) :
    decodeFrom offset (UInt8.ofNat (v / 64 % 32 + 192) :: UInt8.ofNat (v % 64 + 128) :: bs) =
      (decodeFrom (offset + 2) bs).map (Char.ofNat v :: ·) := by
  have hfirst : v / 64 % 32 = v / 64 := Nat.mod_eq_of_lt (by omega)
  rw [hfirst]
  exact decodeFrom_lead (lead?_two (by omega) (by omega)) (continuation_last rfl)

/-- The bounds of the second byte leave room for all code points but the surrogates. -/
theorem decodeFrom_three (h : 0x800 ≤ v) (h' : v < 0xD800 ∨ 0xDFFF < v ∧ v < 0x10000) :
    decodeFrom offset (UInt8.ofNat (v / 4096 % 16 + 224) :: UInt8.ofNat (v / 64 % 64 + 128) ::
        UInt8.ofNat (v % 64 + 128) :: bs) =
      (decodeFrom (offset + 3) bs).map (Char.ofNat v :: ·) := by
  have hfirst : v / 4096 % 16 = v / 4096 := Nat.mod_eq_of_lt (by omega)
  rw [hfirst]
  refine decodeFrom_lead (lead?_three (by omega)) ?_
  rw [continuation_cons (by omega) (by split_ifs <;> omega) (by split_ifs <;> omega)]
  exact continuation_last rfl

theorem decodeFrom_four (h : 0x10000 ≤ v) (h' : v < 0x110000) :
    decodeFrom offset (UInt8.ofNat (v / 262144 % 8 + 240) :: UInt8.ofNat (v / 4096 % 64 + 128) ::
        UInt8.ofNat (v / 64 % 64 + 128) :: UInt8.ofNat (v % 64 + 128) :: bs) =
      (decodeFrom (offset + 4) bs).map (Char.ofNat v :: ·) := by
  have hfirst : v / 262144 % 8 = v / 262144 := Nat.mod_eq_of_lt (by omega)
  rw [hfirst]
  refine decodeFrom_lead (lead?_four (by omega)) ?_
  rw [continuation_cons (by omega) (by split_ifs <;> omega) (by split_ifs <;> omega),
    continuation_cons (by omega) (by omega) (by omega)]
  exact continuation_last rfl

end

/-- **A character before other bytes.** -/
theorem decodeFrom_char (offset : Nat) (c : Char) (bs : List UInt8) :
    decodeFrom offset (String.utf8EncodeChar c ++ bs) =
      (decodeFrom (offset + (String.utf8EncodeChar c).length) bs).map (c :: ·) := by
  have hc : Char.ofNat c.val.toNat = c := Char.ofNat_toNat c
  have hvalid : c.val.toNat < 0xD800 ∨ 0xDFFF < c.val.toNat ∧ c.val.toNat < 0x110000 := c.valid
  simp only [String.utf8EncodeChar]
  generalize c.val.toNat = v at hc hvalid ⊢
  split_ifs with hone htwo hthree
  · rw [← hc]
    exact decodeFrom_one (by omega)
  · rw [← hc]
    exact decodeFrom_two (by omega) (by omega)
  · rw [← hc]
    exact decodeFrom_three (by omega) (by omega)
  · rw [← hc]
    exact decodeFrom_four (by omega) (by omega)

/-! ## Texts -/

theorem decodeFrom_chars (offset : Nat) (cs : List Char) :
    decodeFrom offset (cs.flatMap String.utf8EncodeChar) = .ok cs := by
  induction cs generalizing offset with
  | nil => rw [List.flatMap_nil, decodeFrom]
  | cons c cs ih =>
    rw [List.flatMap_cons, decodeFrom_char, ih]
    rfl

/-- **Encoded texts are read back.** -/
theorem decode_encode (s : String) : decode (encode s) = .ok s.toList := by
  rw [encode_eq, decode, decodeFrom_chars]

end Runbook.Text.Utf8
