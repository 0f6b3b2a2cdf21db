/-
  Texts as bytes.

  `decode` reads UTF-8 strictly: the shortest form of every code point, no
  surrogates, nothing past the last code point.  What does not decode is reported
  with the offset and the number of the bytes that were looked at.
-/

namespace Runbook.Text.Utf8

/-- Why bytes do not decode. -/
inductive Reason where
  | startByte
  | continuationByte
  | endOfData
  deriving DecidableEq, Repr

/-- Bytes that do not decode: their offset, the bytes themselves, and the reason. -/
structure DecodeError where
  offset : Nat
  bytes : List UInt8
  reason : Reason
  deriving DecidableEq

/-- The wording of a reason. -/
def Reason.message : Reason → String
  | startByte => "invalid start byte"
  | continuationByte => "invalid continuation byte"
  | endOfData => "unexpected end of data"

/-- A byte as two hexadecimal digits after `0x`. -/
def hexByte (b : UInt8) : String :=
  let digit (n : Nat) : Char := Char.ofNat (if n < 10 then 48 + n else 87 + n)
  String.ofList ['0', 'x', digit (b.toNat / 16), digit (b.toNat % 16)]

/-- The wording of an error. -/
def DecodeError.message (e : DecodeError) : String :=
  let place := match e.bytes with
    | [b] => s!"byte {hexByte b} in position {e.offset}"
    | bs => s!"bytes in position {e.offset}-{e.offset + bs.length - 1}"
  s!"'utf-8' codec can't decode {place}: {e.reason.message}"

/-- What a first byte says: how many more bytes follow, its share of the code point, and the bounds
of the second byte. -/
structure Lead where
  more : Nat
  bits : Nat
  low : Nat
  high : Nat

/-- The lead of a first byte that is not ASCII.  The bounds exclude longer forms than needed,
surrogates and code points past the last. -/
def lead? (b : UInt8) : Option Lead :=
  let n := b.toNat
  if 0xC2 ≤ n ∧ n ≤ 0xDF then some ⟨1, n - 0xC0, 0x80, 0xBF⟩
  else if 0xE0 ≤ n ∧ n ≤ 0xEF then
    some ⟨2, n - 0xE0, if n = 0xE0 then 0xA0 else 0x80, if n = 0xED then 0x9F else 0xBF⟩
  else if 0xF0 ≤ n ∧ n ≤ 0xF4 then
    some ⟨3, n - 0xF0, if n = 0xF0 then 0x90 else 0x80, if n = 0xF4 then 0x8F else 0xBF⟩
  else none

/-- Reads `more` continuation bytes, of which the next lies between two bounds.  `seen` are the bytes
before, the last first. -/
def continuation : (more bits low high : Nat) → (seen : List UInt8) → List UInt8 →
    Except (List UInt8 × Reason) (Nat × List UInt8)
  | 0, bits, _, _, _, rest => .ok (bits, rest)
  | _ + 1, _, _, _, seen, [] => .error (seen.reverse, .endOfData)
  | more + 1, bits, low, high, seen, b :: rest =>
    if low ≤ b.toNat ∧ b.toNat ≤ high then
      continuation more (bits * 64 + (b.toNat - 0x80)) 0x80 0xBF (b :: seen) rest
    else .error (seen.reverse, .continuationByte)

theorem length_of_continuation {more bits low high seen bs n rest}
    (h : continuation more bits low high seen bs = .ok (n, rest)) : rest.length ≤ bs.length := by
  fun_induction continuation more bits low high seen bs with
  | case1 => cases h; exact Nat.le_refl _
  | case2 => cases h
  | case3 _ _ _ _ _ _ _ _ ih => exact Nat.le_succ_of_le (ih h)
  | case4 => cases h

/-- Decodes bytes that begin at an offset. -/
def decodeFrom (offset : Nat) (bytes : List UInt8) : Except DecodeError (List Char) :=
  match bytes with
  | [] => .ok []
  | b :: bs =>
    if b.toNat < 0x80 then
      (decodeFrom (offset + 1) bs).map (Char.ofNat b.toNat :: ·)
    else
      match lead? b with
      | none => .error ⟨offset, [b], .startByte⟩
      | some l =>
        match h : continuation l.more l.bits l.low l.high [b] bs with
        | .error (seen, reason) => .error ⟨offset, seen, reason⟩
        | .ok (n, rest) =>
          have := length_of_continuation h
          (decodeFrom (offset + 1 + l.more) rest).map (Char.ofNat n :: ·)
  termination_by bytes.length

/-- The text of bytes. -/
def decode (bytes : List UInt8) : Except DecodeError (List Char) := decodeFrom 0 bytes

/-- The bytes of a text. -/
def encode (s : String) : List UInt8 := s.toUTF8.toList

end Runbook.Text.Utf8
