import Lisp.Encoding.Basic

/-! UTF-8 in both directions. A fault is reported at the first byte of a character, with
as many bytes as could have been the beginning of one. -/

namespace Lisp.Utf8

/-- What the first byte of a character says: how many bytes continue it, the bounds of the
first of these, and the bits that the first byte itself gives. -/
structure Lead where
  count : Nat
  low : UInt8
  high : UInt8
  bits : Nat

/-- The first bytes of characters. The bounds leave out what could be written with fewer
bytes, halves of surrogate pairs, and codes above the last code point. -/
def lead? (b : UInt8) : Option Lead :=
  if b < 0x80 then some ⟨0, 0x80, 0xBF, b.toNat⟩
  else if b < 0xC2 then none
  else if b < 0xE0 then some ⟨1, 0x80, 0xBF, b.toNat - 0xC0⟩
  else if b = 0xE0 then some ⟨2, 0xA0, 0xBF, 0⟩
  else if b = 0xED then some ⟨2, 0x80, 0x9F, 0xD⟩
  else if b < 0xF0 then some ⟨2, 0x80, 0xBF, b.toNat - 0xE0⟩
  else if b = 0xF0 then some ⟨3, 0x90, 0xBF, 0⟩
  else if b < 0xF4 then some ⟨3, 0x80, 0xBF, b.toNat - 0xF0⟩
  else if b = 0xF4 then some ⟨3, 0x80, 0x8F, 4⟩
  else none

/-- Read `count` bytes that continue a character. The bounds are those of the next of them.
On failure the number of bytes before the fault is given. -/
def continueWith (count : Nat) (low high : UInt8) (bits passed : Nat) (bytes : Bytes) :
    Except (DecodeFault × Nat) Nat :=
  match count, bytes with
  | 0, _ => .ok bits
  | _ + 1, [] => .error (.endOfData, passed)
  | count + 1, b :: rest =>
    if low ≤ b ∧ b ≤ high then
      continueWith count 0x80 0xBF (bits * 64 + (b.toNat - 0x80)) (passed + 1) rest
    else .error (.continuationByte, passed)

/-- Half of a surrogate pair, in three bytes. -/
def isSurrogate : Bytes → Bool
  | a :: b :: c :: _ => a == 0xED && 0xA0 ≤ b && b ≤ 0xBF && 0x80 ≤ c && c ≤ 0xBF
  | _ => false

/-- The text of bytes that begin at a position; `read` holds the characters before it, the
newest first. -/
def decodeFrom (position : Nat) (read : List Char) : Bytes → Except DecodeError Text
  | [] => .ok read.reverse
  | b :: rest =>
    if isSurrogate (b :: rest) then decodeFrom (position + 3) ('\ufffd' :: read) (rest.drop 2)
    else
      match lead? b with
      | none => .error ⟨.utf8, .startByte, position, 1, b⟩
      | some lead =>
        match continueWith lead.count lead.low lead.high lead.bits 1 rest with
        | .error (fault, count) => .error ⟨.utf8, fault, position, count, b⟩
        | .ok code =>
          decodeFrom (position + 1 + lead.count) (charOfCode code :: read) (rest.drop lead.count)
termination_by bytes => bytes.length

/-- The text of bytes. -/
def decode (bytes : Bytes) : Except DecodeError Text := decodeFrom 0 [] bytes

/-- The bytes of a character. -/
def encodeChar (c : Char) : Bytes :=
  let n := c.toNat
  if n < 0x80 then [.ofNat n]
  else if n < 0x800 then [.ofNat (0xC0 + n / 64), .ofNat (0x80 + n % 64)]
  else if n < 0x10000 then
    [.ofNat (0xE0 + n / 4096), .ofNat (0x80 + n / 64 % 64), .ofNat (0x80 + n % 64)]
  else
    [.ofNat (0xF0 + n / 262144), .ofNat (0x80 + n / 4096 % 64), .ofNat (0x80 + n / 64 % 64),
      .ofNat (0x80 + n % 64)]

/-- The bytes of a text. -/
def encode (s : Text) : Bytes := s.flatMap encodeChar

end Lisp.Utf8
