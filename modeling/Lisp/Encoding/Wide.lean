import Lisp.Encoding.Basic

/-! Decoding of units of two and of four bytes. -/

namespace Lisp

namespace Utf16

/-- The unit of two bytes. -/
def unit (bigEndian : Bool) (a b : UInt8) : Nat :=
  if bigEndian then a.toNat * 256 + b.toNat else b.toNat * 256 + a.toNat

/-- The text of bytes that begin at a position; `read` holds the characters before it, the
newest first. Two units make a character if they are the halves of a surrogate pair. -/
def decodeFrom (bigEndian : Bool) (position : Nat) (read : List Char) :
    Bytes → Except DecodeError Text
  | [] => .ok read.reverse
  | [a] => .error ⟨.utf16 bigEndian, .truncated, position, 1, a⟩
  | a :: b :: c :: d :: rest =>
    let first := unit bigEndian a b
    match surrogatePair? first (unit bigEndian c d) with
    | some char => decodeFrom bigEndian (position + 4) (char :: read) rest
    | none => decodeFrom bigEndian (position + 2) (charOfCode first :: read) (c :: d :: rest)
  | a :: b :: rest =>
    decodeFrom bigEndian (position + 2) (charOfCode (unit bigEndian a b) :: read) rest
termination_by bytes => bytes.length

end Utf16

namespace Utf32

/-- The unit of four bytes. -/
def unit (bigEndian : Bool) (a b c d : UInt8) : Nat :=
  let bytes := if bigEndian then [a, b, c, d] else [d, c, b, a]
  bytes.foldl (fun n byte => n * 256 + byte.toNat) 0

/-- The text of bytes that begin at a position; `read` holds the characters before it, the
newest first. -/
def decodeFrom (bigEndian : Bool) (position : Nat) (read : List Char) :
    Bytes → Except DecodeError Text
  | [] => .ok read.reverse
  | a :: b :: c :: d :: rest =>
    let code := unit bigEndian a b c d
    if code < 0x110000 then decodeFrom bigEndian (position + 4) (charOfCode code :: read) rest
    else .error ⟨.utf32 bigEndian, .outOfRange, position, 4, a⟩
  | a :: rest => .error ⟨.utf32 bigEndian, .truncated, position, rest.length + 1, a⟩

end Utf32

end Lisp
