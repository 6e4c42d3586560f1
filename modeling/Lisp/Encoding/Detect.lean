import Lisp.Encoding.Utf8
import Lisp.Encoding.Wide

/-! The encoding of a JSON text is told by its first bytes. -/

namespace Lisp.Encoding

/-- The encoding of bytes that hold a text which begins with two characters of ASCII, and
the length of the byte order mark. A mark in front decides. Without one, the places of
zero bytes among the first four tell the width and the order of the units. -/
def detect (bytes : Bytes) : Encoding × Nat :=
  match bytes with
  | 0xFF :: 0xFE :: 0x00 :: 0x00 :: _ => (utf32 false, 4)
  | 0x00 :: 0x00 :: 0xFE :: 0xFF :: _ => (utf32 true, 4)
  | 0xFF :: 0xFE :: _ => (utf16 false, 2)
  | 0xFE :: 0xFF :: _ => (utf16 true, 2)
  | 0xEF :: 0xBB :: 0xBF :: _ => (utf8, 3)
  | a :: b :: c :: d :: _ =>
    if a = 0 then (if b ≠ 0 then utf16 true else utf32 true, 0)
    else if b = 0 then (if c ≠ 0 ∨ d ≠ 0 then utf16 false else utf32 false, 0)
    else (utf8, 0)
  | [a, b] => (if a = 0 then utf16 true else if b = 0 then utf16 false else utf8, 0)
  | _ => (utf8, 0)

/-- The text of bytes in the encoding that they show. Positions count a byte order mark,
except in UTF-8. -/
def decode (bytes : Bytes) : Except DecodeError Text :=
  match detect bytes with
  | (utf8, mark) => Utf8.decode (bytes.drop mark)
  | (utf16 bigEndian, mark) => Utf16.decodeFrom bigEndian mark [] (bytes.drop mark)
  | (utf32 bigEndian, mark) => Utf32.decodeFrom bigEndian mark [] (bytes.drop mark)

end Lisp.Encoding
