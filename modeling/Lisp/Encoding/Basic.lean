import Lisp.Numeral
import Lisp.Text.CodePoint
import Lisp.Text.Hex

/-! Encodings of texts as bytes, and the faults of bytes that are no text. -/

namespace Lisp

/-- A text as it is stored or sent. -/
abbrev Bytes := List UInt8

/-- A way to write a text as bytes. The flag says that the highest byte of a unit comes
first. -/
inductive Encoding where
  | utf8
  | utf16 (bigEndian : Bool)
  | utf32 (bigEndian : Bool)
  deriving DecidableEq, Repr

namespace Encoding

def name : Encoding → Text
  | utf8 => "utf-8".toList
  | utf16 true => "utf-16-be".toList
  | utf16 false => "utf-16-le".toList
  | utf32 true => "utf-32-be".toList
  | utf32 false => "utf-32-le".toList

end Encoding

/-- What is wrong with bytes that stand for no character. -/
inductive DecodeFault where
  | startByte
  | continuationByte
  | endOfData
  | truncated
  | outOfRange
  deriving DecidableEq, Repr

namespace DecodeFault

def text : DecodeFault → Text
  | startByte => "invalid start byte".toList
  | continuationByte => "invalid continuation byte".toList
  | endOfData => "unexpected end of data".toList
  | truncated => "truncated data".toList
  | outOfRange => "code point not in range(0x110000)".toList

end DecodeFault

/-- Why bytes are no text in an encoding: what is wrong with `count` bytes from a position
on, the first of which is `byte`. -/
structure DecodeError where
  encoding : Encoding
  fault : DecodeFault
  position : Nat
  count : Nat
  byte : UInt8
  deriving DecidableEq, Repr

namespace DecodeError

/-- What is wrong, and where. A single byte is shown, of several the positions are given. -/
def message (e : DecodeError) : Text :=
  let place :=
    if e.count = 1 then
      "byte 0x".toList ++ Text.hexDigits 2 e.byte.toNat ++ " in position ".toList ++
        Numeral.digits e.position
    else
      "bytes in position ".toList ++ Numeral.digits e.position ++ '-' ::
        Numeral.digits (e.position + e.count - 1)
  '\x27' :: e.encoding.name ++ "' codec can't decode ".toList ++ place ++ [':', ' '] ++ e.fault.text

end DecodeError

end Lisp
