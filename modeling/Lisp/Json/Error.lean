import Lisp.Numeral
import Lisp.Text.Line

/-! The faults of a JSON text and what is said about them. -/

namespace Lisp.Json

/-- Why a text is no JSON. All but the last say where. -/
inductive ParseError where
  | expectedValue (offset : Nat)
  | expectedName (offset : Nat)
  | expectedColon (offset : Nat)
  | expectedComma (offset : Nat)
  | extraData (offset : Nat)
  | unterminatedString (offset : Nat)
  | controlCharacter (offset : Nat)
  | invalidEscape (offset : Nat)
  | invalidUnicodeEscape (offset : Nat)
  | byteOrderMark
  | longInteger (digits : Nat)
  deriving DecidableEq, Repr

namespace ParseError

/-- What is wrong, without the place, and the offset of the place. -/
def complaint : ParseError → Text × Option Nat
  | expectedValue offset => ("Expecting value".toList, some offset)
  | expectedName offset =>
    ("Expecting property name enclosed in double quotes".toList, some offset)
  | expectedColon offset => ("Expecting ':' delimiter".toList, some offset)
  | expectedComma offset => ("Expecting ',' delimiter".toList, some offset)
  | extraData offset => ("Extra data".toList, some offset)
  | unterminatedString offset => ("Unterminated string starting at".toList, some offset)
  | controlCharacter offset => ("Invalid control character at".toList, some offset)
  | invalidEscape offset => ("Invalid \\escape".toList, some offset)
  | invalidUnicodeEscape offset => ("Invalid \\uXXXX escape".toList, some offset)
  | byteOrderMark => ("Unexpected UTF-8 BOM (decode using utf-8-sig)".toList, some 0)
  | longInteger count => (Numeral.tooLongToRead count, none)

/-- What is wrong with a text, and where. Lines and columns are counted from one here, and
characters from zero. -/
def message (source : Text) (e : ParseError) : Text :=
  match e.complaint with
  | (complaint, none) => complaint
  | (complaint, some offset) =>
    let place := source.positionAt offset
    complaint ++ ": line ".toList ++ Numeral.digits (place.line + 1) ++ " column ".toList ++
      Numeral.digits (place.column + 1) ++ " (char ".toList ++ Numeral.digits offset ++ [')']

end ParseError

end Lisp.Json
