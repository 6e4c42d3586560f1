import Lisp.Json.Value
import Lisp.Text.Hex

/-! Writing JSON in ASCII, on one line. -/

namespace Lisp.Json

/-- A unit of sixteen bits as an escape. -/
def unitEscape (n : Nat) : Text := '\\' :: 'u' :: Text.hexDigits 4 n

/-- How one character stands in a written string. Characters outside ASCII and controls
are escaped as units of sixteen bits, the common controls by letter. -/
def escaped (c : Char) : Text :=
  let n := c.toNat
  if c = '\x22' ∨ c = '\\' then ['\\', c]
  else if c = '\n' then ['\\', 'n']
  else if c = '\r' then ['\\', 'r']
  else if c = '\t' then ['\\', 't']
  else if n = 0x08 then ['\\', 'b']
  else if n = 0x0C then ['\\', 'f']
  else if 0x20 ≤ n ∧ n < 0x7F then [c]
  else if n < 0x10000 then unitEscape n
  else unitEscape (0xD800 + (n - 0x10000) / 0x400) ++ unitEscape (0xDC00 + (n - 0x10000) % 0x400)

/-- A string between quotes, in ASCII. -/
def writeString (s : Text) : Text := '\x22' :: s.flatMap escaped ++ ['\x22']

/-- The text of a number that is no integer. The values that are no finite numbers have
names. -/
def writeReal : Binary64 → Text
  | .infinite negative => (if negative then "-Infinity" else "Infinity").toList
  | .notANumber => "NaN".toList
  | x => x.text

mutual

/-- The JSON text of a value, in ASCII, with a space after each comma and colon. -/
def write : Value → Text
  | .null => "null".toList
  | .bool b => (if b then "true" else "false").toList
  | .int i => Numeral.text i
  | .real x => writeReal x
  | .string s => writeString s
  | .array items => '[' :: writeItems true items ++ [']']
  | .object members => '\x7b' :: writeMembers true members ++ ['\x7d']

/-- The items of an array, set apart by commas. -/
def writeItems (first : Bool) : List Value → Text
  | [] => []
  | v :: rest => (if first then [] else [',', ' ']) ++ write v ++ writeItems false rest

/-- The members of an object, set apart by commas. -/
def writeMembers (first : Bool) : List (Text × Value) → Text
  | [] => []
  | (name, v) :: rest =>
    (if first then [] else [',', ' ']) ++ writeString name ++ [':', ' '] ++ write v ++
      writeMembers false rest

end

end Lisp.Json
