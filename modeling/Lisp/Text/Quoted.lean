import Lisp.Text.Hex
import Lisp.Text.Printable

/-! Texts between quotes, as messages show them. -/

namespace Lisp.Text

/-- How one character stands between quotes: the quote in use and the backslash
after a backslash, the three common controls by letter, other characters without
a visible form by number, and all else as it is. -/
def quotedChar (quote c : Char) : Text :=
  if c = quote ∨ c = '\\' then ['\\', c]
  else if c = '\n' then ['\\', 'n']
  else if c = '\r' then ['\\', 'r']
  else if c = '\t' then ['\\', 't']
  else if isPrintable c then [c]
  else if c.toNat < 0x100 then '\\' :: 'x' :: hexDigits 2 c.toNat
  else if c.toNat < 0x10000 then '\\' :: 'u' :: hexDigits 4 c.toNat
  else '\\' :: 'U' :: hexDigits 8 c.toNat

/-- Single quotes, unless the text has one of these and no double quote. -/
def quoteFor (s : Text) : Char :=
  if '\x27' ∈ s ∧ '\x22' ∉ s then '\x22' else '\x27'

/-- The text between quotes, so that its ends and its hidden characters show. -/
def quoted (s : Text) : Text :=
  let quote := quoteFor s
  quote :: s.flatMap (quotedChar quote) ++ [quote]

end Lisp.Text
