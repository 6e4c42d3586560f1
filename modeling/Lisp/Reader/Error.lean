import Lisp.Numeral
import Lisp.Token

/-! The faults of source text as causes. Where a fault is and what is said about it are
read off its cause. -/

namespace Lisp

/-- A complaint, and the offset that it is about if there is one. An offset that is asked for
from outside may be any integer. -/
def complaintAt (complaint : Text) (offset : Option Int) : Text :=
  match offset with
  | some offset => complaint ++ " (at offset ".toList ++ Numeral.text offset ++ [')']
  | none => complaint

/-- An atom that is a numeral of this many digits, more than may be read. -/
structure LongNumeral where
  digits : Nat
  deriving DecidableEq, Repr

namespace LongNumeral

/-- What is wrong, without the place. -/
def complaint (n : LongNumeral) : Text :=
  "Integer literal too large: ".toList ++ Numeral.tooLongToRead n.digits

/-- What is wrong with an atom, and where it is. -/
def message (n : LongNumeral) (offset : Option Int) : Text := complaintAt n.complaint offset

end LongNumeral

/-- Why a source text cannot be read. -/
inductive ReadError where
  /-- The text ends inside a block comment that begins here. -/
  | unclosedComment (offset : Nat)
  /-- The text ends inside a list that was opened here. -/
  | unclosedList (bracket : Bracket) (offset : Nat)
  /-- A closing bracket where no list is open. -/
  | unexpectedCloser (bracket : Bracket) (offset : Nat)
  /-- A closing bracket of the other kind than the list was opened with. -/
  | mismatchedCloser (bracket opener : Bracket) (openedAt offset : Nat)
  /-- A dot outside a list, at its start, or after another dot. -/
  | unexpectedDot (offset : Nat)
  /-- A list that closes right after its dot. -/
  | missingTail (offset : Nat)
  /-- A second expression after the dot of a list. -/
  | excessTail (offset : Nat)
  /-- A numeral that is too long. -/
  | longNumeral (numeral : LongNumeral) (offset : Nat)
  /-- No expression where one was asked for. -/
  | nothingToRead
  /-- Something after the one expression that was asked for. -/
  | trailingInput (offset : Nat)
  deriving DecidableEq, Repr

namespace ReadError

/-- The offset at which the source is at fault. -/
def position : ReadError → Option Nat
  | unclosedComment offset => some offset
  | unclosedList _ offset => some offset
  | unexpectedCloser _ offset => some offset
  | mismatchedCloser _ _ _ offset => some offset
  | unexpectedDot offset => some offset
  | missingTail offset => some offset
  | excessTail offset => some offset
  | longNumeral _ offset => some offset
  | nothingToRead => none
  | trailingInput offset => some offset

/-- More input could complete the text: it ends inside a list or a comment. -/
def isIncomplete : ReadError → Bool
  | unclosedComment _ | unclosedList _ _ => true
  | _ => false

/-- The same fault, where the text stands `count` characters further on. -/
def shift (count : Nat) : ReadError → ReadError
  | unclosedComment offset => unclosedComment (offset + count)
  | unclosedList bracket offset => unclosedList bracket (offset + count)
  | unexpectedCloser bracket offset => unexpectedCloser bracket (offset + count)
  | mismatchedCloser bracket opener openedAt offset =>
    mismatchedCloser bracket opener (openedAt + count) (offset + count)
  | unexpectedDot offset => unexpectedDot (offset + count)
  | missingTail offset => missingTail (offset + count)
  | excessTail offset => excessTail (offset + count)
  | longNumeral numeral offset => longNumeral numeral (offset + count)
  | nothingToRead => nothingToRead
  | trailingInput offset => trailingInput (offset + count)

/-- What is wrong, without the place. -/
def complaint : ReadError → Text
  | unclosedComment _ => "Unterminated block comment".toList
  | unclosedList b _ => "Unexpected end of input: unclosed '".toList ++ [b.opening, '\x27']
  | unexpectedCloser b _ => "Unexpected '".toList ++ [b.closing, '\x27']
  | mismatchedCloser b opener openedAt _ =>
    "Mismatched '".toList ++ [b.closing] ++ "': list opened with '".toList ++ [opener.opening] ++
      "' at offset ".toList ++ Numeral.digits openedAt
  | unexpectedDot _ => "Unexpected '.'".toList
  | missingTail _ => "Expected an expression after '.'".toList
  | excessTail _ => "Expected ')' after dotted tail".toList
  | longNumeral numeral _ => numeral.complaint
  | nothingToRead => "No expression to read".toList
  | trailingInput _ => "Unexpected input after expression".toList

/-- What is wrong, and where. -/
def message (e : ReadError) : Text := complaintAt e.complaint (e.position.map Int.ofNat)

@[simp] theorem position_shift (count : Nat) (e : ReadError) :
    (e.shift count).position = e.position.map (· + count) := by
  cases e <;> rfl

@[simp] theorem isIncomplete_shift (count : Nat) (e : ReadError) :
    (e.shift count).isIncomplete = e.isIncomplete := by
  cases e <;> rfl

end ReadError

end Lisp
