import Lisp.Lexer
import Lisp.Reader.Stream

/-! Reading whole source texts: all of their expressions, or the only one. -/

namespace Lisp

variable {F : Type}

/-- All expressions of a source text, up to its end or to the first error. -/
def readAll (source : Text) : List (Expr F) × Option ReadError := (lex source).all

/-- The one expression of a source text. -/
def read (source : Text) : Except ReadError (Expr F) :=
  match (lex source).next with
  | (.error err, _) => .error err
  | (.ok none, _) => .error .nothingToRead
  | (.ok (some e), rest) =>
    match rest.peek.1 with
    | .error err => .error err
    | .ok none => .ok e
    | .ok (some t) => .error (.trailingInput t.offset)

end Lisp
