import Lisp.Expr.Print
import Lisp.Reader.Atom
import Lisp.Text.Line

/-! The word at a place, and what there is to say about it. -/

namespace Lisp.Editor

/-- What the editor says about the name of the conditional. -/
def conditionalHelp : Text :=
  ("(if condition consequent alternative)\n\n" ++
    "Evaluates condition, which must be #t or #f, then evaluates only the " ++
    "selected branch. Any other shape is plain data.").toList

/-- The words that are no atoms: brackets and the dot. -/
def punctuation : List Text := [['('], [')'], ['['], [']'], ['.']]

/-- What the editor says about a word. It says nothing about punctuation, and nothing about
a numeral that is too long. -/
def describe (word : Text) : Option Text :=
  if word = [] ∨ word ∈ punctuation then none
  else if word = "if".toList then some conditionalHelp
  else
    match (readAtom word : Except LongNumeral Datum) with
    | .error _ => none
    | .ok e =>
      match e, e.print with
      | .int _, .ok text => some ("Integer ".toList ++ text)
      | .bool _, .ok text => some ("Boolean ".toList ++ text)
      | .nil, _ => some "Nil, the empty list".toList
      | .symbol _, _ => some ("Symbol ".toList ++ word ++ " (evaluates to itself)".toList)
      | _, _ => none

/-- The characters that may be a part of a word on a line. -/
def isWordChar (c : Char) : Bool := c ∉ " \t()[];\n\r".toList

/-- The word around a column: the word characters on both sides of it. A column past the
end of a line stands for its end, behind its line break. There is no word on a line that
is not there. -/
def wordAt (source : Text) (line column : Nat) : Text :=
  match source.lines[line]? with
  | none => []
  | some text =>
    ((text.take column).reverse.takeWhile isWordChar).reverse ++
      (text.drop column).takeWhile isWordChar

end Lisp.Editor
