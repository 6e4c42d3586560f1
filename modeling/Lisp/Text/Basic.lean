/-! Texts are lists of code points, so that proofs can take them apart. Strings appear
only at the edges of a program. -/

namespace Lisp

/-- A text is its sequence of code points. Offsets, columns and lengths count
code points. -/
abbrev Text := List Char

instance : LawfulBEq Text := inferInstanceAs (LawfulBEq (List Char))

end Lisp
