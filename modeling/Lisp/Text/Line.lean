import Lisp.Text.Basic

/-! Places and lines in a text. Two notions of a line stand side by side: places count
newline characters alone, while dividing a text into lines knows many more line breaks. -/

namespace Lisp

/-- A place in a text: lines and columns count from zero, and only the newline
character ends a line. -/
structure Position where
  line : Nat
  column : Nat
  deriving DecidableEq, Repr

namespace Text

/-- The offset at which the last line of a text begins: right behind its last newline character,
which is searched for from the end, or else at the beginning of the text. -/
def lastLineStart (s : Text) : Nat :=
  match s.reverse.idxOf? '\n' with
  | some back => s.length - back
  | none => 0

theorem lastLineStart_concat (s : Text) (c : Char) :
    lastLineStart (s ++ [c]) = if c = '\n' then s.length + 1 else lastLineStart s := by
  rw [lastLineStart, List.reverse_concat, List.idxOf?_cons]
  by_cases hNewline : c = '\n'
  · simp [hNewline]
  · simp only [beq_iff_eq, hNewline, if_false, lastLineStart]
    cases s.reverse.idxOf? '\n' <;> simp

theorem lastLineStart_le (s : Text) : lastLineStart s ≤ s.length := by
  rw [lastLineStart]
  split <;> omega

/-- The place of an offset in a text. The newline characters in front of it are counted, and
the column is the distance from the last of them. Past the end of the text the column goes on
growing. -/
def positionAt (s : Text) (offset : Nat) : Position :=
  let before : Text := s.take offset
  ⟨before.count '\n', offset - before.lastLineStart⟩

/-- The characters that end a line where a text is divided into lines: line feed
to carriage return, the three information separators, next line, and the line
and paragraph separators. -/
def isLineBreak (c : Char) : Bool :=
  let n := c.toNat
  (0x0A ≤ n && n ≤ 0x0D) || (0x1C ≤ n && n ≤ 0x1E) || n == 0x85 || n == 0x2028 || n == 0x2029

/-- Divide a text into lines, each with its line break; `line` holds what the
line under way has so far, the newest character first. Carriage return and line
feed together are one break. -/
def linesFrom (line : List Char) : Text → List Text
  | [] => if line.isEmpty then [] else [line.reverse]
  | '\r' :: '\n' :: s => ('\n' :: '\r' :: line).reverse :: linesFrom [] s
  | c :: s =>
    if isLineBreak c then (c :: line).reverse :: linesFrom [] s else linesFrom (c :: line) s

/-- The lines of a text, each with its line break. -/
def lines (s : Text) : List Text := linesFrom [] s

/-- Write every line break of the kinds `\r\n` and `\r` as `\n`. -/
def unifyNewlines : Text → Text
  | [] => []
  | '\r' :: '\n' :: s => '\n' :: unifyNewlines s
  | c :: s => (if c = '\r' then '\n' else c) :: unifyNewlines s

end Text

end Lisp
