import Lisp.Proofs.Text.Position
import Mathlib.Data.List.Basic
import Mathlib.Data.List.Induction
import Mathlib.Order.Monotone.Basic

/-! Lines by the offsets at which they begin. Main statement: an offset is as far behind the
beginning of its line as its column says, so places are in the order of the offsets that they come
from, and the offset can be found again. -/

namespace Lisp.Text

/-- The offsets at which lines begin: the beginning of the text, and right behind each newline
character. -/
def lineStarts (s : Text) : List Nat := 0 :: (s.idxsOf '\n').map (· + 1)

/-- The offset that is so far behind the beginning of the line, if the text has this line. -/
def offsetAt? (s : Text) (p : Position) : Option Nat :=
  s.lineStarts[p.line]?.map (· + p.column)

@[simp] theorem length_lineStarts (s : Text) : s.lineStarts.length = s.count '\n' + 1 := by
  rw [lineStarts, List.length_cons, List.length_map, List.length_idxsOf]

theorem lineStarts_concat (s : Text) (c : Char) :
    lineStarts (s ++ [c]) =
      if c = '\n' then lineStarts s ++ [s.length + 1] else lineStarts s := by
  rw [lineStarts, List.idxsOf_append]
  by_cases hNewline : c = '\n'
  · simp [hNewline, lineStarts]
  · simp [hNewline, lineStarts]

/-- The last line begins where the search from the end says. -/
theorem getElem?_lineStarts_count (s : Text) :
    s.lineStarts[s.count '\n']? = some s.lastLineStart := by
  induction s using List.reverseRecOn with
  | nil => rfl
  | append_singleton s c ih =>
      rw [lineStarts_concat, lastLineStart_concat, List.count_append]
      by_cases hNewline : c = '\n'
      · simp [hNewline]
      · simpa [hNewline] using ih

/-- It begins there as well if more text follows. -/
theorem getElem?_lineStarts_append (s more : Text) :
    (lineStarts (s ++ more))[s.count '\n']? = some s.lastLineStart := by
  rw [lineStarts, List.idxsOf_append, List.map_append, ← List.cons_append, ← lineStarts,
    List.getElem?_append_left (by simp), getElem?_lineStarts_count]

/-- The last line holds no newline character. -/
theorem not_mem_drop_lastLineStart (s : Text) : '\n' ∉ s.drop s.lastLineStart := by
  induction s using List.reverseRecOn with
  | nil => exact List.not_mem_nil
  | append_singleton s c ih =>
      rw [lastLineStart_concat]
      by_cases hNewline : c = '\n'
      · simp [hNewline]
      · rw [if_neg hNewline, List.drop_append_of_le_length (lastLineStart_le s)]
        simpa [Ne.symm hNewline] using ih

theorem getElem?_lineStarts_positionAt (s : Text) (offset : Nat) :
    s.lineStarts[(s.positionAt offset).line]? = some (lastLineStart (s.take offset)) := by
  have hStart := getElem?_lineStarts_append (s.take offset) (s.drop offset)
  rwa [List.take_append_drop] at hStart

theorem lastLineStart_add_column (s : Text) (offset : Nat) :
    lastLineStart (s.take offset) + (s.positionAt offset).column = offset :=
  Nat.add_sub_of_le ((lastLineStart_le _).trans (List.length_take_le offset s))

/-- An offset can be found again from its place. -/
theorem offsetAt?_positionAt (s : Text) (offset : Nat) :
    s.offsetAt? (s.positionAt offset) = some offset := by
  rw [offsetAt?, getElem?_lineStarts_positionAt, Option.map_some, lastLineStart_add_column]

/-- Between the beginning of its line and the offset there is no newline character. -/
theorem not_mem_extract_column (s : Text) (offset : Nat) :
    '\n' ∉ s.extract (offset - (s.positionAt offset).column) offset := by
  have hColumn := lastLineStart_add_column s offset
  have hBegin : offset - (s.positionAt offset).column = lastLineStart (s.take offset) := by omega
  rw [hBegin, List.extract_eq_take_drop, ← List.drop_take]
  exact not_mem_drop_lastLineStart (s.take offset)

theorem strictMono_positionAt (s : Text) : StrictMono s.positionAt :=
  fun _ _ => s.positionAt_lt_positionAt

/-- The line of an offset is the number of newline characters in front of it, and the column is
the distance from the beginning of this line, with no newline character between them. A later
offset has a later line, or the same line and a later column. So different offsets are at different
places, and a place gives back its offset. -/
theorem positionAt_exact_and_increasing (s : Text) :
    (∀ offset, (s.positionAt offset).line = (s.take offset).count '\n' ∧
      (∃ start, s.lineStarts[(s.positionAt offset).line]? = some start ∧
        start + (s.positionAt offset).column = offset) ∧
      '\n' ∉ s.extract (offset - (s.positionAt offset).column) offset) ∧
    (∀ offset later, offset < later ↔
      (s.positionAt offset).line < (s.positionAt later).line ∨
        (s.positionAt offset).line = (s.positionAt later).line ∧
          (s.positionAt offset).column < (s.positionAt later).column) ∧
    Function.Injective s.positionAt ∧
    ∀ offset, s.offsetAt? (s.positionAt offset) = some offset := by
  refine ⟨fun offset => ⟨rfl, ?_, s.not_mem_extract_column offset⟩, fun offset later => ?_,
    s.strictMono_positionAt.injective, s.offsetAt?_positionAt⟩
  · exact ⟨_, s.getElem?_lineStarts_positionAt offset, s.lastLineStart_add_column offset⟩
  · rw [← Position.lt_iff]
    exact s.strictMono_positionAt.lt_iff_lt.symm

/-- On a newline character and right behind one, on an empty line, and at the end. -/
example : [0, 2, 3, 6, 7, 9].map (positionAt "ab\ncd\n\nef".toList) =
    [⟨0, 0⟩, ⟨0, 2⟩, ⟨1, 0⟩, ⟨2, 0⟩, ⟨3, 0⟩, ⟨3, 2⟩] := by decide

end Lisp.Text
