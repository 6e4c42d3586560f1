import Lisp.Text.Line
import Mathlib.Data.Prod.Lex
import Mathlib.Order.Basic

/-! Places in the order in which a text is read. Going through the text character by character
leads to the place of an offset as well, and this form is the one that inductions go along. Offsets
and places are in the same order, so a place says as much as the offset that it comes from. After a
line break the places are those of the text alone, further down. -/

namespace Lisp

namespace Position

def start : Position := ⟨0, 0⟩

/-- The place after passing one character. -/
def next (p : Position) (c : Char) : Position :=
  if c = '\n' then ⟨p.line + 1, 0⟩ else ⟨p.line, p.column + 1⟩

/-- The place `offset` characters further on. Past the end of the text the
column goes on growing. -/
def advance (p : Position) : Text → (offset : Nat) → Position
  | _, 0 => p
  | [], offset + 1 => ⟨p.line, p.column + (offset + 1)⟩
  | c :: s, offset + 1 => (p.next c).advance s offset

theorem toLex_injective :
    Function.Injective fun p : Position => toLex (p.line, p.column) := by
  rintro ⟨line, column⟩ ⟨line', column'⟩ hEq
  simpa using hEq

/-- Places are compared by line first. -/
instance : LinearOrder Position :=
  LinearOrder.lift' (fun p => toLex (p.line, p.column)) toLex_injective

theorem lt_iff {p q : Position} :
    p < q ↔ p.line < q.line ∨ p.line = q.line ∧ p.column < q.column :=
  Prod.Lex.toLex_lt_toLex

theorem lt_next (p : Position) (c : Char) : p < p.next c := by
  rw [lt_iff, next]
  split <;> simp

theorem lt_advance_succ (p : Position) (s : Text) (offset : Nat) :
    p < p.advance s (offset + 1) := by
  induction s generalizing p offset with
  | nil => simp [lt_iff, advance]
  | cons c s ih =>
      rw [advance]
      cases offset with
      | zero => simpa [advance] using lt_next p c
      | succ offset => exact (lt_next p c).trans (ih (p.next c) offset)

theorem advance_lt_advance (p : Position) (s : Text) {offset later : Nat}
    (hLt : offset < later) : p.advance s offset < p.advance s later := by
  induction s generalizing p offset later with
  | nil =>
      cases later with
      | zero => omega
      | succ later =>
          cases offset with
          | zero => exact lt_advance_succ p [] later
          | succ offset => simpa [lt_iff, advance] using hLt
  | cons c s ih =>
      cases later with
      | zero => omega
      | succ later =>
          cases offset with
          | zero => exact lt_advance_succ p (c :: s) later
          | succ offset => exact ih (p.next c) (by omega)

/-- The same place so many lines further down. -/
def down (lines : Nat) (p : Position) : Position := { p with line := p.line + lines }

theorem next_down (lines : Nat) (p : Position) (c : Char) :
    (p.down lines).next c = (p.next c).down lines := by
  by_cases hBreak : c = '\n'
  · simp [next, down, hBreak, Nat.add_right_comm]
  · simp [next, down, hBreak]

theorem advance_down (lines : Nat) (p : Position) (s : Text) (offset : Nat) :
    (p.down lines).advance s offset = (p.advance s offset).down lines := by
  induction s generalizing p offset with
  | nil => cases offset <;> rfl
  | cons c s ih =>
      cases offset with
      | zero => rfl
      | succ offset =>
          rw [advance, advance, next_down]
          exact ih (p.next c) offset

/-- The column after a line break is the first, whatever stands before it. -/
theorem advance_append_newline (p : Position) (s t : Text) (offset : Nat) :
    p.advance (s ++ '\n' :: t) (offset + (s.length + 1)) =
      (start.advance t offset).down (p.line + s.count '\n' + 1) := by
  induction s generalizing p with
  | nil =>
      rw [← advance_down]
      simp [advance, next, down, start]
  | cons c s ih =>
      have hLine : (p.next c).line = p.line + if c = '\n' then 1 else 0 := by
        rw [next]
        split <;> rfl
      rw [List.cons_append, List.length_cons, ← Nat.add_assoc, advance, ih, hLine]
      congr 1
      rw [List.count_cons]
      simp
      omega

/-- The last step is that of the last character, if the text reaches so far. -/
theorem advance_succ (p : Position) (s : Text) (offset : Nat) :
    p.advance s (offset + 1) =
      match s[offset]? with
      | some c => (p.advance s offset).next c
      | none => ⟨(p.advance s offset).line, (p.advance s offset).column + 1⟩ := by
  induction s generalizing p offset with
  | nil => cases offset <;> rfl
  | cons c s ih =>
      cases offset with
      | zero => simp [advance]
      | succ offset =>
          rw [advance, ih, advance, List.getElem?_cons_succ]

end Position

/-- Counting the newline characters in front of an offset and searching for the last of them
leads to the same place as going through the text character by character. -/
theorem Text.positionAt_eq_advance (s : Text) (offset : Nat) :
    s.positionAt offset = Position.start.advance s offset := by
  induction offset with
  | zero => simp [positionAt, lastLineStart, Position.advance, Position.start]
  | succ offset ih =>
      rw [Position.advance_succ, ← ih]
      cases hChar : s[offset]? with
      | some c =>
          have hLength : (s.take offset).length = offset := by
            rw [List.length_take, Nat.min_eq_left (List.getElem?_eq_some_iff.1 hChar).1.le]
          have hStart := lastLineStart_le (s.take offset)
          rw [hLength] at hStart
          simp only [positionAt, List.take_add_one, hChar, Option.toList_some, List.count_append,
            lastLineStart_concat, hLength, Position.next]
          by_cases hNewline : c = '\n'
          · simp [hNewline]
          · simp [hNewline]
            omega
      | none =>
          have hStart := lastLineStart_le (s.take offset)
          rw [List.length_take] at hStart
          simp only [positionAt, List.take_add_one, hChar, Option.toList_none, List.append_nil]
          congr 1
          omega

/-- A later offset is at a later place. -/
theorem Text.positionAt_lt_positionAt (s : Text) {offset later : Nat} (hLt : offset < later) :
    s.positionAt offset < s.positionAt later := by
  rw [positionAt_eq_advance, positionAt_eq_advance]
  exact Position.advance_lt_advance .start s hLt

theorem Text.positionAt_append_of_le {s : Text} {offset : Nat} (hLe : offset ≤ s.length)
    (later : Text) : (s ++ later).positionAt offset = s.positionAt offset := by
  rw [positionAt, positionAt, List.take_append_of_le_length hLe]

/-- The line of what follows a text counts the newline characters of the text. -/
theorem Text.line_positionAt_append (s later : Text) :
    ((s ++ later).positionAt s.length).line = s.count '\n' := by
  rw [positionAt, List.take_left]

/-- What stands after a line break is further down by the lines that end before it. -/
theorem Text.positionAt_append_newline (s t : Text) (offset : Nat) :
    (s ++ '\n' :: t).positionAt (offset + (s.length + 1)) =
      (t.positionAt offset).down (s.count '\n' + 1) := by
  rw [positionAt_eq_advance, positionAt_eq_advance, Position.advance_append_newline,
    Position.start, Nat.zero_add]

end Lisp
