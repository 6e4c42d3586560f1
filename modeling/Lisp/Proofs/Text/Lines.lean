import Lisp.Proofs.Text.Position
import Lisp.Text.Blank

/-! A text divided into lines, next to its places. Both count lines, and the counts agree as long
as every line break is or ends in a newline character. -/

namespace Lisp.Text

/-- Every line break is white space. -/
theorem isBlank_of_isLineBreak {c : Char} (hBreak : isLineBreak c = true) : isBlank c = true := by
  simp only [isLineBreak, isBlank, Bool.or_eq_true, Bool.and_eq_true, decide_eq_true_eq,
    beq_iff_eq] at hBreak ⊢
  omega

/-- Every line break of the text is a newline character, alone or after a carriage return. -/
def breaksAtNewlines : Text → Bool
  | [] => true
  | '\r' :: '\n' :: s => breaksAtNewlines s
  | c :: s => (c == '\n' || !isLineBreak c) && breaksAtNewlines s

/-- What a text does to the line under way, of which the newest character comes first: it ends
these lines and leaves this beginning of the next one. -/
inductive Breaks : List Char → Text → List Text → List Char → Prop where
  | nil (line : List Char) : Breaks line [] [] line
  | newline {line last : List Char} {s : Text} {heads : List Text} (more : Breaks [] s heads last) :
      Breaks line ('\r' :: '\n' :: s) (('\n' :: '\r' :: line).reverse :: heads) last
  | lineBreak {line last : List Char} {c : Char} {s : Text} {heads : List Text}
      (hBreak : isLineBreak c = true) (hAlone : c = '\r' → s.head? ≠ some '\n')
      (more : Breaks [] s heads last) : Breaks line (c :: s) ((c :: line).reverse :: heads) last
  | char {line last : List Char} {c : Char} {s : Text} {heads : List Text}
      (hChar : isLineBreak c = false) (more : Breaks (c :: line) s heads last) :
      Breaks line (c :: s) heads last

/-- The character is no carriage return that is one line break with the newline behind it. -/
theorem head?_ne_of_alone {c : Char} {s : Text}
    (hAlone : ∀ rest, c = '\r' → s = '\n' :: rest → False) :
    c = '\r' → s.head? ≠ some '\n' := by
  intro hReturn hNewline
  obtain ⟨rest, rfl⟩ := List.head?_eq_some_iff.1 hNewline
  exact hAlone rest hReturn rfl

theorem exists_breaks (line : List Char) (s : Text) : ∃ heads last, Breaks line s heads last := by
  fun_induction linesFrom line s with
  | case1 line => exact ⟨[], line, .nil line⟩
  | case2 line hLine => exact ⟨[], line, .nil line⟩
  | case3 line s ih =>
      obtain ⟨heads, last, hMore⟩ := ih
      exact ⟨_, last, .newline hMore⟩
  | case4 line c s hAlone hBreak ih =>
      obtain ⟨heads, last, hMore⟩ := ih
      exact ⟨_, last, .lineBreak hBreak (head?_ne_of_alone hAlone) hMore⟩
  | case5 line c s hAlone hChar ih =>
      obtain ⟨heads, last, hMore⟩ := ih
      exact ⟨heads, last, .char (by simpa using hChar) hMore⟩

theorem linesFrom_of_isLineBreak {c : Char} {s : Text} (line : List Char)
    (hBreak : isLineBreak c = true) (hAlone : c = '\r' → s.head? ≠ some '\n') :
    linesFrom line (c :: s) = (c :: line).reverse :: linesFrom [] s := by
  rw [linesFrom, if_pos hBreak]
  rintro rest rfl rfl
  exact hAlone rfl rfl

theorem linesFrom_of_not_isLineBreak {c : Char} (line : List Char)
    (hChar : isLineBreak c = false) (s : Text) : linesFrom line (c :: s) = linesFrom (c :: line) s := by
  rw [linesFrom, if_neg (by simp [hChar])]
  rintro rest rfl rfl
  cases hChar

theorem linesFrom_append_of_not_isLineBreak (line : List Char) {word : Text}
    (hWord : ∀ c ∈ word, isLineBreak c = false) (rest : Text) :
    linesFrom line (word ++ rest) = linesFrom (word.reverse ++ line) rest := by
  induction word generalizing line with
  | nil => rfl
  | cons c word ih =>
      obtain ⟨hChar, hMore⟩ := List.forall_mem_cons.1 hWord
      rw [List.cons_append, linesFrom_of_not_isLineBreak line hChar, ih _ hMore]
      simp

/-- The lines together are the text. -/
theorem flatten_linesFrom (line : List Char) (s : Text) :
    (linesFrom line s).flatten = line.reverse ++ s := by
  fun_induction linesFrom line s with
  | case1 line hEmpty => simp_all
  | case2 line hLine => simp
  | case3 line s ih => simp [ih]
  | case4 line c s hAlone hBreak ih => simp [ih]
  | case5 line c s hAlone hChar ih => simp [ih]

/-- A line under way goes on with what follows, up to the next line break. -/
theorem exists_linesFrom_eq_cons {line : List Char} (hLine : line ≠ []) (rest : Text) :
    ∃ more later, linesFrom line rest = (line.reverse ++ more) :: later ∧
      rest = more ++ later.flatten ∧ more.head? = rest.head? := by
  fun_induction linesFrom line rest with
  | case1 line hEmpty => simp_all
  | case2 line hLine => exact ⟨[], [], by simp⟩
  | case3 line s ih => exact ⟨['\r', '\n'], linesFrom [] s, by simp [flatten_linesFrom]⟩
  | case4 line c s hAlone hBreak ih => exact ⟨[c], linesFrom [] s, by simp [flatten_linesFrom]⟩
  | case5 line c s hAlone hChar ih =>
      obtain ⟨more, later, hLines, hRest, -⟩ := ih (List.cons_ne_nil c line)
      exact ⟨c :: more, later, by simp [hLines], by simp [hRest.symm], rfl⟩

theorem breaksAtNewlines_cons {c : Char} {s : Text} (hAlone : c = '\r' → s.head? ≠ some '\n') :
    breaksAtNewlines (c :: s) = ((c == '\n' || !isLineBreak c) && breaksAtNewlines s) := by
  rw [breaksAtNewlines]
  rintro rest rfl rfl
  exact hAlone rfl rfl

theorem ne_newline_of_not_isLineBreak {c : Char} (hChar : isLineBreak c = false) : c ≠ '\n' := by
  rintro rfl
  cases hChar

theorem breaksAtNewlines_of_not_isLineBreak {c : Char} (hChar : isLineBreak c = false) (s : Text) :
    breaksAtNewlines (c :: s) = breaksAtNewlines s := by
  rw [breaksAtNewlines_cons]
  · simp [hChar]
  · rintro rfl
    cases hChar

theorem getLast?_append_newline (before : Text) {s : Text} (hEnd : ∀ c ∈ s.getLast?, c = '\n') :
    ∀ c ∈ (before ++ '\n' :: s).getLast?, c = '\n' := by
  rw [List.getLast?_append, List.getLast?_cons, Option.some_or]
  cases hLast : s.getLast? with
  | none => simp
  | some c => simpa [hLast] using hEnd

namespace Breaks

variable {line last : List Char} {before : Text} {heads : List Text}

/-- What follows is divided as a text that goes on with the line under way. -/
theorem linesFrom_append (hBreaks : Breaks line before heads last) {rest : Text}
    (hRest : rest.head? ≠ some '\n') :
    linesFrom line (before ++ rest) = heads ++ linesFrom last rest := by
  induction hBreaks with
  | nil line => rfl
  | newline more ih => exact congrArg _ ih
  | @lineBreak line last c s heads hBreak hAlone more ih =>
      rw [List.cons_append, linesFrom_of_isLineBreak line hBreak, ih, List.cons_append]
      intro hReturn
      cases s with
      | nil => exact hRest
      | cons d s => exact hAlone hReturn
  | @char line last c s heads hChar more ih =>
      rw [List.cons_append, linesFrom_of_not_isLineBreak line hChar, ih]

/-- No character is lost. -/
theorem flatten_eq (hBreaks : Breaks line before heads last) :
    heads.flatten ++ last.reverse = line.reverse ++ before := by
  induction hBreaks with
  | nil line => simp
  | newline more ih => simp_all
  | lineBreak hBreak hAlone more ih => simp_all
  | char hChar more ih => simp_all

/-- There are no more newline characters than line breaks. -/
theorem count_le (hBreaks : Breaks line before heads last) : before.count '\n' ≤ heads.length := by
  induction hBreaks with
  | nil line => exact Nat.le_refl _
  | newline more ih => simpa using ih
  | @lineBreak line last c s heads hBreak hAlone more ih =>
      rw [List.count_cons, List.length_cons]
      split <;> omega
  | char hChar more ih => rwa [List.count_cons_of_ne (ne_newline_of_not_isLineBreak hChar)]

/-- There are as many of them exactly if no other character breaks a line. -/
theorem count_eq_iff (hBreaks : Breaks line before heads last) :
    before.count '\n' = heads.length ↔ before.breaksAtNewlines = true := by
  induction hBreaks with
  | nil line => simp [breaksAtNewlines]
  | newline more ih => simpa [breaksAtNewlines] using ih
  | @lineBreak line last c s heads hBreak hAlone more ih =>
      rw [breaksAtNewlines_cons hAlone, List.length_cons]
      by_cases hNewline : c = '\n'
      · simpa [hNewline] using ih
      · have hFewer := more.count_le
        rw [List.count_cons_of_ne hNewline]
        simp only [hNewline, hBreak, beq_iff_eq, Bool.not_true, Bool.or_false, Bool.and_eq_true,
          false_and, iff_false]
        omega
  | @char line last c s heads hChar more ih =>
      rw [breaksAtNewlines_of_not_isLineBreak hChar, ← ih,
        List.count_cons_of_ne (ne_newline_of_not_isLineBreak hChar)]

/-- Where only newline characters break lines, the column counts from the beginning of the line
under way. -/
theorem column_advance (hBreaks : Breaks line before heads last)
    (hNewlines : before.breaksAtNewlines = true) {p : Position} (hColumn : p.column = line.length) :
    (p.advance before before.length).column = last.length := by
  induction hBreaks generalizing p with
  | nil line => exact hColumn
  | newline more ih => exact ih (by simpa [breaksAtNewlines] using hNewlines) rfl
  | @lineBreak line last c s heads hBreak hAlone more ih =>
      rw [breaksAtNewlines_cons hAlone] at hNewlines
      obtain ⟨rfl, hMore⟩ : c = '\n' ∧ s.breaksAtNewlines = true := by
        simpa [hBreak] using hNewlines
      exact ih hMore rfl
  | @char line last c s heads hChar more ih =>
      rw [breaksAtNewlines_of_not_isLineBreak hChar] at hNewlines
      refine ih hNewlines ?_
      rw [Position.next, if_neg (ne_newline_of_not_isLineBreak hChar), hColumn, List.length_cons]

/-- The column of what follows counts from the beginning of the line under way. -/
theorem column_positionAt (hBreaks : Breaks [] before heads last)
    (hNewlines : before.breaksAtNewlines = true) (rest : Text) :
    (positionAt (before ++ rest) before.length).column = last.length := by
  rw [positionAt_append_of_le (Nat.le_refl _), positionAt_eq_advance]
  exact hBreaks.column_advance hNewlines rfl

/-- Where nothing is under way, a newline character stands in front. -/
theorem getLast?_of_nil (hBreaks : Breaks line before heads last) (hLast : last = [])
    (hNewlines : before.breaksAtNewlines = true) :
    ∀ c ∈ (line.reverse ++ before).getLast?, c = '\n' := by
  induction hBreaks with
  | nil line => simp [hLast]
  | @newline line last s heads more ih =>
      have hMore := ih hLast (by simpa [breaksAtNewlines] using hNewlines)
      simpa using getLast?_append_newline (line.reverse ++ ['\r']) hMore
  | @lineBreak line last c s heads hBreak hAlone more ih =>
      rw [breaksAtNewlines_cons hAlone] at hNewlines
      obtain ⟨rfl, hMore⟩ : c = '\n' ∧ s.breaksAtNewlines = true := by
        simpa [hBreak] using hNewlines
      exact getLast?_append_newline line.reverse (ih hLast hMore)
  | @char line last c s heads hChar more ih =>
      rw [breaksAtNewlines_of_not_isLineBreak hChar] at hNewlines
      simpa using ih hLast hNewlines

end Breaks

end Lisp.Text
