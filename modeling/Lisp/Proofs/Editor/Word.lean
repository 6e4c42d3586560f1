import Lisp.Editor.Word
import Lisp.Proofs.Lexer.Lossless
import Lisp.Proofs.Text.Lines

/-! The word at a place of an atom. The word is looked up on a line of the text, and the place comes
from newline characters alone. Main statement: where no other line break stands in front of an atom,
the word is the atom exactly if no word character stands right before it or right after it. -/

namespace Lisp

theorem not_isLineBreak_of_isAtomChar {c : Char} (hAtom : isAtomChar c = true) :
    Text.isLineBreak c = false := by
  rw [Bool.eq_false_iff]
  intro hBreak
  simp [isAtomChar, Text.isBlank_of_isLineBreak hBreak] at hAtom

namespace Editor

/-- What ends a word never stands in an atom. -/
theorem isWordChar_of_isAtomChar {c : Char} (hAtom : isAtomChar c = true) :
    isWordChar c = true := by
  have hNone : " \t()[];\n\r".toList.all (fun c => !isAtomChar c) = true := by decide
  rw [isWordChar, decide_eq_true_eq]
  intro hMem
  have hEnds := List.all_eq_true.1 hNone c hMem
  simp [hAtom] at hEnds

/-- From any column of a part that has only word characters the same word is found. -/
theorem wordAt_of_getElem? {source before word after : Text} {line : Nat}
    (hLine : source.lines[line]? = some (before ++ word ++ after))
    (hWord : ∀ c ∈ word, isWordChar c = true) {k : Nat} (hLe : k ≤ word.length) :
    wordAt source line (before.length + k) =
      (before.reverse.takeWhile isWordChar).reverse ++ word ++ after.takeWhile isWordChar := by
  have hTake : (before ++ word ++ after).take (before.length + k) = before ++ word.take k := by
    rw [List.append_assoc, List.take_length_add_append, List.take_append_of_le_length hLe]
  have hDrop : (before ++ word ++ after).drop (before.length + k) = word.drop k ++ after := by
    rw [List.append_assoc, List.drop_length_add_append, List.drop_append_of_le_length hLe]
  have hStart : ∀ c ∈ (word.take k).reverse, isWordChar c = true := fun c hMem =>
    hWord c (List.mem_of_mem_take (List.mem_reverse.1 hMem))
  have hEnd : ∀ c ∈ word.drop k, isWordChar c = true := fun c hMem =>
    hWord c (List.mem_of_mem_drop hMem)
  simp only [wordAt, hLine, hTake, hDrop]
  rw [List.reverse_append, List.takeWhile_append_of_pos hStart, List.takeWhile_append_of_pos hEnd]
  simp only [List.reverse_append, List.reverse_reverse, List.append_assoc]
  rw [← List.append_assoc (word.take k), List.take_append_drop]

theorem takeWhile_eq_nil_iff_head? {p : Char → Bool} {s : Text} :
    s.takeWhile p = [] ↔ ∀ c ∈ s.head?, p c = false := by
  cases s with
  | nil => simp
  | cons c s => cases hEnds : p c <;> simp [hEnds]

/-- The word is this part alone if no word character stands next to it. -/
theorem wordAt_eq_iff {source before word after : Text} {line : Nat}
    (hLine : source.lines[line]? = some (before ++ word ++ after))
    (hWord : ∀ c ∈ word, isWordChar c = true) {k : Nat} (hLe : k ≤ word.length) :
    wordAt source line (before.length + k) = word ↔
      (∀ c ∈ before.getLast?, isWordChar c = false) ∧ ∀ c ∈ after.head?, isWordChar c = false := by
  rw [wordAt_of_getElem? hLine hWord hLe, ← List.head?_reverse, ← takeWhile_eq_nil_iff_head?,
    ← takeWhile_eq_nil_iff_head?]
  constructor
  · intro hAlone
    have hLength := congrArg List.length hAlone
    simp only [List.length_append, List.length_reverse] at hLength
    exact ⟨List.eq_nil_of_length_eq_zero (by omega), List.eq_nil_of_length_eq_zero (by omega)⟩
  · rintro ⟨hBefore, hAfter⟩
    simp [hBefore, hAfter]

/-- An atom stands on one line: these lines end in front of it, and the line goes on as the text
does. -/
theorem exists_line_of_atom {source atom : Text} {offset : Nat}
    (hAtom : ⟨.atom atom, offset⟩ ∈ (lex source).tokens) :
    ∃ before after heads last more later, source = before ++ (atom ++ after) ∧
      offset = before.length ∧ (∀ c ∈ atom, isAtomChar c = true) ∧
      Text.Breaks [] before heads last ∧
      source.lines = heads ++ (last.reverse ++ atom ++ more) :: later ∧
      more.head? = after.head? := by
  obtain ⟨before, after, hSource, hOffset, hPiece⟩ :=
    (Divides.of_lexFrom 0 source).exists_append_of_mem hAtom
  obtain ⟨⟨hNonempty, hChars, -⟩, -⟩ := hPiece.isAtom
  obtain ⟨heads, last, hBreaks⟩ := Text.exists_breaks [] before
  have hRest : (atom ++ after).head? ≠ some '\n' := by
    obtain ⟨c, atom, rfl⟩ := List.exists_cons_of_ne_nil hNonempty
    rintro ⟨⟩
    exact absurd (hChars '\n' List.mem_cons_self) (by decide)
  have hUnder : atom.reverse ++ last ≠ [] := by simp [hNonempty]
  obtain ⟨more, later, hLines, -, hMore⟩ := Text.exists_linesFrom_eq_cons hUnder after
  refine ⟨before, after, heads, last, more, later, hSource, by simpa using hOffset, hChars, hBreaks,
    ?_, hMore⟩
  rw [hSource, Text.lines, Token.text, hBreaks.linesFrom_append hRest,
    Text.linesFrom_append_of_not_isLineBreak last
      (fun c hMem => not_isLineBreak_of_isAtomChar (hChars c hMem)), hLines]
  simp

/-- A newline character is no word character, so what ends a word in front of a place in the text
ends it on the line. -/
theorem endsBefore_iff {before : Text} {heads : List Text} {last : List Char}
    (hBreaks : Text.Breaks [] before heads last) (hNewlines : before.breaksAtNewlines = true) :
    (∀ c ∈ last.reverse.getLast?, isWordChar c = false) ↔
      ∀ c ∈ before.getLast?, isWordChar c = false := by
  have hBefore : heads.flatten ++ last.reverse = before := hBreaks.flatten_eq
  cases last with
  | nil =>
      refine iff_of_true (by simp) fun c hMem => ?_
      rw [hBreaks.getLast?_of_nil rfl hNewlines c hMem]
      rfl
  | cons d last => simp [← hBefore]

/-- An atom stands on one line of its text. The line of its place is that line exactly if all line
breaks in front of it are newline characters, and is a line in front of it otherwise. On its own
line the word at every place of the atom is the atom exactly if no word character stands right
before it or right after it. -/
theorem wordAt_atom_iff {source atom : Text} {offset : Nat}
    (hAtom : ⟨.atom atom, offset⟩ ∈ (lex source).tokens) :
    ∃ (heads : List Text) (text : Text) (tails : List Text),
      source.lines = heads ++ text :: tails ∧ heads.flatten.length ≤ offset ∧
      offset + atom.length ≤ heads.flatten.length + text.length ∧
      (source.positionAt offset).line ≤ heads.length ∧
      ((source.positionAt offset).line = heads.length ↔
        Text.breaksAtNewlines (source.take offset) = true) ∧
      (Text.breaksAtNewlines (source.take offset) = true →
        (source.positionAt offset).column = offset - heads.flatten.length ∧
        ∀ k ≤ atom.length, wordAt source (source.positionAt offset).line
            ((source.positionAt offset).column + k) = atom ↔
          (∀ c ∈ (source.take offset).getLast?, isWordChar c = false) ∧
            ∀ c ∈ (source.drop (offset + atom.length)).head?, isWordChar c = false) := by
  obtain ⟨before, after, heads, last, more, later, rfl, rfl, hChars, hBreaks, hLines, hMore⟩ :=
    exists_line_of_atom hAtom
  have hLength : heads.flatten.length + last.length = before.length := by
    simpa using congrArg List.length hBreaks.flatten_eq
  have hLine : (before ++ (atom ++ after)).lines[heads.length]? =
      some (last.reverse ++ atom ++ more) := by
    rw [hLines, List.getElem?_append_right (Nat.le_refl _), Nat.sub_self]
    rfl
  have hWord : ∀ c ∈ atom, isWordChar c = true := fun c hMem =>
    isWordChar_of_isAtomChar (hChars c hMem)
  rw [Text.line_positionAt_append, List.take_left, List.drop_length_add_append, List.drop_left]
  refine ⟨heads, _, later, hLines, by omega, ?_, hBreaks.count_le, hBreaks.count_eq_iff,
    fun hNewlines => ?_⟩
  · simp only [List.length_append, List.length_reverse]
    omega
  · rw [hBreaks.column_positionAt hNewlines]
    refine ⟨by omega, fun k hLe => ?_⟩
    have hAlone := wordAt_eq_iff hLine hWord hLe
    rw [List.length_reverse] at hAlone
    rw [hBreaks.count_eq_iff.2 hNewlines, hAlone, hMore, endsBefore_iff hBreaks hNewlines]

theorem wordAt_atom_iff_behind_return :
    let source : Text := "(if #t\r\n  foo)".toList
    ⟨.atom "foo".toList, 10⟩ ∈ (lex source).tokens ∧ source.positionAt 10 = ⟨1, 2⟩ ∧
      ∀ k ≤ 3, wordAt source 1 (2 + k) = "foo".toList := by
  intro source
  have hAtom : ⟨.atom "foo".toList, 10⟩ ∈ (lex source).tokens := by decide +kernel
  have hPlace : source.positionAt 10 = ⟨1, 2⟩ := by decide +kernel
  have hBefore : (source.take 10).getLast? = some ' ' := by decide +kernel
  have hAfter : (source.drop 13).head? = some ')' := by decide +kernel
  obtain ⟨heads, text, tails, -, -, -, -, -, hOwnLine⟩ := wordAt_atom_iff hAtom
  obtain ⟨-, hWord⟩ := hOwnLine (by decide +kernel)
  rw [hPlace, hBefore] at hWord
  refine ⟨hAtom, hPlace, fun k hLe => (hWord k hLe).2 ⟨?_, ?_⟩⟩
  · rintro c ⟨⟩
    rfl
  · rintro c hMem
    cases hAfter.symm.trans hMem
    rfl

theorem not_wordAt_eq_atom_behind_page_break :
    let source : Text := "(a)\n\x0c\n(foo)".toList
    ⟨.atom "foo".toList, 7⟩ ∈ (lex source).tokens ∧ source.positionAt 7 = ⟨2, 1⟩ ∧
      wordAt source 2 1 = [] ∧
      ¬ ∀ k ≤ 3, wordAt source (source.positionAt 7).line ((source.positionAt 7).column + k) =
        "foo".toList := by
  intro source
  have hPlace : source.positionAt 7 = ⟨2, 1⟩ := by decide +kernel
  have hWord : wordAt source 2 1 = [] := by decide +kernel
  refine ⟨by decide +kernel, hPlace, hWord, fun hEach => ?_⟩
  have hFoo := hEach 0 (by decide)
  rw [hPlace, Nat.add_zero, hWord] at hFoo
  cases hFoo

end Editor

end Lisp
