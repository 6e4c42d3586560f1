import Lisp.Proofs.Editor.Word

/-! The word at a column past the end of a line. Such a column stands for the end of the line, but
behind its line break. Main statement: the word there is the word at the end of what the line holds
exactly if the line has no line break or what it holds does not end in a word character. -/

namespace Lisp

namespace Text

/-- What a line holds in front of its line break. -/
def lineContent (line : Text) : Text := line.takeWhile fun c => !isLineBreak c

/-- The line break of a line, if it has one. -/
def lineBreak (line : Text) : Text := line.dropWhile fun c => !isLineBreak c

theorem lineContent_append_lineBreak (line : Text) : line.lineContent ++ line.lineBreak = line :=
  List.takeWhile_append_dropWhile

theorem lineBreak_append {content : Text} (hContent : ∀ c ∈ content, isLineBreak c = false)
    (ending : Text) : lineBreak (content ++ ending) = lineBreak ending :=
  List.dropWhile_append_of_pos fun c hMem => by simp [hContent c hMem]

/-- Where only newline characters break lines, these are the line breaks. Some lines have none. -/
theorem lineBreak_mem_of_mem_linesFrom {under : List Char} {s : Text}
    (hUnder : ∀ c ∈ under, isLineBreak c = false) (hNewlines : breaksAtNewlines s = true) :
    ∀ line ∈ linesFrom under s, line.lineBreak ∈ [[], ['\n'], ['\r', '\n']] := by
  have hContent : ∀ c ∈ under.reverse, isLineBreak c = false :=
    fun c hMem => hUnder c (List.mem_reverse.1 hMem)
  fun_induction linesFrom under s with
  | case1 under hEmpty => simp
  | case2 under hSome =>
      rw [List.forall_mem_singleton, ← List.append_nil under.reverse, lineBreak_append hContent]
      decide
  | case3 under s ih =>
      rw [List.forall_mem_cons, List.reverse_cons, List.reverse_cons, List.append_assoc,
        lineBreak_append hContent]
      exact ⟨by decide, ih (by simp) (by simpa [breaksAtNewlines] using hNewlines) (by simp)⟩
  | case4 under c s hAlone hBreak ih =>
      rw [breaksAtNewlines_cons (head?_ne_of_alone hAlone)] at hNewlines
      obtain ⟨rfl, hMore⟩ : c = '\n' ∧ breaksAtNewlines s = true := by
        simpa [hBreak] using hNewlines
      rw [List.forall_mem_cons, List.reverse_cons, lineBreak_append hContent]
      exact ⟨by decide, ih (by simp) hMore (by simp)⟩
  | case5 under c s hAlone hChar ih =>
      have hNone : isLineBreak c = false := by simpa using hChar
      have hMore : ∀ d ∈ c :: under, isLineBreak d = false :=
        List.forall_mem_cons.2 ⟨hNone, hUnder⟩
      rw [breaksAtNewlines_of_not_isLineBreak hNone] at hNewlines
      exact ih hMore hNewlines fun d hMem => hMore d (List.mem_reverse.1 hMem)

end Text

namespace Editor

variable {source content ending : Text} {line column : Nat}

theorem takeWhile_eq_nil_of_forall {p : Char → Bool} {s : Text} (hNone : ∀ c ∈ s, p c = false) :
    s.takeWhile p = [] :=
  takeWhile_eq_nil_iff_head?.2 fun c hMem => hNone c (List.mem_of_head? hMem)

/-- No part of a newline character, or of a carriage return before it, is a part of a word. -/
theorem not_isWordChar_of_mem_lineBreak (hBreak : ending ∈ [[], ['\n'], ['\r', '\n']]) :
    ∀ c ∈ ending, isWordChar c = false := by
  have hNone : [[], ['\n'], ['\r', '\n']].all (fun s => s.all fun c => !isWordChar c) = true := by
    decide
  simpa using List.all_eq_true.1 hNone ending hBreak

section

variable (hLine : source.lines[line]? = some (content ++ ending))
  (hEnding : ∀ c ∈ ending, isWordChar c = false)

include hLine hEnding

/-- At the end of what a line holds the word is what stands right before it. -/
theorem wordAt_length_content :
    wordAt source line content.length = (content.reverse.takeWhile isWordChar).reverse := by
  simp only [wordAt, hLine]
  rw [List.take_left, List.drop_left, takeWhile_eq_nil_of_forall hEnding, List.append_nil]

/-- There is no word at a column behind the beginning of a line break. -/
theorem wordAt_past_end_of_ne_nil (hBreak : ending ≠ []) (hPast : content.length < column) :
    wordAt source line column = [] := by
  obtain ⟨k, rfl⟩ := Nat.exists_eq_add_of_lt hPast
  obtain ⟨c, rest, rfl⟩ := List.exists_cons_of_ne_nil hBreak
  -- Going back from the column, the first character is one of the line break.
  have hBefore :
      (((c :: rest).take (k + 1)).reverse ++ content.reverse).takeWhile isWordChar = [] := by
    apply takeWhile_eq_nil_iff_head?.2
    intro d hMem
    apply hEnding d
    have hHead : d ∈ ((c :: rest).take (k + 1)).reverse.head? := by simpa using hMem
    exact List.mem_of_mem_take (List.mem_reverse.1 (List.mem_of_head? hHead))
  have hBehind : ((c :: rest).drop (k + 1)).takeWhile isWordChar = [] :=
    takeWhile_eq_nil_of_forall fun d hMem => hEnding d (List.mem_of_mem_drop hMem)
  simp only [wordAt, hLine]
  rw [Nat.add_assoc, List.take_length_add_append, List.drop_length_add_append, List.reverse_append,
    hBefore, hBehind]
  rfl

end

/-- At a column past the end of a line without a line break the word is that at the end. -/
theorem wordAt_past_end_of_nil (hLine : source.lines[line]? = some content)
    (hPast : content.length < column) :
    wordAt source line column = wordAt source line content.length := by
  simp only [wordAt, hLine]
  rw [List.take_of_length_le hPast.le, List.drop_of_length_le hPast.le, List.take_length,
    List.drop_length]

/-- Where only newline characters break lines, the word at a column past what a line holds is the
word at the end of it exactly if the line has no line break or what it holds does not end in a word
character. A line break hides every word from the columns behind it. -/
theorem wordAt_past_end_iff (hNewlines : Text.breaksAtNewlines source = true) {text : Text}
    (hLine : source.lines[line]? = some text) :
    text.lineBreak ∈ [[], ['\n'], ['\r', '\n']] ∧
      wordAt source line text.lineContent.length =
        (text.lineContent.reverse.takeWhile isWordChar).reverse ∧
      ∀ column, text.lineContent.length < column →
        (wordAt source line column = wordAt source line text.lineContent.length ↔
          text.lineBreak = [] ∨ ∀ c ∈ text.lineContent.getLast?, isWordChar c = false) ∧
        (text.lineBreak ≠ [] → wordAt source line column = []) := by
  have hMem := Text.lineBreak_mem_of_mem_linesFrom (by simp) hNewlines text
    (List.mem_of_getElem? hLine)
  have hEnding := not_isWordChar_of_mem_lineBreak hMem
  rw [← text.lineContent_append_lineBreak] at hLine
  have hEnd := wordAt_length_content hLine hEnding
  refine ⟨hMem, hEnd, fun column hPast =>
    ⟨?_, fun hBreak => wordAt_past_end_of_ne_nil hLine hEnding hBreak hPast⟩⟩
  by_cases hBreak : text.lineBreak = []
  · rw [hBreak, List.append_nil] at hLine
    exact iff_of_true (wordAt_past_end_of_nil hLine hPast) (.inl hBreak)
  · rw [wordAt_past_end_of_ne_nil hLine hEnding hBreak hPast, hEnd, or_iff_right hBreak,
      ← List.head?_reverse, ← takeWhile_eq_nil_iff_head?, eq_comm, List.reverse_eq_nil_iff]

theorem wordAt_past_end_iff_two_lines :
    let source : Text := "(a)\r\n(if #t foo".toList
    Text.breaksAtNewlines source = true ∧
      (∀ column, 3 < column → wordAt source 0 column = wordAt source 0 3) ∧
      ∀ column, 10 < column → wordAt source 1 column = "foo".toList := by
  intro source
  have hNewlines : Text.breaksAtNewlines source = true := by decide +kernel
  have hFirst : source.lines[0]? = some "(a)\r\n".toList := by decide +kernel
  have hLast : source.lines[1]? = some "(if #t foo".toList := by decide +kernel
  have hEnd : wordAt source 1 10 = "foo".toList := by decide +kernel
  obtain ⟨-, -, hReturn⟩ := wordAt_past_end_iff hNewlines hFirst
  obtain ⟨-, -, hNone⟩ := wordAt_past_end_iff hNewlines hLast
  refine ⟨hNewlines, fun column hPast => (hReturn column hPast).1.2 (.inr ?_),
    fun column hPast => ?_⟩
  · rintro c ⟨⟩
    rfl
  · exact ((hNone column hPast).1.2 (.inl rfl)).trans hEnd

/-- Past the end of a line that ends in a word, the line break hides the word. -/
theorem not_wordAt_past_end_eq_of_newline :
    let source : Text := "foo\nx".toList
    let text : Text := "foo\n".toList
    Text.breaksAtNewlines source = true ∧ source.lines[0]? = some text ∧
      text.lineContent = "foo".toList ∧ wordAt source 0 3 = "foo".toList ∧
      wordAt source 0 4 = [] ∧
      ¬ ∀ column, text.lineContent.length < column →
        wordAt source 0 column = wordAt source 0 text.lineContent.length := by
  intro source text
  have hContent : text.lineContent = "foo".toList := by decide
  have hEnd : wordAt source 0 3 = "foo".toList := by decide +kernel
  have hPast : wordAt source 0 4 = [] := by decide +kernel
  refine ⟨by decide +kernel, by decide +kernel, hContent, hEnd, hPast, fun hEach => ?_⟩
  have hSame : wordAt source 0 4 = wordAt source 0 3 := hEach 4 (by decide)
  rw [hPast, hEnd] at hSame
  cases hSame

end Editor

end Lisp
