import Lisp.Text.Basic

/-! White space, for the lexer and for trimming. It is wider than the white space of the
core library, which knows four characters of ASCII. -/

namespace Lisp

/-- A list without the items of a class that stand at its two ends. -/
def trimEnds {α : Type} (isEnd : α → Bool) (items : List α) : List α :=
  ((items.dropWhile isEnd).reverse.dropWhile isEnd).reverse

section

variable {α : Type} (isEnd : α → Bool) (items : List α)

/-- Trimming takes away what stands at the two ends. -/
theorem exists_append_trimEnds :
    ∃ before after, items = before ++ trimEnds isEnd items ++ after ∧
      (∀ x ∈ before, isEnd x = true) ∧ ∀ x ∈ after, isEnd x = true := by
  refine ⟨items.takeWhile isEnd, ((items.dropWhile isEnd).reverse.takeWhile isEnd).reverse,
    ?_, List.all_eq_true.1 List.all_takeWhile, fun x hMem => ?_⟩
  · rw [trimEnds, List.append_assoc, ← List.reverse_append, List.takeWhile_append_dropWhile,
      List.reverse_reverse, List.takeWhile_append_dropWhile]
  · exact List.all_eq_true.1 List.all_takeWhile x (List.mem_reverse.1 hMem)

variable {isEnd items} {x : α}

theorem eq_false_of_mem_head?_dropWhile (hFirst : x ∈ (items.dropWhile isEnd).head?) :
    isEnd x = false := by
  have hStops := List.head?_dropWhile_not isEnd items
  rwa [Option.mem_def.1 hFirst] at hStops

theorem eq_false_of_mem_getLast?_trimEnds (hLast : x ∈ (trimEnds isEnd items).getLast?) :
    isEnd x = false := by
  rw [trimEnds, List.getLast?_reverse] at hLast
  exact eq_false_of_mem_head?_dropWhile hLast

/-- What is cut off behind leaves the first item, if anything is left. -/
theorem eq_false_of_mem_head?_trimEnds (hFirst : x ∈ (trimEnds isEnd items).head?) :
    isEnd x = false := by
  obtain ⟨after, hCut⟩ := List.dropWhile_suffix (l := (items.dropWhile isEnd).reverse) isEnd
  rw [trimEnds, List.head?_reverse, Option.mem_def] at hFirst
  have hKept : x ∈ (items.dropWhile isEnd).head? := by
    rw [← List.getLast?_reverse, ← hCut, List.getLast?_append, hFirst]
    rfl
  exact eq_false_of_mem_head?_dropWhile hKept

end

namespace Text

/-- White space: the characters that separate tokens and that trimming removes. -/
def isBlank (c : Char) : Bool :=
  let n := c.toNat
  (0x09 ≤ n && n ≤ 0x0D) || (0x1C ≤ n && n ≤ 0x20) || n == 0x85 || n == 0xA0 || n == 0x1680 ||
    (0x2000 ≤ n && n ≤ 0x200A) || n == 0x2028 || n == 0x2029 || n == 0x202F || n == 0x205F ||
    n == 0x3000

/-- The text without the white space at its two ends. -/
def trim (s : Text) : Text := trimEnds isBlank s

theorem isBlank_of_isWhitespace {c : Char} (hWhite : c.isWhitespace = true) :
    isBlank c = true := by
  simp only [Char.isWhitespace, Bool.or_eq_true, decide_eq_true_eq] at hWhite
  rcases hWhite with ((rfl | rfl) | rfl) | rfl <;> rfl

@[simp] theorem trim_nil : trim [] = [] := rfl

end Text

end Lisp
