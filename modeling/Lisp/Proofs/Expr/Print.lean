import Lisp.Expr.Print
import Lisp.Reader.Readable
import Mathlib.Algebra.Group.Int.Defs

/-! The stack of tasks writes what the recursion on the tree writes, and fails where it fails.
What a stack means is the text of its tasks, one after the other, and no turn of the loop changes
it. Main statement: there is a text exactly if every leaf has one, and the first leaf without one
is the reason if there is none. -/

namespace Lisp

theorem Numeral.length_digits_pow (count : Nat) :
    count < (digits ((10 : Int) ^ count).natAbs).length := by
  refine Nat.lt_of_not_le fun hShort => ?_
  rcases Nat.eq_zero_or_pos count with rfl | hCount
  · exact digits_ne_nil _ (List.eq_nil_of_length_eq_zero (Nat.le_zero.1 hShort))
  · rw [digits, Nat.length_toDigits_le_iff (by decide) hCount, Int.natAbs_pow] at hShort
    exact Nat.lt_irrefl _ hShort

namespace Expr

variable {F : Type}

/-- One text and then another, unless there is no first or no second text. -/
def andThen (first second : Except (PrintError F) Text) : Except (PrintError F) Text := do
  return (← first) ++ (← second)

@[simp] theorem ok_andThen_ok (s t : Text) :
    andThen (.ok s : Except (PrintError F) Text) (.ok t) = .ok (s ++ t) := rfl

@[simp] theorem error_andThen (err : PrintError F) (second : Except (PrintError F) Text) :
    andThen (.error err) second = .error err := rfl

@[simp] theorem andThen_nil (first : Except (PrintError F) Text) :
    andThen first (.ok []) = first := by
  cases first <;> simp

@[simp] theorem nil_andThen (second : Except (PrintError F) Text) :
    andThen (.ok []) second = second := by
  cases second <;> rfl

theorem andThen_assoc (first second third : Except (PrintError F) Text) :
    andThen (andThen first second) third = andThen first (andThen second third) := by
  cases first with
  | error err => rfl
  | ok s => cases second <;> cases third <;> simp [andThen, bind, Except.bind, pure, Except.pure]

section

variable {e head tail : Expr F}

theorem written_eq_atomText (hPair : ∀ head tail, e ≠ .pair head tail) :
    written e = atomText e := by
  cases e with
  | pair head tail => exact absurd rfl (hPair head tail)
  | _ => simp [written]

theorem written_pair (head tail : Expr F) :
    written (.pair head tail) =
      andThen (.ok ['(']) (andThen (written head) (writtenTail tail)) := by
  rw [written]
  cases written head <;> cases writtenTail tail <;> rfl

theorem writtenTail_pair (head tail : Expr F) :
    writtenTail (.pair head tail) =
      andThen (.ok [' ']) (andThen (written head) (writtenTail tail)) := by
  rw [writtenTail]
  cases written head <;> cases writtenTail tail <;> rfl

theorem writtenTail_eq_atomText (hNil : e ≠ .nil) (hPair : ∀ head tail, e ≠ .pair head tail) :
    writtenTail e = andThen (.ok " . ".toList) (andThen (atomText e) (.ok [')'])) := by
  rw [writtenTail]
  · cases atomText e <;> rfl
  · exact hNil
  · exact hPair

end

/-- The text of a task. -/
def PrintTask.written : PrintTask F → Except (PrintError F) Text
  | text s => .ok s
  | whole e => e.written

/-- The texts of all tasks of a stack, one after the other. -/
def stackText : List (PrintTask F) → Except (PrintError F) Text
  | [] => .ok []
  | task :: tasks => andThen task.written (stackText tasks)

/-- Items with a space in front of each. -/
def spacedItems (items : List (Expr F)) : List (PrintTask F) :=
  items.flatMap fun item => [.text [' '], .whole item]

theorem pushItems_append (items : List (Expr F)) (first : Expr F) (tasks : List (PrintTask F)) :
    pushItems (items ++ [first]) tasks =
      .whole first :: (spacedItems items.reverse ++ tasks) := by
  induction items generalizing tasks with
  | nil => rfl
  | cons item items ih =>
      rw [List.cons_append, pushItems, ih]
      · simp [spacedItems]
      · simp

/-- A list goes on the stack in reading order. -/
theorem pushList_pair (head tail : Expr F) (tasks : List (PrintTask F)) :
    pushList (.pair head tail) tasks =
      .text ['('] :: .whole head ::
        (spacedItems tail.heads ++ pushEnding tail.ending (.text [')'] :: tasks)) := by
  simp only [pushList, unroll, unroll_eq, pushItems_append, List.reverse_reverse]

/-- What goes on the stack behind the first item is the rest of the list. -/
theorem stackText_tail (tail : Expr F) (tasks : List (PrintTask F)) :
    stackText (spacedItems tail.heads ++ pushEnding tail.ending (.text [')'] :: tasks)) =
      andThen (writtenTail tail) (stackText tasks) := by
  -- The induction is on the spine alone: the items stay on the stack as they are.
  induction tail with
  | pair head tail ihHead ihTail =>
      rw [writtenTail_pair, andThen_assoc, andThen_assoc, ← ihTail]
      rfl
  | nil => rfl
  | int | bool | symbol | host =>
      rw [writtenTail_eq_atomText (by simp) (by simp), andThen_assoc, andThen_assoc]
      simp [heads, spacedItems, ending, pushEnding, stackText, PrintTask.written, written]

/-- Taking a list apart does not change what the stack means. -/
theorem stackText_pushList (head tail : Expr F) (tasks : List (PrintTask F)) :
    stackText (pushList (.pair head tail) tasks) =
      stackText (.whole (.pair head tail) :: tasks) := by
  rw [pushList_pair, stackText, stackText, stackText_tail, stackText, PrintTask.written,
    PrintTask.written, PrintTask.written, written_pair, andThen_assoc, andThen_assoc]

/-- The loop writes the text so far and then what the stack means. -/
theorem printTasks_eq_stackText (tasks : List (PrintTask F)) (out : List Char) :
    printTasks tasks out = andThen (.ok out.reverse) (stackText tasks) := by
  fun_induction printTasks tasks out with
  | case1 out => simp [stackText]
  | case2 out s rest ih =>
      -- Recursion on a measure leaves the text attached to the task that it comes from.
      rw [List.unattach_reverse, List.unattach_attach] at ih
      rw [ih, stackText, PrintTask.written, ← andThen_assoc]
      simp
  | case3 out rest head tail ih => rw [ih, stackText_pushList]
  | case4 out rest e hPair s hText ih =>
      rw [ih, stackText, PrintTask.written, written_eq_atomText hPair, hText, ← andThen_assoc]
      simp
  | case5 out rest e hPair err hText =>
      rw [stackText, PrintTask.written, written_eq_atomText hPair, hText]
      rfl

/-- Printing writes what the recursion on the tree writes. -/
theorem print_eq_written (e : Expr F) : e.print = e.written := by
  rw [print, printTasks_eq_stackText, stackText, stackText, PrintTask.written]
  simp

/-- What stands behind the last item of a list: nothing, or a dot and what the list ends in. -/
def writtenEnding : Expr F → Except (PrintError F) Text
  | .nil => .ok []
  | e => andThen (.ok " . ".toList) (written e)

theorem ok_bind {α β : Type} (x : α) (next : α → Except (PrintError F) β) :
    (Except.ok x >>= next) = next x := rfl

/-- What is left of a list behind its first item, by the items and the ending that are left. -/
theorem writtenTail_eq_heads (e : Expr F) :
    e.writtenTail = do
      let texts ← e.heads.mapM written
      let last ← writtenEnding e.ending
      return texts.flatMap (' ' :: ·) ++ last ++ [')'] := by
  induction e with
  | pair head tail ihHead ihTail =>
      rw [writtenTail_pair, ihTail, heads, ending, List.mapM_cons]
      simp [andThen, ok_bind]
  | nil => rfl
  | int | bool | symbol | host =>
      rw [writtenTail_eq_atomText (by simp) (by simp), ← written_eq_atomText (by simp),
        ← andThen_assoc]
      rfl

theorem intercalate_space_cons (text : Text) (texts : List Text) :
    [' '].intercalate (text :: texts) = text ++ texts.flatMap (' ' :: ·) := by
  induction texts generalizing text with
  | nil => simp
  | cons other texts ih => simp [ih]

/-- A list is written in brackets: its items with single spaces between them, and then, behind a
dot, what it ends in, unless that is the empty list. -/
theorem written_pair_eq_heads (head tail : Expr F) :
    written (.pair head tail) = do
      let texts ← (pair head tail).heads.mapM written
      let last ← writtenEnding (pair head tail).ending
      return '(' :: [' '].intercalate texts ++ last ++ [')'] := by
  rw [written_pair, writtenTail_eq_heads, heads, ending, List.mapM_cons]
  simp [andThen, ok_bind, intercalate_space_cons]

/-- The leaves of the tree in reading order. What a list ends in is one of them. -/
def leaves : Expr F → List (Expr F)
  | .pair head tail => leaves head ++ leaves tail
  | e => [e]

/-- Why there is no text, if there is none. -/
def fault? : Except (PrintError F) Text → Option (PrintError F)
  | .ok _ => none
  | .error err => some err

@[simp] theorem fault?_ok (s : Text) : fault? (.ok s : Except (PrintError F) Text) = none := rfl

theorem fault?_andThen (first second : Except (PrintError F) Text) :
    fault? (andThen first second) = (fault? first).or (fault? second) := by
  cases first <;> cases second <;> rfl

/-- There is no text if one of the leaves has none, and the first one of them is the reason. -/
theorem fault?_written (e : Expr F) :
    fault? e.written = e.leaves.findSome? (fun leaf => fault? leaf.atomText) ∧
      fault? e.writtenTail = e.leaves.findSome? fun leaf => fault? leaf.atomText := by
  induction e with
  | pair head tail ihHead ihTail =>
      rw [leaves, List.findSome?_append, ← ihHead.1, ← ihTail.2, written_pair, writtenTail_pair]
      simp only [fault?_andThen, fault?_ok, Option.none_or, and_self]
  | nil => exact ⟨by simp [written, leaves], rfl⟩
  | int | bool | symbol | host =>
      refine ⟨by simp [written, leaves], ?_⟩
      rw [writtenTail_eq_atomText (by simp) (by simp), fault?_andThen, fault?_andThen]
      simp [leaves, fault?]

theorem fault?_print (e : Expr F) :
    fault? e.print = e.leaves.findSome? fun leaf => fault? leaf.atomText := by
  rw [print_eq_written, e.fault?_written.1]

/-- The expression is no host value and no number that is too long to be written. -/
def isPrintable : Expr F → Bool
  | .int value => (Numeral.digits value.natAbs).length ≤ Numeral.maxDigits
  | .host _ => false
  | _ => true

theorem fault?_atomText_int (n : Int) :
    fault? (int n : Expr F).atomText =
      if (Numeral.digits n.natAbs).length ≤ Numeral.maxDigits then none else some .longNumber := by
  rw [atomText, numberText, Numeral.write?]
  by_cases hShort : (Numeral.digits n.natAbs).length ≤ Numeral.maxDigits
  · rw [if_pos hShort, if_pos hShort]
    rfl
  · rw [if_neg hShort, if_neg hShort]
    rfl

theorem fault?_atomText_eq_none_iff (e : Expr F) :
    fault? e.atomText = none ↔ e.isPrintable = true := by
  cases e with
  | int n => simp [fault?_atomText_int, isPrintable]
  | host value => simp [atomText, fault?, isPrintable]
  | _ => exact iff_of_true rfl rfl

theorem fault?_eq_none_iff {written : Except (PrintError F) Text} :
    fault? written = none ↔ ∃ text, written = .ok text := by
  cases written <;> simp [fault?]

theorem fault?_eq_some_iff {written : Except (PrintError F) Text} {err : PrintError F} :
    fault? written = some err ↔ written = .error err := by
  cases written <;> simp [fault?]

/-- The first leaf that cannot be printed is the reason why there is no text. -/
theorem fault?_print_of_leaves {e leaf : Expr F} {before after : List (Expr F)}
    (hLeaves : e.leaves = before ++ leaf :: after)
    (hBefore : ∀ other ∈ before, other.isPrintable = true) (hLeaf : leaf.isPrintable = false) :
    fault? e.print = fault? leaf.atomText := by
  have hNone : before.findSome? (fun leaf => fault? leaf.atomText) = none :=
    List.findSome?_eq_none_iff.2 fun other hMem =>
      (fault?_atomText_eq_none_iff other).2 (hBefore other hMem)
  rw [fault?_print, hLeaves, List.findSome?_append, hNone, Option.none_or, List.findSome?_cons]
  cases hFault : fault? leaf.atomText with
  | some err => rfl
  | none => simp [(fault?_atomText_eq_none_iff leaf).1 hFault] at hLeaf

/-- Printing with a stack of tasks ends, however deep and long an expression is, and writes what the
recursion on the tree writes: an atom as its text, a list in brackets with single spaces between its
items and with what it ends in behind a dot. There is a text exactly if every leaf can be printed.
Otherwise the first leaf that cannot be printed, in reading order, is the reason. -/
theorem print_eq_written_or_first_fault :
    (∀ e : Expr F, e.print = e.written) ∧
    (∀ e : Expr F, (∀ head tail, e ≠ .pair head tail) → e.written = e.atomText) ∧
    (∀ head tail : Expr F, (pair head tail).written = do
      let texts ← (pair head tail).heads.mapM written
      let last ← writtenEnding (pair head tail).ending
      return '(' :: [' '].intercalate texts ++ last ++ [')']) ∧
    ∀ e : Expr F, ((∃ text, e.print = .ok text) ↔ ∀ leaf ∈ e.leaves, leaf.isPrintable = true) ∧
      ∀ before leaf after, e.leaves = before ++ leaf :: after →
        (∀ other ∈ before, other.isPrintable = true) →
        (∀ value, leaf = .host value → e.print = .error (.hostValue value)) ∧
          ∀ n, leaf = .int n → leaf.isPrintable = false → e.print = .error .longNumber := by
  refine ⟨print_eq_written, fun e hPair => written_eq_atomText hPair, written_pair_eq_heads,
    fun e => ⟨?_, fun before leaf after hLeaves hBefore => ⟨?_, ?_⟩⟩⟩
  · rw [← fault?_eq_none_iff, fault?_print, List.findSome?_eq_none_iff]
    simp only [fault?_atomText_eq_none_iff]
  · rintro value rfl
    rw [← fault?_eq_some_iff, fault?_print_of_leaves hLeaves hBefore rfl]
    rfl
  · rintro n rfl hLong
    rw [← fault?_eq_some_iff, fault?_print_of_leaves hLeaves hBefore hLong, fault?_atomText_int,
      if_neg (by simpa [isPrintable] using hLong)]

theorem print_eq_written_or_first_fault_dotted :
    let e : Expr Nat := .ofList [.ofList [.int 1, .symbol ['a']] (.bool true), .nil] (.symbol ['b'])
    (e.print = .ok "((1 a . #t) () . b)".toList ∧ ∀ leaf ∈ e.leaves, leaf.isPrintable = true) ∧
      ∃ n, let long : Expr Nat := .int n
        let foreign : Expr Nat := .ofList [.int 1, .ofList [.nil, .host 7], long] (.host 9)
        let oversized : Expr Nat := .ofList [.int 1, .ofList [.nil] long, .host 7]
        long.isPrintable = false ∧
          foreign.leaves = [.int 1, .nil] ++ .host 7 :: [.nil, long, .host 9] ∧
          foreign.print = .error (.hostValue 7) ∧
          oversized.leaves = [.int 1, .nil] ++ long :: [.host 7, .nil] ∧
          oversized.print = .error .longNumber := by
  intro e
  obtain ⟨-, -, -, hEach⟩ := print_eq_written_or_first_fault (F := Nat)
  have hText : e.print = .ok "((1 a . #t) () . b)".toList := by cbv
  have hBefore : ∀ other ∈ [(.int 1 : Expr Nat), .nil], other.isPrintable = true := by
    decide +kernel
  refine ⟨⟨hText, (hEach e).1.1 ⟨_, hText⟩⟩, 10 ^ Numeral.maxDigits, ?_⟩
  -- The power is a name from here on, so that nothing computes it.
  generalize hPower : (10 : Int) ^ Numeral.maxDigits = n
  intro long foreign oversized
  have hLong : long.isPrintable = false :=
    decide_eq_false (Nat.not_le_of_lt (hPower ▸ Numeral.length_digits_pow Numeral.maxDigits))
  have hForeign : foreign.leaves = [.int 1, .nil] ++ .host 7 :: [.nil, long, .host 9] := rfl
  have hOversized : oversized.leaves = [.int 1, .nil] ++ long :: [.host 7, .nil] := rfl
  exact ⟨hLong, hForeign, ((hEach _).2 _ _ _ hForeign hBefore).1 7 rfl,
    hOversized, ((hEach _).2 _ _ _ hOversized hBefore).2 _ rfl hLong⟩

end Expr

end Lisp
