import Lisp.Expr.Basic
import Lisp.Expr.Host
import Lisp.Numeral
import Lisp.Text.Quoted

/-! The text of an expression, given twice: by recursion on the tree, and by a loop over a
stack of tasks, which copes with any nesting. Printing fails at a host value and at a number
that is too long. -/

namespace Lisp

/-- Why an expression has no text. -/
inductive PrintError (F : Type) where
  | hostValue (value : F)
  | longNumber
  deriving DecidableEq

namespace PrintError

def message {F : Type} [HostValue F] : PrintError F → Text
  | hostValue value => "Not a tinylisp expression: ".toList ++ HostValue.shown value
  | longNumber => Numeral.tooLongToWrite

end PrintError

namespace Expr

variable {F : Type}

/-- The decimal text of an integer, unless it is too long. -/
def numberText (value : Int) : Except (PrintError F) Text :=
  match Numeral.write? value with
  | some s => .ok s
  | none => .error .longNumber

/-- The text of an expression that is no pair. A pair has no text of its own. -/
def atomText : Expr F → Except (PrintError F) Text
  | .int value => numberText value
  | .bool value => .ok (if value then ['#', 't'] else ['#', 'f'])
  | .symbol name => .ok name
  | .nil => .ok ['(', ')']
  | .pair _ _ => .ok []
  | .host value => .error (.hostValue value)

mutual

/-- The text of an expression: a list in round brackets, its items set apart by
single spaces, and what ends a dotted list after a dot. -/
def written : Expr F → Except (PrintError F) Text
  | .pair head tail => do
    let first ← written head
    let others ← writtenTail tail
    return '(' :: first ++ others
  | e => atomText e

/-- The text of a list after one of its items, with the closing bracket. -/
def writtenTail : Expr F → Except (PrintError F) Text
  | .nil => .ok [')']
  | .pair head tail => do
    let first ← written head
    let others ← writtenTail tail
    return ' ' :: first ++ others
  | e => do
    let last ← atomText e
    return " . ".toList ++ last ++ [')']

end

/-- What is still to be done in printing: a text that is written as it is, or an expression
whose text is still to be made. -/
inductive PrintTask (F : Type) where
  | text (s : Text)
  | whole (e : Expr F)

/-- Put the items of a list on a stack, the last one first. A space goes in front of each item
but the first. -/
def pushItems : (items : List (Expr F)) → List (PrintTask F) → List (PrintTask F)
  | [], tasks => tasks
  | [first], tasks => .whole first :: tasks
  | item :: earlier, tasks => pushItems earlier (.text [' '] :: .whole item :: tasks)

/-- Put what a list ends in on a stack, behind a dot. The end of a proper list is not written. -/
def pushEnding (ending : Expr F) (tasks : List (PrintTask F)) : List (PrintTask F) :=
  match ending with
  | .nil => tasks
  | e => .text " . ".toList :: .whole e :: tasks

/-- Put a list on a stack, from its closing bracket back to its opening bracket, so that all of
it comes off the stack in reading order. -/
def pushList (list : Expr F) (tasks : List (PrintTask F)) : List (PrintTask F) :=
  let (items, ending) := unroll [] list
  .text ['('] :: pushItems items (pushEnding ending (.text [')'] :: tasks))

/-- The number of nodes. -/
def size : Expr F → Nat
  | .pair head tail => head.size + tail.size + 1
  | _ => 1

theorem size_pos (e : Expr F) : 0 < e.size := by
  cases e <;> simp [size]

/-- More than the weight of the tasks that a task is replaced by. -/
def PrintTask.weight : PrintTask F → Nat
  | text _ => 1
  | whole e => 5 * e.size

/-- The weight of all tasks of a stack. -/
def stackWeight (tasks : List (PrintTask F)) : Nat :=
  tasks.foldr (fun task later => task.weight + later) 0

@[simp] theorem stackWeight_cons (task : PrintTask F) (tasks : List (PrintTask F)) :
    stackWeight (task :: tasks) = task.weight + stackWeight tasks := rfl

/-- The number of nodes of these items and of the pairs that hold them. -/
def itemsSize (items : List (Expr F)) : Nat :=
  items.foldr (fun item later => item.size + 1 + later) 0

@[simp] theorem itemsSize_cons (item : Expr F) (items : List (Expr F)) :
    itemsSize (item :: items) = item.size + 1 + itemsSize items := rfl

/-- Walking along a spine finds every node. -/
theorem itemsSize_unroll (items : List (Expr F)) (e : Expr F) :
    itemsSize (unroll items e).1 + (unroll items e).2.size = itemsSize items + e.size := by
  induction e generalizing items with
  | pair head tail ihHead ihTail =>
      rw [unroll, ihTail]
      simp [size]
      omega
  | _ => rfl

theorem unroll_ne_nil {items : List (Expr F)} (hItems : items ≠ []) (e : Expr F) :
    (unroll items e).1 ≠ [] := by
  induction e generalizing items with
  | pair head tail ihHead ihTail => exact ihTail (List.cons_ne_nil head items)
  | _ => exact hItems

theorem stackWeight_pushItems_le {items : List (Expr F)} (hItems : items ≠ [])
    (tasks : List (PrintTask F)) :
    stackWeight (pushItems items tasks) + 4 ≤
      5 * itemsSize items + stackWeight tasks := by
  fun_induction pushItems items tasks with
  | case1 => exact absurd rfl hItems
  | case2 tasks first =>
      simp [PrintTask.weight]
      omega
  | case3 tasks item earlier hEarlier ih =>
      have hLater := ih hEarlier
      simp [PrintTask.weight] at hLater ⊢
      omega

theorem stackWeight_pushEnding_le (ending : Expr F) (tasks : List (PrintTask F)) :
    stackWeight (pushEnding ending tasks) ≤ 5 * ending.size + 1 + stackWeight tasks := by
  cases ending <;> simp [pushEnding, PrintTask.weight] <;> omega

/-- A list is replaced by more tasks than one, but they weigh less. -/
theorem stackWeight_pushList_lt (head tail : Expr F) (tasks : List (PrintTask F)) :
    stackWeight (pushList (.pair head tail) tasks) <
      stackWeight (.whole (.pair head tail) :: tasks) := by
  have hSize := itemsSize_unroll [] (.pair head tail)
  have hItems := stackWeight_pushItems_le (unroll_ne_nil (List.cons_ne_nil head []) tail)
    (pushEnding (unroll [head] tail).2 (.text [')'] :: tasks))
  have hEnding := stackWeight_pushEnding_le (unroll [head] tail).2 (.text [')'] :: tasks)
  have hNone : itemsSize ([] : List (Expr F)) = 0 := rfl
  simp only [pushList, unroll, stackWeight_cons, PrintTask.weight] at hSize hItems hEnding ⊢
  omega

/-- Do the tasks of a stack; `out` holds the text so far, the newest character first. A list is
replaced by its parts, so nothing has to be remembered but the stack. -/
def printTasks (tasks : List (PrintTask F)) (out : List Char) : Except (PrintError F) Text :=
  match tasks with
  | [] => .ok out.reverse
  | .text s :: rest => printTasks rest (s.reverse ++ out)
  | .whole (.pair head tail) :: rest => printTasks (pushList (.pair head tail) rest) out
  | .whole e :: rest =>
    match atomText e with
    | .ok s => printTasks rest (s.reverse ++ out)
    | .error err => .error err
termination_by stackWeight tasks
decreasing_by
  · simp [PrintTask.weight]
  · exact stackWeight_pushList_lt head tail rest
  · have hSize := size_pos e
    simp [PrintTask.weight]
    omega

/-- The text of an expression, made with a stack of tasks. It reads back where every name in it
is readable. -/
def print (e : Expr F) : Except (PrintError F) Text := printTasks [.whole e] []

variable [HostValue F]

/-- The text that shows what kind of expression this is. -/
def shown : Expr F → Except (PrintError F) Text
  | .int value => do
    let digits ← numberText value
    return "Integer(value=".toList ++ digits ++ [')']
  | .bool value => .ok (if value then "Boolean(value=True)" else "Boolean(value=False)").toList
  | .symbol name => .ok ("Symbol(".toList ++ name.quoted ++ [')'])
  | .nil => .ok "Nil".toList
  | .pair head tail => do
    let text ← print (.pair head tail)
    return "<Pair ".toList ++ text ++ ['>']
  | .host value => .ok (HostValue.shown value)

/-- The text of an expression in a message: bare for an atom. -/
def plain : Expr F → Except (PrintError F) Text
  | .int value => numberText value
  | .bool value => .ok (if value then ['#', 't'] else ['#', 'f'])
  | .symbol name => .ok name
  | .host value => .ok (HostValue.plain value)
  | e => shown e

/-- Every expression but `nil` counts as true, `#f` and zero included. -/
def isTrue : Expr F → Bool
  | .nil => false
  | .host value => HostValue.isTrue value
  | _ => true

end Expr

end Lisp
