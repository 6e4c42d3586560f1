import Lisp.Eval.Evaluate
import Lisp.Reader.Read

/-! Sessions carry an environment from expression to expression. A failure keeps what the
expressions before it have bound. -/

namespace Lisp

/-- What can go wrong with source text: it cannot be read, or an expression of it cannot
be evaluated. -/
inductive SourceError (F : Type) where
  | read (err : ReadError)
  | eval (err : EvalError F)

namespace SourceError

def message {F : Type} [HostValue F] : SourceError F → Except (PrintError F) Text
  | read err => .ok err.message
  | eval err => err.message

end SourceError

/-- A session evaluates expressions in order and keeps the environment that each one
leaves. No more than `budget` evaluations may be nested in each other in it. -/
structure Session (F : Type) where
  env : Environment F
  registry : Registry F
  budget : Nat

/-- What evaluating several expressions in a session leads to: the tags recorded, the
values up to the first failure, the failure, and the session as the last success left
it. -/
structure Session.Run (F : Type) where
  recorded : List (Expr F)
  values : List (Expr F)
  failure : Option (SourceError F)
  session : Session F

namespace Session

variable {F : Type}

/-- A session with nothing bound and the forms of the language. -/
def fresh (budget : Nat) : Session F := ⟨.empty, .builtin, budget⟩

/-- Evaluate one expression as the session stands. -/
def evaluate (s : Session F) (e : Expr F) : Outcome F (Evaluated F) :=
  evaluateWithin s.registry s.budget e s.env

/-- Evaluate expressions in order, up to the first failure. An expression that fails
leaves the environment as it was. -/
def run (s : Session F) : List (Expr F) → Run F
  | [] => ⟨[], [], none, s⟩
  | e :: es =>
    match s.evaluate e with
    | ⟨recorded, .error err⟩ => ⟨recorded, [], some (.eval err), s⟩
    | ⟨recorded, .ok (value, env)⟩ =>
      let rest := run { s with env := env } es
      { rest with recorded := recorded ++ rest.recorded, values := value :: rest.values }

/-- A run of the expressions before a fault of the text, which is reported unless one of them
fails. -/
def Run.withFault (fault : Option ReadError) (run : Run F) : Run F :=
  { run with failure := run.failure.or (fault.map .read) }

/-- Evaluate the expressions of a source text in order. A fault of the text is reported
where reading gets to it, after the expressions before it are evaluated. -/
def eval (s : Session F) (source : Text) : Run F :=
  let (es, fault) := readAll source
  (s.run es).withFault fault

/-- The same session with nothing bound. -/
def reset (s : Session F) : Session F := { s with env := .empty }

end Session

namespace Session.Run

variable {F : Type}

/-- The values that a text stands for. A text without expressions stands for `nil`. -/
def answer (run : Run F) : List (Expr F) :=
  if run.values.isEmpty then [.nil] else run.values

end Session.Run

end Lisp
