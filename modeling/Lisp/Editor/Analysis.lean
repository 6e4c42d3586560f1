import Lisp.Session
import Lisp.Text.Line

/-! What reading and evaluating a document says about it: the values of its forms and the
problems on the way. -/

namespace Lisp.Editor

/-- How grave a problem is. -/
inductive Severity where
  | error
  | warning
  deriving DecidableEq, Repr

/-- Something wrong with a document, and where. -/
structure Problem where
  position : Position
  message : Text
  severity : Severity
  deriving DecidableEq, Repr

/-- The text of the value of a form that stands at the top level of a document, and where
the form begins. -/
structure FormResult where
  position : Position
  text : Text
  deriving DecidableEq, Repr

/-- What is known about a document, each list in the order of the document. -/
structure Analysis where
  problems : List Problem
  results : List FormResult
  deriving DecidableEq, Repr

/-- Nesting that is too deep is a warning, every other failure an error. -/
def severityOf : EvalError Empty → Severity
  | .depthExceeded => .warning
  | _ => .error

namespace Analysis

/-- One more problem in front. -/
def addProblem (p : Problem) (a : Analysis) : Analysis := { a with problems := p :: a.problems }

/-- One more result in front. -/
def addResult (r : FormResult) (a : Analysis) : Analysis := { a with results := r :: a.results }

/-- The problem of a text that cannot be read. A fault without a place is at the end. -/
def ofReadError (source : Text) (err : ReadError) : Analysis :=
  ⟨[⟨source.positionAt (err.position.getD source.length), err.message, .error⟩], []⟩

/-- Read and evaluate the forms of a stream in order. After a form that fails the
environment is as it was before it. Nothing is known after a fault of the text. -/
def ofStream (source : Text) (session : Session Empty) (stream : TokenStream) :
    Except (PrintError Empty) Analysis :=
  match stream.peek.1 with
  | .error err => .ok (ofReadError source err)
  | .ok none => .ok ⟨[], []⟩
  | .ok (some first) =>
    match _ : stream.next with
    | (.error err, _) => .ok (ofReadError source err)
    | (.ok none, _) => .ok ⟨[], []⟩
    | (.ok (some e), rest) => do
      let position := source.positionAt first.offset
      match (session.evaluate e).result with
      | .error err =>
        let message ← err.message
        return (← ofStream source session rest).addProblem ⟨position, message, severityOf err⟩
      | .ok (value, env) =>
        let text ← value.print
        return (← ofStream source { session with env := env } rest).addResult ⟨position, text⟩
termination_by stream.tokens.length
decreasing_by
  all_goals exact TokenStream.length_tokens_nextWithin ‹_›

end Analysis

/-- What can be said about a document by reading and evaluating it in a fresh session. -/
def analyze (budget : Nat) (source : Text) : Except (PrintError Empty) Analysis :=
  Analysis.ofStream source (.fresh budget) (lex source)

end Lisp.Editor
