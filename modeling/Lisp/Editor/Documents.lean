import Lisp.Bindings
import Lisp.Editor.Analysis
import Lisp.Editor.Word

/-! The open documents of an editor. What is known about a document comes from its latest
text alone. -/

namespace Lisp.Editor

/-- An open document and what is known about it. -/
structure Document where
  text : Text
  analysis : Analysis

/-- The open documents by their addresses, in the order in which they were opened. -/
abbrev Documents := Bindings Document

/-- A mark at one character of a document. -/
structure Diagnostic where
  start : Position
  stop : Position
  severity : Severity
  source : Text
  message : Text
  deriving DecidableEq, Repr

namespace Diagnostic

/-- The mark of a problem is one column wide. -/
def ofProblem (p : Problem) : Diagnostic where
  start := p.position
  stop := ⟨p.position.line, p.position.column + 1⟩
  severity := p.severity
  source := "tinylisp-ls".toList
  message := p.message

/-- The number of a severity. -/
def code (d : Diagnostic) : Nat :=
  match d.severity with
  | .error => 1
  | .warning => 2

end Diagnostic

/-- What happens to a document: it is opened with a text, it has a new text, or it is
closed. -/
inductive DocumentEvent where
  | opened (text : Text)
  | changed (text : Text)
  | closed

namespace Documents

/-- The documents after an event, and the marks that are published for the document. A
document that is not open may have a new text too, and it is open then. -/
def handle (budget : Nat) (docs : Documents) (address : Text) :
    DocumentEvent → Except (PrintError Empty) (List Diagnostic × Documents)
  | .opened text | .changed text => do
    let analysis ← analyze budget text
    return (analysis.problems.map .ofProblem, docs.insert address ⟨text, analysis⟩)
  | .closed => .ok ([], docs.erase address)

/-- What to show at a place of a document: the value of the form that begins there, or else
what there is to say about the word. -/
def hover (docs : Documents) (address : Text) (place : Position) : Option Text := do
  let doc ← docs.get? address
  match doc.analysis.results.find? (·.position = place) with
  | some result => some ("=> ".toList ++ result.text)
  | none => describe (wordAt doc.text place.line place.column)

end Documents

end Lisp.Editor
