import Lisp.Batch
import Lisp.CommandLine.Command
import Lisp.Repl
import Lisp.Server.Connection
import Lisp.Text.Line

/-! What a run of the program writes, as a function of all it is given. Services are only
described, since they need a transport. -/

namespace Lisp.CommandLine

/-- What the program leaves to the outside after it has written its output. -/
inductive Service where
  | none
  | sessions (binding : Server.Binding)
  | editor
  deriving DecidableEq, Repr

/-- What a run of the program writes, how it exits, and what service it is to give. -/
structure Output where
  exit : Nat
  stdout : Text
  stderr : Text
  service : Service
  deriving DecidableEq, Repr

namespace Output

/-- All went well. -/
def success (stdout : Text) : Output := ⟨0, stdout, [], .none⟩

/-- The arguments are wrong. Nothing is written to the standard output. -/
def wrongUsage : Output := ⟨2, [], [], .none⟩

/-- A complaint on the standard error ends the run. -/
def failure (stdout complaint : Text) : Output := ⟨1, stdout, complaint ++ ['\n'], .none⟩

/-- Leave a service to the outside. -/
def serving (s : Service) : Output := ⟨0, [], [], s⟩

/-- What a batch shows: each value on a line, and the complaint apart. -/
def ofReport (r : Batch.Report) : Output :=
  let stdout := r.lines.flatMap (· ++ ['\n'])
  match r.complaint with
  | some complaint => failure stdout complaint
  | none => success stdout

end Output

/-- An event of the loop as it is written. A prompt has no newline after it. -/
def written : Repl.Event → Text
  | .prompt text => text
  | .value text => text ++ ['\n']
  | .complaint text => text ++ ['\n']
  | .blank => ['\n']

/-- The lines of a text that is read up to its end. Only newlines end lines, and a newline
at the very end begins no further line. -/
def inputLines (s : Text) : List Text :=
  let lines := s.splitOn '\n'
  if lines.getLast? = some [] then lines.dropLast else lines

/-- The budget of the program itself. All else is for any budget. -/
def maxDepth : Nat := 480

/-- Carry out a command. `file` gives the text of a file that can be read. -/
def Command.perform (budget : Nat) (settings : Settings) (file : Text → Option Text)
    (stdin : Text) : Command → Except (PrintError Empty) Output
  | .repl prompt => do
    let settings := { settings with prompt := prompt.getD settings.prompt }
    let lines := (inputLines stdin).map Repl.Input.line
    let transcript ← Repl.run settings ⟨[], .fresh budget⟩ lines
    return .success (transcript.events.flatMap written)
  | .eval source => return .ofReport (← Batch.run budget source)
  | .run path =>
    match file path with
    | none => .ok .wrongUsage
    | some source => return .ofReport (← Batch.run budget (Text.unifyNewlines source))
  | .serve host port => .ok (.serving (.sessions (.choose settings host port)))
  | .lsp => .ok (.serving .editor)

/-- Run the program with these variables, files, standard input and arguments. -/
def run (budget : Nat) (vars : Variables) (file : Text → Option Text) (stdin : Text)
    (args : List Text) : Except (PrintError Empty) Output :=
  match understand vars args with
  | .error .usage => .ok .wrongUsage
  | .error (.settings err) => .ok (.failure [] ("error: ".toList ++ err.message))
  | .ok (settings, command) => command.perform budget settings file stdin

end Lisp.CommandLine
