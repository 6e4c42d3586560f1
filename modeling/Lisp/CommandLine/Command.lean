import Lisp.CommandLine.Arguments
import Lisp.Settings

/-! The commands of the program, and how arguments name them. -/

namespace Lisp.CommandLine

/-- What the program is asked to do. -/
inductive Command where
  /-- Run the loop at the terminal, with a prompt of its own. -/
  | repl (prompt : Option Text)
  /-- Evaluate source text. -/
  | eval (source : Text)
  /-- Evaluate a file. -/
  | run (path : Text)
  /-- Serve sessions on a host and a port. -/
  | serve (host : Option Text) (port : Option Int)
  /-- Serve an editor. -/
  | lsp
  deriving DecidableEq, Repr

/-- The commands by name. -/
inductive CommandName where
  | repl
  | eval
  | run
  | serve
  | lsp
  deriving DecidableEq, Repr

namespace CommandName

def ofText? (s : Text) : Option CommandName :=
  if s = "repl".toList then some repl
  else if s = "eval".toList then some eval
  else if s = "run".toList then some run
  else if s = "serve".toList then some serve
  else if s = "lsp".toList then some lsp
  else none

/-- The options of a command. All of them take a value. -/
def options : CommandName → List OptionSpec
  | repl => [⟨"--prompt".toList, true⟩]
  | serve => [⟨"--host".toList, true⟩, ⟨"--port".toList, true⟩]
  | eval | run | lsp => []

end CommandName

namespace Command

/-- The command with this name and these arguments, if they are as they must be. -/
def ofArguments? (name : CommandName) (args : List Text) : Option Command := do
  let args ← Arguments.parse? name.options true args
  match name, args.operands with
  | .repl, [] => some (.repl (args.value? "--prompt".toList))
  | .eval, [source] => some (.eval source)
  | .run, [path] => some (.run path)
  | .serve, [] =>
    let host := args.value? "--host".toList
    match args.value? "--port".toList with
    | none => some (.serve host none)
    | some text => do
      let port ← WholeNumber.ofOption? text
      some (.serve host (some port))
  | .lsp, [] => some .lsp
  | _, _ => none

end Command

/-- The options of the program itself. -/
def programOptions : List OptionSpec :=
  [⟨"--verbose".toList, false⟩, ⟨"--no-verbose".toList, false⟩]

/-- Why there is no command to carry out. -/
inductive Refusal where
  | usage
  | settings (err : SettingsError)
  deriving DecidableEq, Repr

/-- The settings and the command that the variables and the arguments give. Without a
command the loop is run. The name of the command is looked at first, then the settings,
and then the arguments of the command. -/
def understand (vars : Variables) (args : List Text) :
    Except Refusal (Settings × Command) := do
  let some args := Arguments.parse? programOptions false args | throw .usage
  match args.operands with
  | [] =>
    let settings ← (Settings.ofVariables vars).mapError .settings
    return (settings, .repl none)
  | name :: rest =>
    let some name := CommandName.ofText? name | throw .usage
    let settings ← (Settings.ofVariables vars).mapError .settings
    let some command := Command.ofArguments? name rest | throw .usage
    return (settings, command)

end Lisp.CommandLine
