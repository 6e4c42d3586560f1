import Lisp.CommandLine.Program

/-! The program: variables, files and the terminal around the pure library. -/

namespace Lisp.Terminal

/-- The variables of the process that settings are taken from. -/
def readVariables : IO Variables := do
  let entries ← Settings.variableNames.filterMapM fun name => do
    return (← IO.getEnv (String.ofList name)).map fun value => (name, value.toList)
  return fun name => entries.lookup name

/-- The text of a file, if it can be read and is a text. -/
def readSource (path : Text) : IO (Option Text) := do
  try
    let bytes ← IO.FS.readBinFile (String.ofList path)
    return (Utf8.decode bytes.toList).toOption
  catch _ => return none

/-- Write a text at once. -/
def put (stream : IO.FS.Stream) (s : Text) : IO Unit := do
  stream.putStr (String.ofList s)
  stream.flush

/-- Run the loop at the terminal. -/
partial def runLoop (settings : Settings) (state : Repl.State) : IO UInt32 := do
  let stdout ← IO.getStdout
  put stdout (state.prompt settings)
  let line ← (← IO.getStdin).getLine
  let input :=
    if line.isEmpty then Repl.Input.endOfInput
    else .line ((CommandLine.inputLines line.toList).headD [])
  match Repl.react state input with
  | .error err =>
    put (← IO.getStderr) (err.message ++ ['\n'])
    return 1
  | .ok reaction =>
    put stdout (reaction.events.flatMap CommandLine.written)
    match reaction.next with
    | some state => runLoop settings state
    | none => return 0

/-- Write the output of a command. A service needs a transport, which this program does
not have. -/
def finish (output : Except (PrintError Empty) CommandLine.Output) : IO UInt32 := do
  let stderr ← IO.getStderr
  match output with
  | .error err =>
    put stderr (err.message ++ ['\n'])
    return 1
  | .ok output =>
    put (← IO.getStdout) output.stdout
    put stderr output.stderr
    if output.service = .none then return UInt32.ofNat output.exit
    else
      put stderr "error: no transport for this service\n".toList
      return 1

/-- Run the program. The loop at the terminal reads its lines as they come, and every other
command is carried out as a whole. -/
def runProgram (vars : Variables) (args : List Text) : IO UInt32 := do
  match CommandLine.understand vars args with
  | .ok (settings, .repl prompt) =>
    runLoop { settings with prompt := prompt.getD settings.prompt }
      ⟨[], .fresh CommandLine.maxDepth⟩
  | .ok (_, .run path) =>
    let source ← readSource path
    finish (CommandLine.run CommandLine.maxDepth vars (fun _ => source) [] args)
  | _ => finish (CommandLine.run CommandLine.maxDepth vars (fun _ => none) [] args)

end Lisp.Terminal

def main (args : List String) : IO UInt32 := do
  Lisp.Terminal.runProgram (← Lisp.Terminal.readVariables) (args.map String.toList)
