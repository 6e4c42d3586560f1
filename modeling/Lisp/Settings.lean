import Lisp.Text.Blank
import Lisp.Text.Quoted
import Lisp.Text.Uppercase
import Lisp.WholeNumber

/-! Settings from the variables of the environment of a process. Every variable has a
default, and a text that makes no sense is refused rather than ignored. -/

namespace Lisp

/-- What the programs may be told from outside, by variables of these names. -/
structure Settings where
  prompt : Text := "tl> ".toList
  continuationPrompt : Text := "... ".toList
  logLevel : Text := "WARNING".toList
  host : Text := "127.0.0.1".toList
  port : Int := 8765
  deriving DecidableEq, Repr

/-- Why the variables give no settings. Both keep the text that is at fault. -/
inductive SettingsError where
  | notLevel (level : Text)
  | notInteger (port : Text)
  deriving DecidableEq, Repr

/-- The value of every variable that is set. -/
abbrev Variables := Text → Option Text

namespace SettingsError

def message : SettingsError → Text
  | notLevel level =>
    "TINYLISP_LOG_LEVEL must be a logging level name, got ".toList ++ level.quoted
  | notInteger port => "TINYLISP_REPL_PORT must be an integer, got ".toList ++ port.quoted

end SettingsError

namespace Settings

/-- The variables that settings are taken from. -/
def variableNames : List Text :=
  ["TINYLISP_PROMPT", "TINYLISP_CONTINUATION_PROMPT", "TINYLISP_LOG_LEVEL",
    "TINYLISP_REPL_HOST", "TINYLISP_REPL_PORT"].map String.toList

/-- The names of the levels at which events are logged. -/
def levels : List Text :=
  ["CRITICAL", "FATAL", "ERROR", "WARN", "WARNING", "INFO", "DEBUG", "NOTSET"].map String.toList

/-- A level by its name, in any case and with white space around it. -/
def level? (s : Text) : Except SettingsError Text :=
  let level := s.trim.uppercase
  if level ∈ levels then .ok level else .error (.notLevel level)

/-- The settings that the variables give. A variable that is not set leaves the default,
and so does an empty port. The level is looked at before the port. -/
def ofVariables (vars : Variables) : Except SettingsError Settings := do
  let defaults : Settings := {}
  let get (name : String) (default : Text) : Text := (vars name.toList).getD default
  let logLevel ← level? (get "TINYLISP_LOG_LEVEL" defaults.logLevel)
  let portText := get "TINYLISP_REPL_PORT" []
  let port ←
    if portText.isEmpty then pure defaults.port
    else
      match WholeNumber.ofSetting? portText with
      | some port => pure port
      | none => throw (.notInteger portText)
  return {
    prompt := get "TINYLISP_PROMPT" defaults.prompt
    continuationPrompt := get "TINYLISP_CONTINUATION_PROMPT" defaults.continuationPrompt
    logLevel
    host := get "TINYLISP_REPL_HOST" defaults.host
    port }

end Settings

end Lisp
