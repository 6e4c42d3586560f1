import Lisp.Text.Basic

/-! Dividing arguments into options and operands. -/

namespace Lisp.CommandLine

/-- An option that may be given, and whether a value must follow it. -/
structure OptionSpec where
  name : Text
  takesValue : Bool

/-- The options that are given, in order, with their values, and the other arguments. -/
structure Arguments where
  options : List (Text × Text)
  operands : List Text
  deriving DecidableEq, Repr

namespace Arguments

def empty : Arguments := ⟨[], []⟩

def addOption (name value : Text) (a : Arguments) : Arguments :=
  { a with options := (name, value) :: a.options }

def addOperand (operand : Text) (a : Arguments) : Arguments :=
  { a with operands := operand :: a.operands }

/-- The value of an option. The last time it is given counts. -/
def value? (a : Arguments) (name : Text) : Option Text :=
  (a.options.reverse.find? (·.1 = name)).map Prod.snd

/-- An option begins with a dash. A dash alone is no option. -/
def isOption : Text → Bool
  | '-' :: _ :: _ => true
  | _ => false

/-- The name of an option, and the value that is attached to it with an equals sign. -/
def splitAttached (arg : Text) : Text × Option Text :=
  let name := arg.takeWhile (· != '=')
  (name, if name.length < arg.length then some (arg.drop (name.length + 1)) else none)

/-- Divide arguments into options and operands. Two dashes end the options. Where options
may not be mixed with operands, the first operand ends them too. Nothing comes of an option
that is not known, that lacks its value, or that has one it does not take. -/
def parse? (specs : List OptionSpec) (mixed : Bool) : List Text → Option Arguments
  | [] => some empty
  | arg :: rest =>
    if arg = ['-', '-'] then some ⟨[], rest⟩
    else if isOption arg then
      let (name, attached) := splitAttached arg
      match specs.find? (·.name = name), attached, rest with
      | none, _, _ => none
      | some spec, some value, rest =>
        if spec.takesValue then (parse? specs mixed rest).map (addOption name value) else none
      | some spec, none, [] => if spec.takesValue then none else some (empty.addOption name [])
      | some spec, none, next :: rest =>
        if spec.takesValue then (parse? specs mixed rest).map (addOption name next)
        else (parse? specs mixed (next :: rest)).map (addOption name [])
    else if mixed then (parse? specs mixed rest).map (addOperand arg)
    else some ⟨[], arg :: rest⟩
termination_by args => args.length

end Arguments

end Lisp.CommandLine
