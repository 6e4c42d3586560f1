import Lisp.Encoding.Detect
import Lisp.Json.Parse
import Lisp.Json.Write
import Lisp.Session

/-! Requests and responses, one JSON text each. Every line is answered, one that is no
request with what is wrong with it. -/

namespace Lisp.Server

/-- A request as it arrives: as a text, or as bytes in an encoding that they show. -/
inductive Line where
  | text (s : Text)
  | bytes (b : Bytes)

/-- Why a line is no JSON. -/
inductive LineError where
  | decode (err : DecodeError)
  | parse (source : Text) (err : Json.ParseError)

namespace LineError

def message : LineError → Text
  | decode err => err.message
  | parse source err => err.message source

end LineError

namespace Line

/-- The JSON value of a line. A text may not begin with a byte order mark. -/
def value : Line → Except LineError Json.Value
  | text s =>
    if s.head? = some '\ufeff' then .error (.parse s .byteOrderMark)
    else (Json.parse s).mapError (.parse s)
  | bytes b =>
    match Encoding.decode b with
    | .error err => .error (.decode err)
    | .ok s => (Json.parse s).mapError (.parse s)

end Line

/-- The answer to a request: a result, or what is wrong. -/
inductive Response where
  | result (text : Text)
  | error (message : Text)
  deriving DecidableEq, Repr

namespace Response

def value : Response → Json.Value
  | result text => .object [("ok".toList, .bool true), ("result".toList, .string text)]
  | error message => .object [("ok".toList, .bool false), ("error".toList, .string message)]

/-- The line that is sent. -/
def line (r : Response) : Text := Json.write r.value ++ ['\n']

end Response

/-- What a valid line asks for. -/
inductive Request where
  | eval (code : Text)
  | reset

/-- Why a JSON value is no request. -/
inductive RequestError where
  | notObject
  | codeNotString
  | unknownCommand (command : Json.Value)

namespace RequestError

def message : RequestError → Text
  | notObject => "Invalid request: expected a JSON object".toList
  | codeNotString => "Invalid request: 'code' must be a string".toList
  | unknownCommand command => "Unknown cmd: ".toList ++ command.plain

end RequestError

namespace Request

/-- The request that a JSON value is. Code that is missing is empty. -/
def ofValue (v : Json.Value) : Except RequestError Request :=
  match v with
  | .object _ =>
    match (v.member? "cmd".toList).getD .null with
    | .string command =>
      if command = "eval".toList then
        match (v.member? "code".toList).getD (.string []) with
        | .string code => .ok (.eval code)
        | _ => .error .codeNotString
      else if command = "reset".toList then .ok .reset
      else .error (.unknownCommand (.string command))
    | command => .error (.unknownCommand command)
  | _ => .error .notObject

/-- The answer to a request, and the session to go on with. The values of an evaluation
stand on lines of their own. -/
def answer (s : Session Empty) : Request → Except (PrintError Empty) (Response × Session Empty)
  | eval code => do
    let run := s.eval code
    match run.failure with
    | some failure => return (.error (← failure.message), run.session)
    | none =>
      let texts ← run.answer.mapM Expr.print
      return (.result (['\n'].intercalate texts), run.session)
  | reset => .ok (.result ['(', ')'], s.reset)

end Request

/-- What a line leads to: the response, the session to go on with, and whether it is a new
one. -/
structure Handled where
  response : Response
  session : Session Empty
  fresh : Bool

/-- Answer one line. -/
def handle (s : Session Empty) (line : Line) : Except (PrintError Empty) Handled :=
  match line.value with
  | .error err => .ok ⟨.error ("Invalid request: ".toList ++ err.message), s, false⟩
  | .ok v =>
    match Request.ofValue v with
    | .error err => .ok ⟨.error err.message, s, false⟩
    | .ok request => do
      let (response, session) ← request.answer s
      return ⟨response, session, request matches .reset⟩

end Lisp.Server
