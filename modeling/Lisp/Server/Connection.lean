import Lisp.Server.Request
import Lisp.Settings
import Lisp.Text.Blank

/-! A connection cuts a stream of bytes into lines and answers each whole line. The bytes
may arrive in any pieces. -/

namespace Lisp.Server

/-- A connection: the bytes that are not a whole line yet, and its session. -/
structure Connection where
  buffer : Bytes
  session : Session Empty

namespace Connection

/-- A new connection has a session of its own. -/
def opened (budget : Nat) : Connection := ⟨[], .fresh budget⟩

/-- White space at the ends of a line, in ASCII. -/
def isSpace (b : UInt8) : Bool := (0x09 ≤ b && b ≤ 0x0D) || b == 0x20

/-- The bytes without white space at their ends. -/
def trim (b : Bytes) : Bytes := trimEnds isSpace b

/-- The lines that end in these bytes, without their newlines, and the bytes after the last
newline. `line` holds what the line under way has so far, the newest byte first. -/
def splitLines (line : List UInt8) : Bytes → List Bytes × Bytes
  | [] => ([], line.reverse)
  | b :: rest =>
    if b = 0x0A then
      let (lines, tail) := splitLines [] rest
      (line.reverse :: lines, tail)
    else splitLines (b :: line) rest

/-- Answer lines in order, each in the session that the one before it leaves. A blank line
is no request. -/
def answerAll (s : Session Empty) :
    (lines : List Bytes) → Except (PrintError Empty) (List Response × Session Empty)
  | [] => .ok ([], s)
  | line :: rest =>
    let line := trim line
    if line.isEmpty then answerAll s rest
    else do
      let handled ← handle s (.bytes line)
      let (responses, s) ← answerAll handled.session rest
      return (handled.response :: responses, s)

/-- Take in a chunk of bytes, and answer the lines that it completes. -/
def receive (c : Connection) (chunk : Bytes) :
    Except (PrintError Empty) (List Response × Connection) := do
  let (lines, buffer) := splitLines [] (c.buffer ++ chunk)
  let (responses, session) ← answerAll c.session lines
  return (responses, ⟨buffer, session⟩)

/-- Take in chunks in order. What is left in the buffer at the end is not answered. -/
def receiveAll (c : Connection) :
    (chunks : List Bytes) → Except (PrintError Empty) (List Response)
  | [] => .ok []
  | chunk :: rest => do
    let (responses, c) ← c.receive chunk
    return responses ++ (← c.receiveAll rest)

end Connection

/-- Where a server listens, and how many connections may wait. -/
structure Binding where
  host : Text
  port : Int
  backlog : Nat := 5
  deriving DecidableEq, Repr

namespace Binding

/-- The host and the port that are asked for, or else those of the settings. An empty host
asks for none. -/
def choose (settings : Settings) (host : Option Text) (port : Option Int) : Binding where
  host := (host.filter (!·.isEmpty)).getD settings.host
  port := port.getD settings.port

end Binding

end Lisp.Server
