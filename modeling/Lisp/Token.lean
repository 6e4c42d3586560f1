import Lisp.Text.Basic

/-! Brackets, tokens, and streams of tokens. A token keeps the offset of its text, and a
fault of the lexer comes only after the last token. -/

namespace Lisp

/-- The two kinds of brackets. They mean the same, but a list must close with the
kind it was opened with. -/
inductive Bracket where
  | round
  | square
  deriving DecidableEq, Repr

namespace Bracket

def opening : Bracket → Char
  | round => '('
  | square => '['

def closing : Bracket → Char
  | round => ')'
  | square => ']'

/-- The kind of bracket that a character opens. -/
def ofOpening? (c : Char) : Option Bracket :=
  if c = '(' then some round else if c = '[' then some square else none

/-- The kind of bracket that a character closes. -/
def ofClosing? (c : Char) : Option Bracket :=
  if c = ')' then some round else if c = ']' then some square else none

@[simp] theorem ofOpening?_opening (b : Bracket) : ofOpening? b.opening = some b := by
  cases b <;> rfl

@[simp] theorem ofClosing?_closing (b : Bracket) : ofClosing? b.closing = some b := by
  cases b <;> rfl

theorem ofOpening?_eq_some {c : Char} {b : Bracket} : ofOpening? c = some b ↔ c = b.opening := by
  cases b <;> grind [ofOpening?, opening]

theorem ofClosing?_eq_some {c : Char} {b : Bracket} : ofClosing? c = some b ↔ c = b.closing := by
  cases b <;> grind [ofClosing?, closing]

end Bracket

/-- What a token is: a bracket, or an atom with its text. The dot of a dotted list
is an atom too. -/
inductive TokenKind where
  | opener (bracket : Bracket)
  | closer (bracket : Bracket)
  | atom (text : Text)
  deriving DecidableEq, Repr

/-- A token and the offset at which its text begins. -/
structure Token where
  kind : TokenKind
  offset : Nat
  deriving DecidableEq, Repr

namespace Token

/-- The part of the source text that the token stands for. -/
def text (t : Token) : Text :=
  match t.kind with
  | .opener b => [b.opening]
  | .closer b => [b.closing]
  | .atom s => s

end Token

/-- The tokens that are still to come. If `unclosedComment` is set, then the source
text ends inside a block comment after these tokens, and the outermost such comment
begins at that offset. -/
structure TokenStream where
  tokens : List Token
  unclosedComment : Option Nat
  deriving DecidableEq, Repr

namespace TokenStream

/-- The same with one more token in front. -/
def cons (t : Token) (s : TokenStream) : TokenStream := { s with tokens := t :: s.tokens }

end TokenStream

end Lisp
