import Lisp.Text.Basic

/-! Host values are opaque leaves. Expressions without them are those at the empty type,
and the programs of this library work on these alone. -/

namespace Lisp

/-- What an expression needs to know of host values: their plain text, the text
that shows what they are, and whether they count as true. -/
class HostValue (F : Type) where
  plain : F → Text
  shown : F → Text
  isTrue : F → Bool

instance : HostValue Empty := ⟨nofun, nofun, nofun⟩

end Lisp
