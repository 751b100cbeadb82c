/-!
# The symbols of patterns and templates

Patterns and templates are read symbol by symbol, and a backslash makes one symbol with the
character that follows it.  A backslash at the very end is a symbol of its own, which is refused as
soon as it comes next.
-/

namespace Interlinear.Pattern

inductive Symbol where
  | plain (c : Char)
  | escaped (c : Char)
  | dangling
deriving DecidableEq

def Symbol.text : Symbol → List Char
  | plain c => [c]
  | escaped c => ['\\', c]
  | dangling => ['\\']

/-- A symbol and the position of its first character. -/
structure Token where
  position : Nat
  symbol : Symbol

def tokensFrom (position : Nat) : List Char → List Token
  | [] => []
  | ['\\'] => [⟨position, .dangling⟩]
  | '\\' :: c :: cs => ⟨position, .escaped c⟩ :: tokensFrom (position + 2) cs
  | c :: cs => ⟨position, .plain c⟩ :: tokensFrom (position + 1) cs

def tokens (cs : List Char) : List Token :=
  tokensFrom 0 cs

end Interlinear.Pattern
