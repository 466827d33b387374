import Classlet.Token.Kind
import Classlet.Token.Position

/-!
# Tokens

A token keeps the exact text it was cut from and the place of that text's first
character.
-/

namespace Classlet

structure Token where
  kind : Kind
  lexeme : String
  position : Position
  deriving DecidableEq, Repr

end Classlet
