/-!
# Ranges of code points

A character property is given by the inclusive ranges of code points that have
it.
-/

namespace Classlet.Text

structure CodeRange where
  first : Nat
  last : Nat
  deriving DecidableEq, Repr

def CodeRange.holds (range : CodeRange) (char : Char) : Bool :=
  range.first ≤ char.toNat && char.toNat ≤ range.last

def within (ranges : List CodeRange) (char : Char) : Bool :=
  ranges.any fun range => range.holds char

end Classlet.Text
