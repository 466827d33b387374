/-!
# Positions

A place in a text: a line and a column, both counted from one, the column in
characters.
-/

namespace Classlet

structure Position where
  line : Nat
  column : Nat
  deriving DecidableEq, Repr

namespace Position

def start : Position := ⟨1, 1⟩

/-- The place after a character that stands at `position`. -/
def next (position : Position) (char : Char) : Position :=
  if char = '\n' then ⟨position.line + 1, 1⟩ else ⟨position.line, position.column + 1⟩

def past (position : Position) (chars : List Char) : Position :=
  chars.foldl next position

@[simp] theorem past_nil (position : Position) : position.past [] = position := rfl

@[simp] theorem past_cons (position : Position) (char : Char) (chars : List Char) :
    position.past (char :: chars) = (position.next char).past chars := rfl

theorem past_append (position : Position) (front back : List Char) :
    position.past (front ++ back) = (position.past front).past back :=
  List.foldl_append

end Position

end Classlet
