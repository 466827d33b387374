/-!
# Lines

The lines of a text.  A line ends at a newline; one carriage return right
before that newline belongs to the line end.  What follows the last newline is
a line only if it is not empty, and keeps a trailing carriage return.
-/

namespace Classlet.Text

def extend (char : Char) : List (List Char) → List (List Char)
  | [] => [[char]]
  | line :: rest => (char :: line) :: rest

def linesOf : List Char → List (List Char)
  | [] => []
  | '\r' :: '\n' :: rest => [] :: linesOf rest
  | '\n' :: rest => [] :: linesOf rest
  | char :: rest => extend char (linesOf rest)

def lines (text : String) : List String :=
  (linesOf text.toList).map String.ofList

end Classlet.Text
