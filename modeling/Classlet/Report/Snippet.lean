import Classlet.Console.Style
import Classlet.Failure
import Classlet.Text.Lines
import Classlet.Text.Pad

/-!
# Snippets

The source line a failure is about, with a marker below the column at which it
begins.
-/

namespace Classlet.Report

open Console (Line plain red dim)

def gutter (number : Nat) : String :=
  Text.padLeft 3 (toString number) ++ " | "

/-- The line that holds a place, if the text has one. -/
def sourceLine? (source : String) (position : Position) : Option String :=
  (Text.lines source)[position.line - 1]?

def marker (position : Position) : String :=
  Text.spaces ((gutter position.line).length + (position.column - 1)) ++ "^"

def snippet (source : String) (position : Position) : List Line :=
  match sourceLine? source position with
  | none => []
  | some text =>
      [[plain "     |"],
        [dim (gutter position.line), plain text],
        [red (marker position), red " error here"],
        [plain "     |"]]

end Classlet.Report
