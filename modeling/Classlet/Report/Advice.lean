import Classlet.Console.Style
import Classlet.Failure
import Classlet.Text.Search

/-!
# Advice

The help shown below a failure, chosen by its kind and by what its message
mentions.
-/

namespace Classlet.Report

open Console (Line plain yellow dim)

def hint (text : String) : Line := [yellow text]

def detail (text : String) : Line := [plain "    ", dim text]

def syntaxAdvice (message : String) : List Line :=
  if Text.occurs "compound assignment operator" message
      || Text.occurs "found NUMBER" message then
    [hint "Help: A for-loop step has the form `i += 1`.",
      detail "Supported: += -= *= /= %= ++ -- followed by a number"]
  else if Text.occurs "access modifier" message then
    [hint "Help: Classes and members start with public, private or protected."]
  else if Text.occurs "COMMENT" message then
    [hint "Help: Comments are not allowed at this position."]
  else if Text.occurs "end of input" message then
    [hint "Help: Check that every '\x7b' has a matching '\x7d'."]
  else if Text.occurs "Expected SEMICOLON" message then
    [hint "Help: Did you forget a ';'?"]
  else []

def advice (failure : Failure) : List Line :=
  match failure.kind with
  | .undeclared =>
      [hint "Help: Declare the variable before using it.",
        detail "Example: int total = 0;",
        detail "Inside a method only its parameters and locals are visible, not class fields."]
  | .duplicate =>
      hint "Help: Each name can be declared once per scope." ::
        if Text.occurs "already declared" failure.message then
          [detail "For-loop variables share the method scope; pick a different name."]
        else []
  | .mismatch =>
      hint "Help: Both sides must have exactly the same type." ::
        detail "Number literals are INT unless they end in 'f' (FLOAT): 2.5f" ::
        if Text.occurs "BOOL operands" failure.message then
          [detail "'&&' and '||' only combine comparisons or bool values."]
        else []
  | .syntactic => syntaxAdvice failure.message

end Classlet.Report
