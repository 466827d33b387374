/-!
# Styled text

Output is a list of spans, each a text in one style.  Styles become escape
sequences only when spans are rendered, so nothing else depends on whether
color is on.
-/

namespace Classlet.Console

inductive Style where
  | plain
  | bold
  | red
  | redBold
  | greenBold
  | yellow
  | cyan
  | dim
  deriving DecidableEq, Repr

/-- The parameters of the escape sequence that turns a style on. -/
def Style.code? : Style → Option String
  | plain => none
  | bold => some "1"
  | red => some "31"
  | redBold => some "31;1"
  | greenBold => some "32;1"
  | yellow => some "33"
  | cyan => some "36"
  | dim => some "90"

structure Span where
  style : Style
  text : String
  deriving DecidableEq, Repr

def plain (text : String) : Span := ⟨.plain, text⟩
def bold (text : String) : Span := ⟨.bold, text⟩
def red (text : String) : Span := ⟨.red, text⟩
def redBold (text : String) : Span := ⟨.redBold, text⟩
def greenBold (text : String) : Span := ⟨.greenBold, text⟩
def yellow (text : String) : Span := ⟨.yellow, text⟩
def cyan (text : String) : Span := ⟨.cyan, text⟩
def dim (text : String) : Span := ⟨.dim, text⟩

/-- A line of output, without its line break. -/
abbrev Line := List Span

def spansOf (lines : List Line) : List Span :=
  lines.flatMap (· ++ [plain "\n"])

/-! ## Rendering -/

def sequence (code : String) : List Char :=
  '\x1b' :: '[' :: code.toList ++ ['m']

def Span.render (color : Bool) (span : Span) : List Char :=
  match color, span.style.code? with
  | true, some code => sequence code ++ span.text.toList ++ sequence "0"
  | _, _ => span.text.toList

def render (color : Bool) (spans : List Span) : String :=
  String.ofList (spans.flatMap (Span.render color))

end Classlet.Console
