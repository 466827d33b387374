import Classlet.Failure
import Classlet.Token.Basic

/-!
# Faults

The causes that end an analysis.  A fault keeps the tokens it is about; its
message, kind and place are read off them.
-/

namespace Classlet

/-- What the analysis sees next: a token, or the end of the text after `last`. -/
inductive Lookahead where
  | token (token : Token)
  | ending (last : Position)
  deriving DecidableEq, Repr

namespace Lookahead

def kind? : Lookahead → Option Kind
  | token found => some found.kind
  | ending _ => none

/-- The place of the token, or of the last token once the text has ended. -/
def position : Lookahead → Position
  | token found => found.position
  | ending last => last

def describe : Lookahead → String
  | token found => s!"{found.kind.name} '{found.lexeme}'"
  | ending _ => "end of input"

end Lookahead

inductive Wanted where
  | kind (kind : Kind)
  | access
  | type
  | statement
  | expression
  | stepOperator
  deriving DecidableEq, Repr

def Wanted.describe : Wanted → String
  | kind wanted => wanted.name
  | access => "access modifier"
  | type => "type"
  | statement => "statement"
  | expression => "expression"
  | stepOperator => "compound assignment operator"

inductive Fault where
  | unexpected (wanted : Wanted) (ahead : Lookahead)
  | duplicate (name : Token) (previous : Ty)
  | undeclared (name : Token)
  /-- The value after `sign` has another type than its target. -/
  | assignment (target : Token) (declared found : Ty) (sign : Token)
  | operands (sign : Token) (left right : Ty)
  | nonBoolean (sign : Token) (left right : Ty)
  deriving DecidableEq, Repr

namespace Fault

def kind : Fault → FailureKind
  | unexpected _ _ => .syntactic
  | duplicate _ _ => .duplicate
  | undeclared _ => .undeclared
  | assignment _ _ _ _ => .mismatch
  | operands _ _ _ => .mismatch
  | nonBoolean _ _ _ => .mismatch

def message : Fault → String
  | unexpected wanted ahead => s!"Expected {wanted.describe}, found {ahead.describe}"
  | duplicate name previous =>
      s!"Variable '{name.lexeme}' is already declared in this scope as {previous.name}"
  | undeclared name => s!"Variable '{name.lexeme}' is not declared"
  | assignment target declared found _ =>
      s!"Cannot assign {found.name} to '{target.lexeme}' of type {declared.name}"
  | operands sign left right =>
      s!"Operator '{sign.lexeme}' cannot be applied to {left.name} and {right.name}"
  | nonBoolean sign left right =>
      s!"Operator '{sign.lexeme}' requires BOOL operands, found {left.name} and {right.name}"

def position : Fault → Position
  | unexpected _ ahead => ahead.position
  | duplicate name _ => name.position
  | undeclared name => name.position
  | assignment _ _ _ sign => sign.position
  | operands sign _ _ => sign.position
  | nonBoolean sign _ _ => sign.position

def failure (fault : Fault) : Failure :=
  ⟨fault.kind, fault.message, fault.position⟩

end Fault

end Classlet
