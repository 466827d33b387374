import Classlet.Expression.Operator
import Classlet.Scope.Stack

/-!
# Expressions

Expressions are typed token by token.  Operations whose right operand is not
complete yet, and groups that are still open, wait on a list of frames; an
operation leaves the list as soon as the next operator, the end of its group or
the end of the expression shows that its right operand is complete.

No tree is built.  Comments are passed over only where an operator may follow.
A tightest operation is complete when its right operand is, so it is typed before
a comment is passed over; all others are typed after it.
-/

namespace Classlet.Expression

/-- What waits for the operand being read, the innermost first. -/
inductive Frame where
  /-- An operation that has its left operand. -/
  | operation (left : Ty) (operator : Operator) (sign : Token)
  | group
  deriving DecidableEq, Repr

inductive State where
  | operand (frames : List Frame)
  /-- An operand of type `ty` has just ended. -/
  | operator (frames : List Frame) (ty : Ty)
  deriving DecidableEq, Repr

def State.start : State := .operand []

/--
Complete the waiting operations of at least the given level, innermost first, up
to the nearest open group.
-/
def reduce (level : Nat) : List Frame → Ty → Except Fault (List Frame × Ty)
  | .operation left operator sign :: frames, right =>
      if level ≤ operator.level then
        match operator.typing sign left right with
        | .ok ty => reduce level frames ty
        | .error fault => .error fault
      else .ok (.operation left operator sign :: frames, right)
  | frames, ty => .ok (frames, ty)

/-- The type of a token that is an operand by itself; `none` for any other token. -/
def operandType? (scopes : Scope.Stack) (token : Token) : Except Fault (Option Ty) :=
  match token.kind with
  | .identifier =>
      match scopes.lookup token.lexeme with
      | some ty => .ok (some ty)
      | none => .error (.undeclared token)
  | .number =>
      if token.lexeme.toList.getLast? = some 'f' then .ok (some .float)
      else .ok (some .int)
  | .stringLiteral => .ok (some .string)
  | _ => .ok none

namespace State

/-- The state after a token; `none` if the token does not continue the expression. -/
def take? (scopes : Scope.Stack) (token : Token) : State → Except Fault (Option State)
  | operand frames =>
      if token.kind = .leftParen then .ok (some (operand (.group :: frames)))
      else
        match operandType? scopes token with
        | .ok ty? => .ok (ty?.map (operator frames))
        | .error fault => .error fault
  | operator frames ty =>
      match token.kind with
      | .comment _ =>
          match reduce Operator.tightest frames ty with
          | .ok (waiting, left) => .ok (some (operator waiting left))
          | .error fault => .error fault
      | .binary next =>
          match reduce next.level frames ty with
          | .ok (waiting, left) =>
              .ok (some (operand (.operation left next token :: waiting)))
          | .error fault => .error fault
      | .rightParen =>
          match reduce 0 frames ty with
          | .ok (.group :: outer, inner) => .ok (some (operator outer inner))
          | .ok _ => .ok none
          | .error fault => .error fault
      | _ => .ok none

def finish (ahead : Lookahead) : State → Except Fault Ty
  | operand _ => .error (.unexpected .expression ahead)
  | operator frames ty =>
      match reduce 0 frames ty with
      | .ok ([], whole) => .ok whole
      | .ok _ => .error (.unexpected (.kind .rightParen) ahead)
      | .error fault => .error fault

end State

structure Reading where
  verdict : Except Fault Ty
  last : Position
  rest : List Token

/-- Read the longest expression at the front of `tokens`, from a given state on. -/
def read (scopes : Scope.Stack) : State → Position → List Token → Reading
  | state, last, [] => ⟨state.finish (.ending last), last, []⟩
  | state, last, token :: rest =>
      match state.take? scopes token with
      | .ok (some next) => read scopes next token.position rest
      | .ok none => ⟨state.finish (.token token), last, token :: rest⟩
      | .error fault => ⟨.error fault, last, token :: rest⟩

end Classlet.Expression
