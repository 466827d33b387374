import Classlet.Token.Position

/-!
# Failures

A failure as it is reported: the class it belongs to, a message, and a place.
-/

namespace Classlet

inductive FailureKind where
  | syntactic
  | duplicate
  | undeclared
  | mismatch
  deriving DecidableEq, Repr

namespace FailureKind

def label : FailureKind → String
  | syntactic => "Syntax error"
  | duplicate => "Duplicate declaration"
  | undeclared => "Undeclared variable"
  | mismatch => "Type mismatch"

def name : FailureKind → String
  | syntactic => "SyntaxError"
  | duplicate => "DuplicateDeclaration"
  | undeclared => "UndeclaredVariable"
  | mismatch => "TypeMismatch"

def all : List FailureKind :=
  [syntactic, duplicate, undeclared, mismatch]

def ofName? (text : String) : Option FailureKind :=
  all.find? fun kind => kind.name == text

theorem ofName?_name (kind : FailureKind) : ofName? kind.name = some kind := by
  cases kind <;> rfl

end FailureKind

structure Failure where
  kind : FailureKind
  message : String
  position : Position
  deriving DecidableEq, Repr

def Failure.display (failure : Failure) : String :=
  s!"{failure.message} at {failure.position.line}:{failure.position.column}"

end Classlet
