import Classlet.Analysis.Analyzer

/-!
# Notes

The remarks a program analysis makes on its way: the namespaces and classes it
comes by, the methods it enters and leaves, and its successful end.  A method
that a fault cuts short is left as well.
-/

namespace Classlet.Analysis

inductive Note where
  | ofNamespace (name : Token)
  | ofClass (name : Token)
  | entered (name : Token) (depth : Nat)
  | left (name : Token)
  | completed (globals : Nat)
  deriving DecidableEq, Repr

def Note.message : Note → String
  | ofNamespace name => s!"namespace '{name.lexeme}'"
  | ofClass name => s!"class '{name.lexeme}'"
  | entered name depth => s!"enter method '{name.lexeme}' (scope depth {depth})"
  | left name => s!"leave method '{name.lexeme}'"
  | completed globals => s!"analysis finished, {globals} global symbol(s)"

def Goal.takeNotes (token : Token) : Goal → List Note
  | namespaceName => [.ofNamespace token]
  | className => [.ofClass token]
  | _ => []

def Goal.finishNotes (after : Scope.Stack) : Goal → List Note
  | enter name => [.entered name after.depth]
  | leave name => [.left name]
  | _ => []

def Goal.abandonNotes : Goal → List Note
  | leave name => [.left name]
  | _ => []

def settleNotes (token : Token) : List Goal → Scope.Stack → List Note
  | [], _ => []
  | goal :: goals, scopes =>
      match goal.take? scopes token with
      | .error _ => (goal :: goals).flatMap Goal.abandonNotes
      | .ok (some _) => goal.takeNotes token
      | .ok none =>
          match goal.finish scopes (.token token) with
          | .ok after => goal.finishNotes after ++ settleNotes token goals after
          | .error _ => (goal :: goals).flatMap Goal.abandonNotes

def closeNotes (last : Position) : List Goal → Scope.Stack → List Note
  | [], _ => []
  | goal :: goals, scopes =>
      match goal.finish scopes (.ending last) with
      | .ok after => goal.finishNotes after ++ closeNotes last goals after
      | .error _ => (goal :: goals).flatMap Goal.abandonNotes

def runNotes : List Goal → Scope.Stack → Position → List Token → List Note
  | goals, scopes, last, [] => closeNotes last goals scopes
  | goals, scopes, _, token :: rest =>
      settleNotes token goals scopes ++
        match settle token goals scopes with
        | .taken next after => runNotes next after token.position rest
        | _ => []

def notes (tokens : List Token) : List Note :=
  runNotes [.program] .empty .start tokens ++
    match analyze tokens with
    | .ok globals => [.completed globals.size]
    | .error _ => []

end Classlet.Analysis
