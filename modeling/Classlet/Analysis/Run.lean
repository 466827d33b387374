import Classlet.Analysis.Goal

/-!
# Running an analysis

Goals are met in order while tokens last.  Before each token the goals that do
not take it are finished; the first that takes it is replaced by what it asks
for next.  A fault leaves the token at which it shows unread.
-/

namespace Classlet.Analysis

/-- What becomes of the goals at one token. -/
inductive Settlement where
  | taken (goals : List Goal) (scopes : Scope.Stack)
  /-- All goals were met before the token. -/
  | met (scopes : Scope.Stack)
  | failed (fault : Fault) (scopes : Scope.Stack)
  deriving DecidableEq, Repr

def settle (token : Token) : List Goal → Scope.Stack → Settlement
  | [], scopes => .met scopes
  | goal :: goals, scopes =>
      match goal.take? scopes token with
      | .error fault => .failed fault scopes
      | .ok (some next) => .taken (next ++ goals) scopes
      | .ok none =>
          match goal.finish scopes (.token token) with
          | .ok after => settle token goals after
          | .error fault => .failed fault scopes

/-- How an analysis ended, and what it left unread. -/
structure Outcome where
  fault? : Option Fault
  scopes : Scope.Stack
  last : Position
  rest : List Token
  deriving DecidableEq, Repr

def close (last : Position) : List Goal → Scope.Stack → Outcome
  | [], scopes => ⟨none, scopes, last, []⟩
  | goal :: goals, scopes =>
      match goal.finish scopes (.ending last) with
      | .ok after => close last goals after
      | .error fault => ⟨some fault, scopes, last, []⟩

/-- Meet the goals with the tokens that come after the place `last`. -/
def run : List Goal → Scope.Stack → Position → List Token → Outcome
  | goals, scopes, last, [] => close last goals scopes
  | goals, scopes, last, token :: rest =>
      match settle token goals scopes with
      | .taken next after => run next after token.position rest
      | .met after => ⟨none, after, last, token :: rest⟩
      | .failed fault after => ⟨some fault, after, last, token :: rest⟩

end Classlet.Analysis
