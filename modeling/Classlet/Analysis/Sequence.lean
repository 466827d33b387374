import Classlet.Analysis.Run

/-!
# Goals in sequence

Meeting some goals and then some more is meeting the first and going on from
there, and an expression in front of other goals is read as by itself.  So each
part of a program can be considered apart from what surrounds it.
-/

namespace Classlet.Analysis

/-! ## Lists of goals -/

def Settlement.followedBy (token : Token) (more : List Goal) : Settlement → Settlement
  | taken goals scopes => taken (goals ++ more) scopes
  | met scopes => settle token more scopes
  | failed fault scopes => failed fault scopes

theorem settle_append (token : Token) (goals more : List Goal) (scopes : Scope.Stack) :
    settle token (goals ++ more) scopes =
      (settle token goals scopes).followedBy token more := by
  induction goals generalizing scopes with
  | nil => rfl
  | cons goal goals ih =>
      simp only [List.cons_append, settle]
      cases goal.take? scopes token with
      | error fault => rfl
      | ok next? =>
          cases next? with
          | some next => simp [Settlement.followedBy]
          | none =>
              cases goal.finish scopes (.token token) with
              | error fault => rfl
              | ok after => exact ih after

/-- Go on with more goals where an outcome stopped, unless it stopped with a fault. -/
def Outcome.followedBy (more : List Goal) (outcome : Outcome) : Outcome :=
  match outcome.fault? with
  | some _ => outcome
  | none => run more outcome.scopes outcome.last outcome.rest

theorem close_append (last : Position) (goals more : List Goal) (scopes : Scope.Stack) :
    close last (goals ++ more) scopes = (close last goals scopes).followedBy more := by
  induction goals generalizing scopes with
  | nil => rfl
  | cons goal goals ih =>
      simp only [List.cons_append, close]
      cases goal.finish scopes (.ending last) with
      | error fault => rfl
      | ok after => exact ih after

theorem run_append (goals more : List Goal) (scopes : Scope.Stack) (last : Position)
    (tokens : List Token) :
    run (goals ++ more) scopes last tokens =
      (run goals scopes last tokens).followedBy more := by
  induction tokens generalizing goals scopes last with
  | nil => exact close_append last goals more scopes
  | cons token rest ih =>
      simp only [run, settle_append]
      cases settle token goals scopes with
      | taken next after => exact ih next after token.position
      | met after => rfl
      | failed fault after => rfl

/-! ## Expressions -/

/-- Use the type that reading an expression gave, and meet more goals. -/
def afterReading (reading : Expression.Reading) (use : Use) (more : List Goal)
    (scopes : Scope.Stack) : Outcome :=
  match reading.verdict with
  | .error fault => ⟨some fault, scopes, reading.last, reading.rest⟩
  | .ok ty =>
      match use.check ty with
      | .error fault => ⟨some fault, scopes, reading.last, reading.rest⟩
      | .ok _ => run more scopes reading.last reading.rest

theorem run_expression (state : Expression.State) (use : Use) (more : List Goal)
    (scopes : Scope.Stack) (last : Position) (tokens : List Token) :
    run (.expression state use :: more) scopes last tokens =
      afterReading (Expression.read scopes state last tokens) use more scopes := by
  induction tokens generalizing state last with
  | nil =>
      simp only [run, close, Goal.finish, Expression.read, afterReading]
      cases state.finish (.ending last) with
      | error fault => rfl
      | ok ty => cases hcheck : use.check ty <;> simp [hcheck]
  | cons token rest ih =>
      simp only [run, settle, Goal.take?, Expression.read]
      cases state.take? scopes token with
      | error fault => rfl
      | ok next? =>
          cases next? with
          | some next => exact ih next token.position
          | none =>
              simp only [Goal.finish, afterReading, Option.map_none]
              cases state.finish (.token token) with
              | error fault => rfl
              | ok ty => cases hcheck : use.check ty <;> simp [hcheck, run]

end Classlet.Analysis
