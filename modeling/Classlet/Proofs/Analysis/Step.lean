import Classlet.Analysis.Sequence
import Classlet.Proofs.Expression.Reading
import Classlet.Proofs.Grammar.Typing

/-!
# Single steps

What meeting one goal does when the tokens of a tree come next.  A run either
goes on as if the part of the tree had never been there, in scopes with more
names, or it is rejected for a reason other than syntax: `Outcome.Answers`.
-/

namespace Classlet.Scope.Stack

def extend (scopes : Stack) (bindings : List (String × Ty)) : Stack :=
  scopes.withCurrent ⟨scopes.current.entries ++ bindings⟩

@[simp] theorem current_withCurrent (scopes : Stack) (table : Table) :
    (scopes.withCurrent table).current = table := by
  obtain ⟨global, locals⟩ := scopes
  cases locals <;> rfl

@[simp] theorem withCurrent_withCurrent (scopes : Stack) (first second : Table) :
    (scopes.withCurrent first).withCurrent second = scopes.withCurrent second := by
  obtain ⟨global, locals⟩ := scopes
  cases locals <;> rfl

@[simp] theorem entries_extend (scopes : Stack) (bindings : List (String × Ty)) :
    (scopes.extend bindings).current.entries = scopes.current.entries ++ bindings := by
  simp [extend]

@[simp] theorem extend_nil (scopes : Stack) : scopes.extend [] = scopes := by
  obtain ⟨global, locals⟩ := scopes
  cases locals <;> simp [extend, withCurrent, current]

@[simp] theorem extend_extend (scopes : Stack) (first second : List (String × Ty)) :
    (scopes.extend first).extend second = scopes.extend (first ++ second) := by
  simp [extend]

@[simp] theorem entries_push (scopes : Stack) : scopes.push.current.entries = [] := rfl

end Classlet.Scope.Stack

namespace Classlet.Grammar

/-- The names are distinct and none of them is known. -/
def Fresh (known bindings : Bindings) : Prop :=
  bindings.Distinct ∧ ∀ binding ∈ bindings, ∀ other ∈ known, other.1 ≠ binding.1

theorem fresh_append (known first second : Bindings) :
    Fresh known (first ++ second) ↔ Fresh known first ∧ Fresh (known ++ first) second := by
  simp only [Fresh, Bindings.Distinct, List.map_append, List.nodup_append, List.mem_append,
    List.mem_map]
  constructor
  · rintro ⟨⟨hfirst, hsecond, hapart⟩, hnew⟩
    refine ⟨⟨hfirst, fun binding h => hnew binding (.inl h)⟩, hsecond, ?_⟩
    rintro binding hbinding other (hknown | hother)
    · exact hnew binding (.inr hbinding) other hknown
    · exact hapart _ ⟨other, hother, rfl⟩ _ ⟨binding, hbinding, rfl⟩
  · rintro ⟨⟨hfirst, hnewFirst⟩, hsecond, hnewSecond⟩
    refine ⟨⟨hfirst, hsecond, ?_⟩, ?_⟩
    · rintro _ ⟨other, hother, rfl⟩ _ ⟨binding, hbinding, rfl⟩
      exact hnewSecond binding hbinding other (.inr hother)
    · rintro binding (hbinding | hbinding) other hother
      · exact hnewFirst binding hbinding other hother
      · exact hnewSecond binding hbinding other (.inl hother)

theorem fresh_cons (known : Bindings) (binding : String × Ty) (more : Bindings) :
    Fresh known (binding :: more) ↔
      Fresh known [binding] ∧ Fresh (known ++ [binding]) more :=
  fresh_append known [binding] more

/-- Two parts in turn: the names of the first are known in the second. -/
theorem and_fresh_append {first second : Prop} (known front back : Bindings) :
    ((first ∧ Fresh known front) ∧ second ∧ Fresh (known ++ front) back) ↔
      (first ∧ second) ∧ Fresh known (front ++ back) := by
  rw [fresh_append]
  constructor
  · rintro ⟨⟨hfirst, hfront⟩, hsecond, hback⟩
    exact ⟨⟨hfirst, hsecond⟩, hfront, hback⟩
  · rintro ⟨⟨hfirst, hsecond⟩, hfront, hback⟩
    exact ⟨⟨hfirst, hfront⟩, hsecond, hback⟩

@[simp] theorem fresh_nil_right (known : Bindings) : Fresh known [] := by
  simp [Fresh, Bindings.Distinct]

theorem fresh_nil_left (bindings : Bindings) : Fresh [] bindings ↔ bindings.Distinct := by
  simp [Fresh]

theorem fresh_singleton (known : Bindings) (binding : String × Ty) :
    Fresh known [binding] ↔ known.lookup binding.1 = none := by
  rw [List.lookup_eq_none_iff]
  constructor
  · rintro ⟨_, hnew⟩ other hother
    exact bne_iff_ne.mpr (hnew binding (by simp) other hother).symm
  · intro hnew
    refine ⟨by simp [Bindings.Distinct], ?_⟩
    intro binding' hmem other hother
    rw [List.mem_singleton] at hmem
    subst hmem
    exact (bne_iff_ne.mp (hnew other hother)).symm

end Classlet.Grammar

namespace Classlet.Analysis

open Grammar

/-! ## Answers -/

/-- The run ended with a fault that is not one of syntax. -/
def Outcome.Rejected (outcome : Outcome) : Prop :=
  ∃ fault, outcome.fault? = some fault ∧ fault.kind ≠ .syntactic

/-- The run goes on as `next` if `valid` holds, and is rejected otherwise. -/
def Outcome.Answers (outcome : Outcome) (valid : Prop) (next : Outcome) : Prop :=
  (valid → outcome = next) ∧ (¬ valid → outcome.Rejected)

namespace Outcome.Answers

variable {outcome next final : Outcome} {valid later : Prop}

theorem of_valid (hvalid : valid) (h : outcome = next) : outcome.Answers valid next :=
  ⟨fun _ => h, fun hinvalid => absurd hvalid hinvalid⟩

theorem congr (h : outcome.Answers valid next) (hiff : valid ↔ later) :
    outcome.Answers later next := by
  rwa [← propext hiff]

theorem trans (hfirst : outcome.Answers valid next)
    (hsecond : valid → next.Answers later final) : outcome.Answers (valid ∧ later) final := by
  constructor
  · rintro ⟨hvalid, hlater⟩
    rw [hfirst.1 hvalid, (hsecond hvalid).1 hlater]
  · intro hboth
    by_cases hvalid : valid
    · rw [hfirst.1 hvalid]
      exact (hsecond hvalid).2 fun hlater => hboth ⟨hvalid, hlater⟩
    · exact hfirst.2 hvalid

end Outcome.Answers

/-! ## One goal -/

section Step

variable {goal : Goal} {goals : List Goal} {scopes after : Scope.Stack}
variable {last : Position} {token : Token} {tokens rest : List Token} {fault : Fault}

theorem run_take (next : List Goal) (h : goal.take? scopes token = .ok (some next)) :
    run (goal :: goals) scopes last (token :: rest) =
      run (next ++ goals) scopes token.position rest := by
  simp [run, settle, h]

theorem run_take_error (h : goal.take? scopes token = .error fault) :
    (run (goal :: goals) scopes last (token :: rest)).fault? = some fault := by
  simp [run, settle, h]

theorem run_skip (htake : goal.take? scopes token = .ok none)
    (hfinish : goal.finish scopes (.token token) = .ok after) :
    run (goal :: goals) scopes last (token :: rest) = run goals after last (token :: rest) := by
  simp [run, settle, htake, hfinish]

theorem run_skip_error (htake : goal.take? scopes token = .ok none)
    (hfinish : goal.finish scopes (.token token) = .error fault) :
    (run (goal :: goals) scopes last (token :: rest)).fault? = some fault := by
  simp [run, settle, htake, hfinish]

theorem run_finish (htake : ∀ token, goal.take? scopes token = .ok none)
    (hfinish : ∀ ahead, goal.finish scopes ahead = .ok after) :
    run (goal :: goals) scopes last tokens = run goals after last tokens := by
  cases tokens with
  | nil => simp [run, close, hfinish]
  | cons token rest => exact run_skip (htake token) (hfinish _)

theorem run_finish_error (htake : ∀ token, goal.take? scopes token = .ok none)
    (hfinish : ∀ ahead, goal.finish scopes ahead = .error fault) :
    (run (goal :: goals) scopes last tokens).fault? = some fault := by
  cases tokens with
  | nil => simp [run, close, hfinish]
  | cons token rest => exact run_skip_error (htake token) (hfinish _)

end Step

/-! ## Goals that take a fixed token -/

section Leaves

variable {goals : List Goal} {scopes : Scope.Stack} {last : Position} {rest : List Token}

@[simp] theorem run_expect {kind : Kind} (leaf : Leaf kind) :
    run (.expect kind :: goals) scopes last (leaf.token :: rest) =
      run goals scopes leaf.token.position rest :=
  run_take [] (by simp [Goal.take?, leaf.kind_eq])

@[simp] theorem run_namespaceName (leaf : Leaf .identifier) :
    run (.namespaceName :: goals) scopes last (leaf.token :: rest) =
      run goals scopes leaf.token.position rest :=
  run_take [] (by simp [Goal.take?, leaf.kind_eq])

@[simp] theorem run_className (leaf : Leaf .identifier) :
    run (.className :: goals) scopes last (leaf.token :: rest) =
      run goals scopes leaf.token.position rest :=
  run_take [] (by simp [Goal.take?, leaf.kind_eq])

@[simp] theorem run_memberType (mark : Mark Kind.type) :
    run (.memberType :: goals) scopes last (mark.token :: rest) =
      run (.memberName mark.value :: goals) scopes mark.token.position rest :=
  run_take [.memberName mark.value] (by simp [Goal.take?, mark.kind_eq, Kind.type?])

@[simp] theorem run_memberName (ty : Ty) (leaf : Leaf .identifier) :
    run (.memberName ty :: goals) scopes last (leaf.token :: rest) =
      run (.field ty leaf.token :: .memberRest leaf.token :: goals) scopes
        leaf.token.position rest :=
  run_take [.field ty leaf.token, .memberRest leaf.token] (by simp [Goal.take?, leaf.kind_eq])

@[simp] theorem run_parameterType (mark : Mark Kind.type) :
    run (.parameterType :: goals) scopes last (mark.token :: rest) =
      run (.parameterName mark.value :: goals) scopes mark.token.position rest :=
  run_take [.parameterName mark.value] (by simp [Goal.take?, mark.kind_eq, Kind.type?])

@[simp] theorem run_parameterName (ty : Ty) (leaf : Leaf .identifier) :
    run (.parameterName ty :: goals) scopes last (leaf.token :: rest) =
      run (.declare ty leaf.token :: goals) scopes leaf.token.position rest :=
  run_take [.declare ty leaf.token] (by simp [Goal.take?, leaf.kind_eq])

@[simp] theorem run_variableName (ty : Ty) (leaf : Leaf .identifier) :
    run (.variableName ty :: goals) scopes last (leaf.token :: rest) =
      run (.declare ty leaf.token :: .initializer ty leaf.token :: .moreVariables ty :: goals)
        scopes leaf.token.position rest :=
  run_take [.declare ty leaf.token, .initializer ty leaf.token, .moreVariables ty]
    (by simp [Goal.take?, leaf.kind_eq])

@[simp] theorem run_targetName (leaf : Leaf .identifier) :
    run (.targetName :: goals) scopes last (leaf.token :: rest) =
      run (.target leaf.token :: goals) scopes leaf.token.position rest :=
  run_take [.target leaf.token] (by simp [Goal.take?, leaf.kind_eq])

@[simp] theorem run_counterType (mark : Mark Kind.type) :
    run (.counterType :: goals) scopes last (mark.token :: rest) =
      run (.counterName mark.value :: goals) scopes mark.token.position rest :=
  run_take [.counterName mark.value] (by simp [Goal.take?, mark.kind_eq, Kind.type?])

@[simp] theorem run_counterName (ty : Ty) (leaf : Leaf .identifier) :
    run (.counterName ty :: goals) scopes last (leaf.token :: rest) =
      run (.declare ty leaf.token :: .assign ty leaf.token :: goals) scopes
        leaf.token.position rest :=
  run_take [.declare ty leaf.token, .assign ty leaf.token] (by simp [Goal.take?, leaf.kind_eq])

@[simp] theorem run_stepName (leaf : Leaf .identifier) :
    run (.stepName :: goals) scopes last (leaf.token :: rest) =
      run (.known leaf.token :: goals) scopes leaf.token.position rest :=
  run_take [.known leaf.token] (by simp [Goal.take?, leaf.kind_eq])

@[simp] theorem run_stepOperator (mark : Mark Kind.step) :
    run (.stepOperator :: goals) scopes last (mark.token :: rest) =
      run goals scopes mark.token.position rest :=
  run_take [] (by simp [Goal.take?, mark.kind_eq, Kind.isStep])

@[simp] theorem run_elementType (mark : Mark Kind.type) :
    run (.elementType :: goals) scopes last (mark.token :: rest) =
      run goals scopes mark.token.position rest :=
  run_take [] (by simp [Goal.take?, mark.kind_eq, Kind.type?])

@[simp] theorem run_assign (ty : Ty) (name : Token) (leaf : Leaf .assign) :
    run (.assign ty name :: goals) scopes last (leaf.token :: rest) =
      run (.expression .start (.assign name ty leaf.token) :: goals) scopes
        leaf.token.position rest :=
  run_take [.expression .start (.assign name ty leaf.token)] (by simp [Goal.take?, leaf.kind_eq])

end Leaves

/-! ## Goals that consult the scopes -/

theorem bindName_eq (scopes : Scope.Stack) (ty : Ty) (name : Token) :
    bindName scopes ty name =
      match scopes.current.entries.lookup name.lexeme with
      | none => .ok (scopes.extend [(name.lexeme, ty)])
      | some previous => .error (.duplicate name previous) := by
  simp only [bindName, Scope.Stack.declare, Scope.Table.add, Scope.Table.get?,
    Scope.Stack.extend]
  cases scopes.current.entries.lookup name.lexeme <;> rfl

theorem resolveName_eq (scopes : Scope.Stack) (name : Token) :
    resolveName scopes name =
      match scopes.current.entries.lookup name.lexeme with
      | none => .error (.undeclared name)
      | some _ => .ok scopes := by
  simp only [resolveName, Scope.Stack.lookup, Scope.Table.get?]
  cases scopes.current.entries.lookup name.lexeme <;> rfl

theorem run_declare (goals : List Goal) (scopes : Scope.Stack) (last : Position) (ty : Ty)
    (name : Token) (tokens : List Token) :
    (run (.declare ty name :: goals) scopes last tokens).Answers
      (Fresh scopes.current.entries [(name.lexeme, ty)])
      (run goals (scopes.extend [(name.lexeme, ty)]) last tokens) := by
  rw [fresh_singleton]
  have htake : ∀ token, (Goal.declare ty name).take? scopes token = .ok none := fun _ => rfl
  constructor
  · intro hnew
    apply run_finish htake
    intro ahead
    rw [Goal.finish, bindName_eq, hnew]
  · intro hold
    obtain ⟨previous, hprevious⟩ := Option.ne_none_iff_exists'.mp hold
    refine ⟨.duplicate name previous, run_finish_error htake fun ahead => ?_, by simp [Fault.kind]⟩
    rw [Goal.finish, bindName_eq, hprevious]

theorem run_known (goals : List Goal) (scopes : Scope.Stack) (last : Position)
    (name : Token)
    (tokens : List Token) :
    (run (.known name :: goals) scopes last tokens).Answers
      (scopes.current.entries.lookup name.lexeme).isSome (run goals scopes last tokens) := by
  have htake : ∀ token, (Goal.known name).take? scopes token = .ok none := fun _ => rfl
  cases hlookup : scopes.current.entries.lookup name.lexeme with
  | some ty =>
      apply Outcome.Answers.of_valid (by simp)
      apply run_finish htake
      intro ahead
      rw [Goal.finish, resolveName_eq, hlookup]
  | none =>
      refine ⟨fun h => by simp at h, fun _ => ⟨.undeclared name, ?_, by simp [Fault.kind]⟩⟩
      apply run_finish_error htake
      intro ahead
      rw [Goal.finish, resolveName_eq, hlookup]

def Use.Accepts (ty : Ty) : Use → Prop
  | discard => True
  | assign _ declared _ => declared = ty

theorem run_expression_answers (goals : List Goal) (scopes : Scope.Stack) (last : Position)
    (use : Use) (expression : Expression) {token : Token}
    (hends : Expression.EndsExpression token) (rest : List Token) :
    (run (.expression .start use :: goals) scopes last
        (expression.tokens ++ token :: rest)).Answers
      (∃ ty, expression.type? scopes.current.entries = some ty ∧ use.Accepts ty)
      (run goals scopes (lastPlace last expression.tokens) (token :: rest)) := by
  rw [run_expression]
  rcases Expression.read_expression scopes expression last hends rest with
    ⟨ty, htype, hread⟩ | ⟨fault, htype, hkind, hread⟩
  · rw [hread]
    cases use with
    | discard => exact .of_valid (by simp [htype, Use.Accepts]) rfl
    | assign target declared sign =>
        by_cases hsame : declared = ty
        · apply Outcome.Answers.of_valid (by simp [htype, Use.Accepts, hsame])
          simp [afterReading, Use.check, hsame]
        · refine ⟨fun h => ?_, fun _ => ⟨.assignment target declared ty sign, ?_, ?_⟩⟩
          · simp [htype, Use.Accepts, hsame] at h
          · simp [afterReading, Use.check, hsame]
          · simp [Fault.kind]
  · refine ⟨fun h => by simp [htype] at h, fun _ => ⟨fault, ?_, hkind⟩⟩
    simp [afterReading, hread]

end Classlet.Analysis
