import Classlet.Proofs.Analysis.Step
import Classlet.Proofs.Analysis.Steps

/-!
# Goals of a method

What a method asks for, between entering and leaving it, is met in its own scope:
outer scopes and the global table are not consulted and stay as they are, and the
scope itself only grows at its end.  So the course of a run over such goals is the
same over every outer stack.
-/

namespace Classlet

namespace Scope.Stack

/-- The stack with one more scope, the innermost, which holds `table`. -/
def opened (outer : Stack) (table : Table) : Stack :=
  { outer with locals := table :: outer.locals }

@[simp] theorem current_opened (outer : Stack) (table : Table) :
    (outer.opened table).current = table := rfl

@[simp] theorem extend_opened (outer : Stack) (table : Table)
    (bindings : List (String × Ty)) :
    (outer.opened table).extend bindings = outer.opened ⟨table.entries ++ bindings⟩ := rfl

/-- What is in view is the same over any other outer stack. -/
theorem current_opened_of_eq {scopes outer : Stack} {table : Table}
    (h : scopes = outer.opened table) (other : Stack) :
    (other.opened table).current = scopes.current := by
  rw [h]
  rfl

end Scope.Stack

/-! ## What taking a token reads -/

section Current

variable {scopes other : Scope.Stack} (hcurrent : scopes.current = other.current)

include hcurrent

theorem Scope.Stack.lookup_congr (name : String) :
    scopes.lookup name = other.lookup name := by
  unfold Scope.Stack.lookup
  rw [hcurrent]

theorem Expression.State.take?_congr (state : State) (token : Token) :
    state.take? scopes token = state.take? other token := by
  cases state with
  | operand frames =>
      simp only [take?, operandType?, Scope.Stack.lookup_congr hcurrent]
  | operator frames ty => rfl

/-- Only the innermost table is consulted when a token is taken. -/
theorem Analysis.Goal.take?_congr (goal : Goal) (token : Token) :
    goal.take? scopes token = goal.take? other token := by
  cases goal with
  | target name => simp only [take?, Scope.Stack.lookup_congr hcurrent]
  | expression state use =>
      simp only [take?, Expression.State.take?_congr hcurrent]
  | _ => rfl

end Current

namespace Analysis

open Grammar (Bindings)

/-! ## Local goals -/

/--
The goals that a parameter list, a statement or an expression gives rise to.  None
of them asks for an access modifier or for a class.
-/
def Goal.Local : Goal → Prop
  | expect kind => kind.isAccess = false ∧ kind ≠ .word .classWord
  | firstParameter | parameterType | parameterName _ | moreParameters => True
  | statements _ | variableName _ | initializer _ _ | moreVariables _ => True
  | targetName | target _ | assign _ _ | moreTargets => True
  | counterType | counterName _ | stepName | stepOperator | elementType => True
  | declare _ _ | known _ | expression _ _ => True
  | program | namespaceName | className | classes _ | members _ => False
  | memberType | memberName _ | field _ _ | memberRest _ => False
  | enter _ | leave _ => False

section Local

variable {goal : Goal} {next : List Goal} {token : Token} {ahead : Lookahead}
variable {scopes : Scope.Stack}

theorem Goal.local_of_statement? (h : Goal.statement? token = some next) :
    ∀ later ∈ next, later.Local := by
  unfold Goal.statement? at h
  split at h <;> cases h <;>
    simp [Goal.condition, Goal.body, Goal.forHeader, Goal.foreachHeader, Goal.word,
      Goal.value, Goal.Local, Kind.isAccess]

theorem Goal.local_of_take (hlocal : goal.Local)
    (h : goal.take? scopes token = .ok (some next)) : ∀ later ∈ next, later.Local := by
  cases goal with
  | expect | parameterName | variableName | initializer | targetName | assign | counterName
  | stepName | stepOperator =>
      simp only [take?, Except.ok.injEq, Option.ite_none_right_eq_some, Option.some.injEq] at h
      obtain ⟨_, rfl⟩ := h
      simp [Local]
  | parameterType | counterType | elementType =>
      simp only [take?, Except.ok.injEq, Option.map_eq_some_iff] at h
      obtain ⟨ty, _, rfl⟩ := h
      simp [Local]
  | firstParameter | moreParameters | moreVariables | moreTargets =>
      simp only [take?, Except.ok.injEq] at h
      split at h <;> cases h <;> simp [Local]
  | statements afterIf =>
      simp only [take?, Except.ok.injEq] at h
      split at h
      · cases h
        simp
      · cases h
        simp [Local]
      · simp only [Option.ite_none_right_eq_some, Option.some.injEq] at h
        obtain ⟨_, rfl⟩ := h
        simp [body, Local, Kind.isAccess]
      · exact local_of_statement? h
  | target name =>
      simp only [take?] at h
      split at h
      · cases h
      · simp only [Except.ok.injEq, Option.ite_none_right_eq_some, Option.some.injEq] at h
        obtain ⟨_, rfl⟩ := h
        simp [Local]
  | expression state use =>
      simp only [take?] at h
      split at h
      · simp only [Except.ok.injEq, Option.map_eq_some_iff] at h
        obtain ⟨later, _, rfl⟩ := h
        simp [Local]
      · cases h
  | declare | known => cases h
  | _ => exact hlocal.elim

/-- Finishing a local goal does nothing but bind names in the innermost scope. -/
theorem Goal.finish_opened (hlocal : goal.Local) (table : Scope.Table) (ahead : Lookahead) :
    ∃ added : Except Fault Bindings, ∀ outer : Scope.Stack,
      goal.finish (outer.opened table) ahead =
        added.map fun bindings => outer.opened ⟨table.entries ++ bindings⟩ := by
  cases goal with
  | declare ty name =>
      cases hlookup : table.entries.lookup name.lexeme with
      | none =>
          refine ⟨.ok [(name.lexeme, ty)], fun outer => ?_⟩
          simp [finish, bindName_eq, hlookup, Except.map]
      | some previous =>
          refine ⟨.error (.duplicate name previous), fun outer => ?_⟩
          simp [finish, bindName_eq, hlookup, Except.map]
  | known name =>
      cases hlookup : table.entries.lookup name.lexeme with
      | none =>
          refine ⟨.error (.undeclared name), fun outer => ?_⟩
          simp [finish, resolveName_eq, hlookup, Except.map]
      | some ty =>
          refine ⟨.ok [], fun outer => ?_⟩
          simp [finish, resolveName_eq, hlookup, Except.map]
  | target name =>
      cases hlookup : table.entries.lookup name.lexeme with
      | none =>
          refine ⟨.error (.undeclared name), fun outer => ?_⟩
          simp [finish, resolveName_eq, hlookup, Except.map]
      | some ty =>
          refine ⟨.error (.unexpected (.kind .assign) ahead), fun outer => ?_⟩
          simp [finish, resolveName_eq, hlookup, Except.map]
  | expression state use =>
      cases hstate : state.finish ahead with
      | error fault => exact ⟨.error fault, fun outer => by simp [finish, hstate, Except.map]⟩
      | ok ty =>
          cases hcheck : use.check ty with
          | error fault =>
              exact ⟨.error fault, fun outer => by simp [finish, hstate, hcheck, Except.map]⟩
          | ok _ => exact ⟨.ok [], fun outer => by simp [finish, hstate, hcheck, Except.map]⟩
  | initializer ty name => exact ⟨.ok [], fun outer => by simp [finish, Except.map]⟩
  | expect | firstParameter | parameterType | parameterName | moreParameters | statements
  | variableName | moreVariables | targetName | assign | moreTargets | counterType
  | counterName | stepName | stepOperator | elementType =>
      exact ⟨.error _, fun outer => rfl⟩
  | _ => exact hlocal.elim

end Local

/-! ## Runs over local goals -/

def LocalGoals (goals : List Goal) : Prop :=
  ∀ goal ∈ goals, goal.Local

theorem localGoals_method : LocalGoals (.firstParameter :: Goal.body) := by
  simp [LocalGoals, Goal.body, Goal.Local, Kind.isAccess]

/-- The same configuration over another stack of scopes. -/
def Config.over (config : Config) (scopes : Scope.Stack) : Config :=
  { config with scopes := scopes }

theorem Goal.Passes.over {goal : Goal} {config : Config} {scopes : Scope.Stack}
    (h : goal.Passes config) (hcurrent : scopes.current = config.scopes.current) :
    goal.Passes (config.over scopes) := by
  intro token htoken
  rw [← h token htoken]
  exact goal.take?_congr hcurrent token

section Runs

variable {before after config : Config} {outer : Scope.Stack} {table : Scope.Table}
variable {outcome : Outcome}

/-- The step lemma: a step over local goals binds some names in the innermost scope. -/
theorem Step.opened (h : Step before after) (hlocal : LocalGoals before.goals)
    (hscopes : before.scopes = outer.opened table) :
    LocalGoals after.goals ∧ ∃ added : Bindings,
      after.scopes = outer.opened ⟨table.entries ++ added⟩ ∧
      ∀ other : Scope.Stack, Step (before.over (other.opened table))
        (after.over (other.opened ⟨table.entries ++ added⟩)) := by
  cases h with
  | @take goal goals next scopes last token rest h =>
      obtain ⟨hgoal, hgoals⟩ := List.forall_mem_cons.mp hlocal
      refine ⟨?_, [], ?_, fun other => ?_⟩
      · exact List.forall_mem_append.mpr ⟨Goal.local_of_take hgoal h, hgoals⟩
      · rw [List.append_nil]
        exact hscopes
      · rw [List.append_nil]
        refine .take ?_
        rw [← h]
        exact goal.take?_congr (Scope.Stack.current_opened_of_eq hscopes other) token
  | finish hgoals hpasses h =>
      rename_i goal goals finished
      rw [LocalGoals, hgoals, List.forall_mem_cons] at hlocal
      obtain ⟨hgoal, hlater⟩ := hlocal
      obtain ⟨added, hadded⟩ := Goal.finish_opened hgoal table before.ahead
      rw [hscopes, hadded outer] at h
      cases added with
      | error fault => cases h
      | ok bindings =>
          cases h
          refine ⟨hlater, bindings, rfl, fun other => ?_⟩
          have hpasses := hpasses.over (Scope.Stack.current_opened_of_eq hscopes other)
          exact .finish hgoals hpasses (hadded other)

theorem Config.Ends.opened (h : config.Ends outcome) (hlocal : LocalGoals config.goals)
    (hscopes : config.scopes = outer.opened table) :
    outcome.scopes = outer.opened table ∧
      ∀ other : Scope.Stack, (config.over (other.opened table)).Ends
        { outcome with scopes := other.opened table } := by
  cases h with
  | met hgoals => exact ⟨hscopes, fun other => .met hgoals⟩
  | @refuse goal goals token rest fault hgoals hrest h =>
      refine ⟨hscopes, fun other => .refuse hgoals hrest ?_⟩
      rw [← h]
      exact goal.take?_congr (Scope.Stack.current_opened_of_eq hscopes other) token
  | @fail goal goals fault hgoals hpasses h =>
      rw [LocalGoals, hgoals, List.forall_mem_cons] at hlocal
      obtain ⟨added, hadded⟩ := Goal.finish_opened hlocal.1 table config.ahead
      rw [hscopes, hadded outer] at h
      cases added with
      | ok bindings => cases h
      | error shown =>
          cases h
          refine ⟨hscopes, fun other => ?_⟩
          have hpasses := hpasses.over (Scope.Stack.current_opened_of_eq hscopes other)
          exact .fail hgoals hpasses (hadded other)

theorem Steps.opened (h : Steps before after) (hlocal : LocalGoals before.goals)
    (hscopes : before.scopes = outer.opened table) :
    LocalGoals after.goals ∧ ∃ added : Bindings,
      after.scopes = outer.opened ⟨table.entries ++ added⟩ ∧
      ∀ other : Scope.Stack, Steps (before.over (other.opened table))
        (after.over (other.opened ⟨table.entries ++ added⟩)) := by
  induction h generalizing table with
  | refl config =>
      refine ⟨hlocal, [], ?_, fun other => ?_⟩
      · rw [List.append_nil]
        exact hscopes
      · rw [List.append_nil]
        exact .refl _
  | next first _ ih =>
      obtain ⟨hlocal, front, hscopes, hfirst⟩ := first.opened hlocal hscopes
      obtain ⟨hlocal, back, hscopes, hmore⟩ := ih hlocal hscopes
      simp only [List.append_assoc] at hscopes hmore
      exact ⟨hlocal, front ++ back, hscopes, fun other => .next (hfirst other) (hmore other)⟩

end Runs

/--
A run over local goals adds some bindings at the end of the innermost scope, and
what it adds, how it ends and where it stops is the same over every outer stack.
-/
theorem exists_run_opened {goals : List Goal} (hlocal : LocalGoals goals)
    (table : Scope.Table) (last : Position) (tokens : List Token) :
    ∃ (fault? : Option Fault) (added : Bindings) (stop : Position) (rest : List Token),
      ∀ outer : Scope.Stack, run goals (outer.opened table) last tokens =
        ⟨fault?, outer.opened ⟨table.entries ++ added⟩, stop, rest⟩ := by
  obtain ⟨final, hsteps, hends⟩ :=
    Config.exists_steps ⟨goals, Scope.Stack.empty.opened table, last, tokens⟩
  obtain ⟨hfinal, added, hscopes, hover⟩ := hsteps.opened hlocal rfl
  obtain ⟨_, hends⟩ := hends.opened hfinal hscopes
  let outcome := run goals (Scope.Stack.empty.opened table) last tokens
  refine ⟨outcome.fault?, added, outcome.last, outcome.rest, fun outer => ?_⟩
  have hrun := (hover outer).outcome_eq
  rw [(hends outer).outcome_eq] at hrun
  exact hrun

end Analysis

end Classlet
