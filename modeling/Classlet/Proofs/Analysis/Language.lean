import Classlet.Analysis.Run
import Classlet.Proofs.Grammar.Program
import Classlet.Proofs.Grammar.Remainder

/-!
# Languages of goals

Each goal stands for the token lists that would meet it, typed or not: its
language, given by the trees of the grammar.  A list of goals stands for the
lists that meet them in turn.

A step of a run is sound for these languages.  If a goal takes a token and is
replaced, the token in front of what meets its replacement meets the goal; if a
goal is finished, the empty list meets it.  Every goal can be met somehow, so a
run never waits for the impossible.
-/

namespace Classlet.Expression

open Grammar

/-! ## Languages of states -/

def groups : List Frame → Nat
  | [] => 0
  | .operation _ _ _ :: frames => groups frames
  | .group :: frames => groups frames + 1

theorem groups_reduce {level : Nat} {frames reached : List Frame} {ty result : Ty}
    (h : reduce level frames ty = .ok (reached, result)) : groups reached = groups frames := by
  induction frames generalizing ty with
  | nil =>
      cases h
      rfl
  | cons frame frames ih =>
      cases frame with
      | group =>
          cases h
          rfl
      | operation left operator sign =>
          rw [reduce] at h
          split at h
          · split at h
            · exact ih h
            · cases h
          · cases h
            rfl

/-- The tokens that end an expression which has been read up to a state. -/
def State.Admits : State → List Token → Prop
  | operand frames => Wanting (Closing (groups frames))
  | operator frames _ => Resuming (Closing (groups frames))

theorem admits_of_operandType? {scopes : Scope.Stack} {token : Token} {ty : Ty}
    (h : operandType? scopes token = .ok (some ty)) {ends : List Token → Prop}
    {tokens : List Token} (htokens : Resuming ends tokens) : Wanting ends (token :: tokens) := by
  unfold operandType? at h
  split at h
  · rename_i hkind
    exact .factor [token] (.name ⟨token, hkind⟩) (fun _ => rfl) htokens
  · rename_i hkind
    exact .factor [token] (.number ⟨token, hkind⟩) (fun _ => rfl) htokens
  · rename_i hkind
    exact .factor [token] (.text ⟨token, hkind⟩) (fun _ => rfl) htokens
  · cases h

theorem State.admits_of_take {scopes : Scope.Stack} {token : Token} {state next : State}
    (h : state.take? scopes token = .ok (some next)) {tokens : List Token}
    (htokens : next.Admits tokens) : state.Admits (token :: tokens) := by
  cases state with
  | operand frames =>
      simp only [take?] at h
      split at h
      · rename_i hkind
        cases h
        exact htokens.opening ⟨token, hkind⟩
      · split at h
        · rename_i ty? htype
          cases ty? with
          | none => cases h
          | some ty =>
              cases h
              exact admits_of_operandType? htype htokens
        · cases h
  | operator frames ty =>
      simp only [take?] at h
      split at h
      · rename_i style hkind
        split at h
        · rename_i hreduce
          cases h
          rw [Admits, groups_reduce hreduce] at htokens
          exact htokens.comment ⟨style, token, hkind⟩
        · cases h
      · rename_i operator hkind
        split at h
        · rename_i hreduce
          cases h
          rw [Admits, groups, groups_reduce hreduce] at htokens
          exact .operator ⟨operator, token, hkind⟩ htokens
        · cases h
      · rename_i hkind
        split at h
        · rename_i hreduce
          cases h
          have hgroups := groups_reduce hreduce
          rw [groups] at hgroups
          rw [Admits, ← hgroups]
          exact .finish ⟨⟨token, hkind⟩, tokens, rfl, htokens⟩
        · cases h
        · cases h
      · cases h

theorem State.admits_of_finish {state : State} {ahead : Lookahead} {ty : Ty}
    (h : state.finish ahead = .ok ty) : state.Admits [] := by
  cases state with
  | operand frames => cases h
  | operator frames ty =>
      simp only [finish] at h
      split at h
      · rename_i hreduce
        rw [Admits, ← groups_reduce hreduce]
        exact .finish rfl
      · cases h
      · cases h

theorem State.exists_admits (state : State) : ∃ tokens, state.Admits tokens := by
  cases state with
  | operator frames ty =>
      obtain ⟨tokens, htokens⟩ := exists_closing (groups frames)
      exact ⟨tokens, .finish htokens⟩
  | operand frames =>
      obtain ⟨tokens, htokens⟩ := exists_closing (groups frames)
      -- Any operand would do.
      let name : Leaf .identifier := .blank .identifier
      exact ⟨[name.token] ++ tokens,
        .factor [name.token] (.name name) (fun _ => rfl) (.finish htokens)⟩

end Classlet.Expression

namespace Classlet.Analysis

open Grammar

/-! ## Languages of goals -/

/-- More parts, each behind a comma, and the token that closes them. -/
def SeparatedTail {Part : Type} (tokensOf : Part → List Token) (closing : Kind)
    (tokens : List Token) : Prop :=
  ∃ (more : List (Leaf .comma × Part)) (last : Leaf closing),
    tokens = Separated.tokensOfMore tokensOf more ++ [last.token]

/-- The tokens that meet a goal. -/
def Goal.Admits : Goal → List Token → Prop
  | program, tokens => Sentence tokens
  | expect kind, tokens => ∃ leaf : Leaf kind, tokens = [leaf.token]
  | namespaceName, tokens | className, tokens | stepName, tokens =>
      ∃ name : Leaf .identifier, tokens = [name.token]
  | classes closable, tokens =>
      ∃ (classes : List ClassDeclaration) (closing : Leaf .rightBrace),
        (closable = false → classes ≠ []) ∧
        tokens = classes.flatMap ClassDeclaration.tokens ++ [closing.token]
  | members closable, tokens =>
      ∃ (members : List Member) (closing : Leaf .rightBrace),
        (closable = false → members ≠ []) ∧
        tokens = members.flatMap Member.tokens ++ [closing.token]
  | memberType, tokens =>
      ∃ (type : Mark Kind.type) (name : Leaf .identifier) (rest : MemberRest),
        tokens = type.token :: name.token :: rest.tokens
  | memberName _, tokens =>
      ∃ (name : Leaf .identifier) (rest : MemberRest), tokens = name.token :: rest.tokens
  | memberRest _, tokens => ∃ rest : MemberRest, tokens = rest.tokens
  | firstParameter, tokens =>
      ∃ (parameters? : Option (Separated Parameter)) (closing : Leaf .rightParen),
        tokens = Method.tokensOfParameters parameters? ++ [closing.token]
  | parameterType, tokens => ∃ parameter : Parameter, tokens = parameter.tokens
  | parameterName _, tokens => ∃ name : Leaf .identifier, tokens = [name.token]
  | moreParameters, tokens => SeparatedTail Parameter.tokens .rightParen tokens
  | statements afterIf, tokens =>
      (∃ block : Block, tokens = block.tokens) ∨
      afterIf = true ∧ ∃ (otherwise : Leaf (.word .elseWord)) (opening : Leaf .leftBrace)
        (other block : Block),
        tokens = otherwise.token :: opening.token :: (other.tokens ++ block.tokens)
  | variableName _, tokens =>
      ∃ (parts : Separated Declarator) (closing : Leaf .semicolon),
        tokens = parts.tokens Declarator.tokens ++ [closing.token]
  | initializer _ _, tokens =>
      ∃ initial? : Option (Leaf .assign × Expression),
        tokens = Declarator.tokensOfInitial initial?
  | moreVariables _, tokens => SeparatedTail Declarator.tokens .semicolon tokens
  | targetName, tokens => ∃ assignment : Assignment, tokens = assignment.tokens
  | target _, tokens | assign _ _, tokens =>
      ∃ (sign : Leaf .assign) (value : Expression), tokens = sign.token :: value.tokens
  | moreTargets, tokens => SeparatedTail Assignment.tokens .semicolon tokens
  | counterType, tokens =>
      ∃ (type : Mark Kind.type) (name : Leaf .identifier) (sign : Leaf .assign)
        (value : Expression),
        tokens = type.token :: name.token :: sign.token :: value.tokens
  | counterName _, tokens =>
      ∃ (name : Leaf .identifier) (sign : Leaf .assign) (value : Expression),
        tokens = name.token :: sign.token :: value.tokens
  | stepOperator, tokens => ∃ step : Mark Kind.step, tokens = [step.token]
  | elementType, tokens => ∃ type : Mark Kind.type, tokens = [type.token]
  | expression state _, tokens => state.Admits tokens
  | field _ _, tokens | enter _, tokens | leave _, tokens | declare _ _, tokens
  | known _, tokens => tokens = []

/-- The tokens that meet some goals in turn. -/
def AdmitsAll : List Goal → List Token → Prop
  | [], tokens => tokens = []
  | goal :: goals, tokens => ∃ front back,
      tokens = front ++ back ∧ goal.Admits front ∧ AdmitsAll goals back

section Lists

variable {goals more : List Goal} {tokens : List Token}

@[simp] theorem admitsAll_nil : AdmitsAll [] tokens ↔ tokens = [] := Iff.rfl

theorem admitsAll_singleton {goal : Goal} :
    AdmitsAll [goal] tokens ↔ goal.Admits tokens := by
  constructor
  · rintro ⟨front, back, rfl, hgoal, rfl⟩
    simpa using hgoal
  · intro hgoal
    exact ⟨tokens, [], by simp, hgoal, rfl⟩

theorem admitsAll_append :
    AdmitsAll (goals ++ more) tokens ↔
      ∃ front back, tokens = front ++ back ∧ AdmitsAll goals front ∧ AdmitsAll more back := by
  induction goals generalizing tokens with
  | nil =>
      constructor
      · intro hmore
        exact ⟨[], tokens, rfl, rfl, hmore⟩
      · rintro ⟨_, back, rfl, rfl, hmore⟩
        exact hmore
  | cons goal goals ih =>
      constructor
      · rintro ⟨front, back, rfl, hgoal, hback⟩
        obtain ⟨middle, rest, rfl, hmiddle, hrest⟩ := ih.mp hback
        exact ⟨front ++ middle, rest, by simp, ⟨front, middle, rfl, hgoal, hmiddle⟩, hrest⟩
      · rintro ⟨_, rest, rfl, ⟨front, middle, rfl, hgoal, hmiddle⟩, hrest⟩
        exact ⟨front, middle ++ rest, by simp, hgoal, ih.mpr ⟨middle, rest, rfl, hmiddle, hrest⟩⟩

theorem admitsAll_cons_of_admits_nil {goal : Goal} (hgoal : goal.Admits [])
    (h : AdmitsAll goals tokens) : AdmitsAll (goal :: goals) tokens :=
  ⟨[], tokens, rfl, hgoal, h⟩

@[simp] theorem admitsAll_expect {kind : Kind} :
    AdmitsAll (.expect kind :: goals) tokens ↔
      ∃ (leaf : Leaf kind) (back : List Token),
        tokens = leaf.token :: back ∧ AdmitsAll goals back := by
  constructor
  · rintro ⟨_, back, rfl, ⟨leaf, rfl⟩, hback⟩
    exact ⟨leaf, back, rfl, hback⟩
  · rintro ⟨leaf, back, rfl, hback⟩
    exact ⟨[leaf.token], back, rfl, ⟨leaf, rfl⟩, hback⟩

@[simp] theorem admitsAll_start {use : Use} :
    AdmitsAll (.expression .start use :: goals) tokens ↔
      ∃ (value : Expression) (back : List Token),
        tokens = value.tokens ++ back ∧ AdmitsAll goals back := by
  constructor
  · rintro ⟨_, back, rfl, hvalue, hback⟩
    obtain ⟨value, rfl⟩ := wanting_closing_zero.mp hvalue
    exact ⟨value, back, rfl, hback⟩
  · rintro ⟨value, back, rfl, hback⟩
    exact ⟨value.tokens, back, rfl, wanting_closing_zero.mpr ⟨value, rfl⟩, hback⟩

@[simp] theorem admitsAll_statements_false :
    AdmitsAll (.statements false :: goals) tokens ↔
      ∃ (block : Block) (back : List Token),
        tokens = block.tokens ++ back ∧ AdmitsAll goals back := by
  constructor
  · rintro ⟨_, back, rfl, ⟨block, rfl⟩ | ⟨hfalse, _⟩, hback⟩
    · exact ⟨block, back, rfl, hback⟩
    · cases hfalse
  · rintro ⟨block, back, rfl, hback⟩
    exact ⟨block.tokens, back, rfl, .inl ⟨block, rfl⟩, hback⟩

@[simp] theorem admitsAll_condition :
    AdmitsAll (Goal.condition ++ goals) tokens ↔
      ∃ (condition : Condition) (back : List Token),
        tokens = condition.tokens ++ back ∧ AdmitsAll goals back := by
  simp only [Goal.condition, Goal.value, List.cons_append, List.nil_append, admitsAll_expect,
    admitsAll_start]
  constructor
  · rintro ⟨opening, _, rfl, value, _, rfl, closing, back, rfl, hback⟩
    exact ⟨⟨opening, value, closing⟩, back, by simp [Condition.tokens], hback⟩
  · rintro ⟨⟨opening, value, closing⟩, back, rfl, hback⟩
    exact ⟨opening, _, by simp [Condition.tokens], value, _, rfl, closing, back, rfl, hback⟩

@[simp] theorem admitsAll_body :
    AdmitsAll (Goal.body ++ goals) tokens ↔
      ∃ (opening : Leaf .leftBrace) (block : Block) (back : List Token),
        tokens = opening.token :: (block.tokens ++ back) ∧ AdmitsAll goals back := by
  simp only [Goal.body, List.cons_append, List.nil_append, admitsAll_expect,
    admitsAll_statements_false]
  constructor
  · rintro ⟨opening, _, rfl, block, back, rfl, hback⟩
    exact ⟨opening, block, back, rfl, hback⟩
  · rintro ⟨opening, block, back, rfl, hback⟩
    exact ⟨opening, _, rfl, block, back, rfl, hback⟩

end Lists

end Classlet.Analysis
