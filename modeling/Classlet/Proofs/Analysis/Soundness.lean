import Classlet.Proofs.Analysis.Language

/-!
# Sound steps

The steps of a run against the languages of the goals, one case for each goal.
-/

namespace Classlet.Analysis

open Grammar

section Take

variable {scopes : Scope.Stack} {token : Token} {goal : Goal} {next : List Goal}
variable {tokens : List Token}

/-! ## Statements -/

theorem exists_conditional (word : Leaf (.word .ifWord)) (condition : Condition)
    (opening : Leaf .leftBrace) (body : Block) (h : (Goal.statements true).Admits tokens) :
    ∃ (statement : Statement) (rest : Block), statement.tokens ++ rest.tokens =
      word.token :: (condition.tokens ++ opening.token :: (body.tokens ++ tokens)) := by
  rcases h with ⟨rest, rfl⟩ | ⟨_, otherwise, opening', other, rest, rfl⟩
  · refine ⟨.conditional word condition opening body, rest, ?_⟩
    simp [Statement.tokens]
  · refine ⟨.alternative word condition opening body otherwise opening' other, rest, ?_⟩
    simp [Statement.tokens]

theorem exists_forHeader (word : Leaf (.word .forWord)) {goals : List Goal}
    (h : AdmitsAll (Goal.forHeader ++ goals) tokens) :
    ∃ (header : ForHeader) (back : List Token),
      header.tokens ++ back = word.token :: tokens ∧ AdmitsAll goals back := by
  simp only [Goal.forHeader, Goal.value, List.cons_append, List.nil_append,
    admitsAll_expect] at h
  obtain ⟨opening, _, rfl, _, _, rfl, ⟨type, name, sign, initial, rfl⟩, h⟩ := h
  simp only [admitsAll_expect, admitsAll_start] at h
  obtain ⟨afterInitial, _, rfl, condition, _, rfl, afterCondition, _, rfl, h⟩ := h
  obtain ⟨_, _, rfl, ⟨counter, rfl⟩, _, _, rfl, ⟨step, rfl⟩, h⟩ := h
  simp only [admitsAll_expect] at h
  obtain ⟨amount, _, rfl, closing, back, rfl, hback⟩ := h
  refine ⟨⟨word, opening, type, name, sign, initial, afterInitial, condition, afterCondition,
    counter, step, amount, closing⟩, back, ?_, hback⟩
  simp [ForHeader.tokens]

theorem exists_foreachHeader (word : Leaf (.word .foreachWord)) {goals : List Goal}
    (h : AdmitsAll (Goal.foreachHeader ++ goals) tokens) :
    ∃ (header : ForeachHeader) (back : List Token),
      header.tokens ++ back = word.token :: tokens ∧ AdmitsAll goals back := by
  simp only [Goal.foreachHeader, Goal.value, Goal.word, List.cons_append, List.nil_append,
    admitsAll_expect] at h
  obtain ⟨opening, _, rfl, _, _, rfl, ⟨type, rfl⟩, h⟩ := h
  simp only [admitsAll_expect, admitsAll_start] at h
  obtain ⟨name, _, rfl, inside, _, rfl, collection, _, rfl, closing, back, rfl, hback⟩ := h
  refine ⟨⟨word, opening, type, name, inside, collection, closing⟩, back, ?_, hback⟩
  simp [ForeachHeader.tokens]

theorem exists_block_of_statement? (h : Goal.statement? token = some next)
    (htokens : AdmitsAll next tokens) : ∃ block : Block, block.tokens = token :: tokens := by
  -- In each case a statement and the block behind it are found in what follows.
  suffices hparts : ∃ (statement : Statement) (rest : Block),
      statement.tokens ++ rest.tokens = token :: tokens by
    obtain ⟨statement, rest, hparts⟩ := hparts
    exact ⟨.next [] statement rest, by simpa [Block.tokens] using hparts⟩
  unfold Goal.statement? at h
  cases hkind : token.kind with
  | identifier =>
      simp only [hkind, Option.some.injEq] at h
      subst h
      obtain ⟨_, _, rfl, ⟨sign, value, rfl⟩, _, _, rfl, ⟨more, closing, rfl⟩, hback⟩ :=
        htokens
      obtain ⟨rest, _, rfl, rfl⟩ := admitsAll_statements_false.mp hback
      refine ⟨.assignments ⟨⟨⟨token, hkind⟩, sign, value⟩, more⟩ closing, rest, ?_⟩
      simp [Statement.tokens, Separated.tokens, Assignment.tokens]
  | type ty =>
      simp only [hkind, Option.some.injEq] at h
      subst h
      obtain ⟨_, _, rfl, ⟨parts, closing, rfl⟩, hback⟩ := htokens
      obtain ⟨rest, _, rfl, rfl⟩ := admitsAll_statements_false.mp hback
      refine ⟨.variables ⟨ty, token, hkind⟩ parts closing, rest, ?_⟩
      simp [Statement.tokens]
  | word reserved =>
      cases reserved <;> simp only [hkind, Option.some.injEq, reduceCtorEq] at h <;> subst h
      case ifWord =>
        simp only [List.append_assoc, admitsAll_condition, admitsAll_body, admitsAll_singleton]
          at htokens
        obtain ⟨condition, _, rfl, opening, body, back, rfl, hback⟩ := htokens
        exact exists_conditional ⟨token, hkind⟩ condition opening body hback
      case whileWord =>
        simp only [List.append_assoc, admitsAll_condition, admitsAll_body,
          admitsAll_statements_false, admitsAll_nil] at htokens
        obtain ⟨condition, _, rfl, opening, body, _, rfl, rest, _, rfl, rfl⟩ := htokens
        refine ⟨.whileLoop ⟨token, hkind⟩ condition opening body, rest, ?_⟩
        simp [Statement.tokens]
      case forWord =>
        rw [List.append_assoc] at htokens
        obtain ⟨header, back, hheader, hback⟩ := exists_forHeader ⟨token, hkind⟩ htokens
        simp only [admitsAll_body, admitsAll_statements_false, admitsAll_nil] at hback
        obtain ⟨opening, body, _, rfl, rest, _, rfl, rfl⟩ := hback
        refine ⟨.forLoop header opening body, rest, ?_⟩
        simpa [Statement.tokens] using hheader
      case doWord =>
        simp only [List.append_assoc, List.cons_append, List.nil_append, Goal.word,
          admitsAll_expect, admitsAll_condition, admitsAll_body, admitsAll_statements_false,
          admitsAll_nil] at htokens
        obtain ⟨opening, body, _, rfl, word, _, rfl, condition, _, rfl, closing, _, rfl, rest,
          _, rfl, rfl⟩ := htokens
        refine ⟨.doLoop ⟨token, hkind⟩ opening body word condition closing, rest, ?_⟩
        simp [Statement.tokens]
      case foreachWord =>
        rw [List.append_assoc] at htokens
        obtain ⟨header, back, hheader, hback⟩ := exists_foreachHeader ⟨token, hkind⟩ htokens
        simp only [admitsAll_body, admitsAll_statements_false, admitsAll_nil] at hback
        obtain ⟨opening, body, _, rfl, rest, _, rfl, rfl⟩ := hback
        refine ⟨.foreachLoop header opening body, rest, ?_⟩
        simpa [Statement.tokens] using hheader
  | _ => simp [hkind] at h

theorem admits_of_take_statements {afterIf : Bool}
    (h : (Goal.statements afterIf).take? scopes token = .ok (some next))
    (htokens : AdmitsAll next tokens) :
    (Goal.statements afterIf).Admits (token :: tokens) := by
  simp only [Goal.take?, Except.ok.injEq] at h
  split at h
  · rename_i hkind
    cases h
    obtain rfl := admitsAll_nil.mp htokens
    exact .inl ⟨.done [] ⟨token, hkind⟩, rfl⟩
  · rename_i style hkind
    cases h
    obtain ⟨block, _, rfl, rfl⟩ := admitsAll_statements_false.mp htokens
    rw [List.append_nil]
    let comment : Mark Kind.comment := ⟨style, token, hkind⟩
    cases block with
    | done before closing => exact .inl ⟨.done (comment :: before) closing, rfl⟩
    | next before statement rest => exact .inl ⟨.next (comment :: before) statement rest, rfl⟩
  · rename_i hkind
    split at h
    · rename_i hafterIf
      cases h
      simp only [admitsAll_body, admitsAll_statements_false, admitsAll_nil] at htokens
      obtain ⟨opening, other, _, rfl, block, _, rfl, rfl⟩ := htokens
      exact .inr ⟨hafterIf, ⟨token, hkind⟩, opening, other, block, by simp⟩
    · cases h
  · obtain ⟨block, hblock⟩ := exists_block_of_statement? h htokens
    exact .inl ⟨block, hblock.symm⟩

/-! ## Classes and programs -/

theorem admits_of_take_program (h : Goal.program.take? scopes token = .ok (some next))
    (htokens : AdmitsAll next tokens) : Goal.program.Admits (token :: tokens) := by
  simp only [Goal.take?, Except.ok.injEq] at h
  cases hkind : token.kind with
  | word reserved =>
      cases reserved <;> simp only [hkind, Option.some.injEq, reduceCtorEq] at h <;> subst h
      case namespaceWord =>
        obtain ⟨_, _, rfl, ⟨name, rfl⟩, htokens⟩ := htokens
        rw [admitsAll_expect] at htokens
        obtain ⟨opening, _, rfl, _, _, rfl, ⟨classes, closing, _, rfl⟩, hback⟩ := htokens
        obtain ⟨⟨declarations⟩, rfl⟩ := admitsAll_singleton.mp hback
        refine ⟨⟨.ofNamespace ⟨token, hkind⟩ name opening classes closing :: declarations⟩, ?_⟩
        simp [Program.tokens, Declaration.tokens]
      case usingWord =>
        simp only [admitsAll_expect, admitsAll_singleton] at htokens
        obtain ⟨name, _, rfl, closing, _, rfl, ⟨declarations⟩, rfl⟩ := htokens
        refine ⟨⟨.ofUsing ⟨token, hkind⟩ name closing :: declarations⟩, ?_⟩
        simp [Program.tokens, Declaration.tokens]
  | _ => simp [hkind] at h

theorem admits_of_take_classes {closable : Bool}
    (h : (Goal.classes closable).take? scopes token = .ok (some next))
    (htokens : AdmitsAll next tokens) : (Goal.classes closable).Admits (token :: tokens) := by
  simp only [Goal.take?, Except.ok.injEq] at h
  cases hkind : token.kind with
  | rightBrace =>
      simp only [hkind, Option.ite_none_right_eq_some, Option.some.injEq] at h
      obtain ⟨hclosable, rfl⟩ := h
      obtain rfl := admitsAll_nil.mp htokens
      exact ⟨[], ⟨token, hkind⟩, by simp [hclosable], rfl⟩
  | comment style =>
      simp only [hkind, Option.some.injEq] at h
      subst h
      -- The comment belongs to the class that has to come.
      obtain ⟨classes, closing, hclasses, rfl⟩ := admitsAll_singleton.mp htokens
      obtain ⟨first, more, rfl⟩ := List.exists_cons_of_ne_nil (hclasses rfl)
      refine ⟨{ first with before := ⟨style, token, hkind⟩ :: first.before } :: more, closing,
        by simp, ?_⟩
      simp [ClassDeclaration.tokens]
  | access modifier =>
      simp only [hkind, Option.some.injEq] at h
      subst h
      rw [Goal.word, admitsAll_expect] at htokens
      obtain ⟨word, _, rfl, _, _, rfl, ⟨name, rfl⟩, htokens⟩ := htokens
      rw [admitsAll_expect] at htokens
      obtain ⟨opening, _, rfl, _, _, rfl, ⟨members, closing, _, rfl⟩, hback⟩ := htokens
      obtain ⟨classes, closing', _, rfl⟩ := admitsAll_singleton.mp hback
      refine ⟨⟨[], ⟨modifier, token, hkind⟩, word, name, opening, members, closing⟩ :: classes,
        closing', by simp, ?_⟩
      simp [ClassDeclaration.tokens]
  | _ => simp [hkind] at h

theorem admits_of_take_members {closable : Bool}
    (h : (Goal.members closable).take? scopes token = .ok (some next))
    (htokens : AdmitsAll next tokens) : (Goal.members closable).Admits (token :: tokens) := by
  simp only [Goal.take?, Except.ok.injEq] at h
  cases hkind : token.kind with
  | rightBrace =>
      simp only [hkind, Option.ite_none_right_eq_some, Option.some.injEq] at h
      obtain ⟨hclosable, rfl⟩ := h
      obtain rfl := admitsAll_nil.mp htokens
      exact ⟨[], ⟨token, hkind⟩, by simp [hclosable], rfl⟩
  | comment style =>
      simp only [hkind, Option.some.injEq] at h
      subst h
      obtain ⟨members, closing, hmembers, rfl⟩ := admitsAll_singleton.mp htokens
      obtain ⟨first, more, rfl⟩ := List.exists_cons_of_ne_nil (hmembers rfl)
      refine ⟨{ first with before := ⟨style, token, hkind⟩ :: first.before } :: more, closing,
        by simp, ?_⟩
      simp [Member.tokens]
  | access modifier =>
      simp only [hkind, Option.some.injEq] at h
      subst h
      obtain ⟨_, _, rfl, ⟨type, name, rest, rfl⟩, hback⟩ := htokens
      obtain ⟨members, closing, _, rfl⟩ := admitsAll_singleton.mp hback
      refine ⟨⟨[], ⟨modifier, token, hkind⟩, type, name, rest⟩ :: members, closing, by simp, ?_⟩
      simp [Member.tokens]
  | _ => simp [hkind] at h

theorem admits_of_take_memberRest {name : Token}
    (h : (Goal.memberRest name).take? scopes token = .ok (some next))
    (htokens : AdmitsAll next tokens) : (Goal.memberRest name).Admits (token :: tokens) := by
  simp only [Goal.take?, Except.ok.injEq] at h
  cases hkind : token.kind with
  | semicolon =>
      simp only [hkind, Option.some.injEq] at h
      subst h
      obtain rfl := admitsAll_nil.mp htokens
      exact ⟨.field ⟨token, hkind⟩, rfl⟩
  | leftParen =>
      simp only [hkind, Option.some.injEq] at h
      subst h
      obtain ⟨_, _, rfl, rfl, _, _, rfl, ⟨parameters?, closing, rfl⟩, htokens⟩ := htokens
      obtain ⟨brace, body, _, rfl, _, _, rfl, rfl, rfl⟩ := admitsAll_body.mp htokens
      refine ⟨.method ⟨⟨token, hkind⟩, parameters?, closing, brace, body⟩, ?_⟩
      simp [MemberRest.tokens, Method.tokens]
  | _ => simp [hkind] at h

/-! ## Parameters and variables -/

theorem admits_of_take_firstParameter
    (h : Goal.firstParameter.take? scopes token = .ok (some next))
    (htokens : AdmitsAll next tokens) : Goal.firstParameter.Admits (token :: tokens) := by
  simp only [Goal.take?, Except.ok.injEq] at h
  cases hkind : token.kind with
  | rightParen =>
      simp only [hkind, Option.some.injEq] at h
      subst h
      obtain rfl := admitsAll_nil.mp htokens
      exact ⟨none, ⟨token, hkind⟩, rfl⟩
  | type ty =>
      simp only [hkind, Option.some.injEq] at h
      subst h
      obtain ⟨_, _, rfl, ⟨name, rfl⟩, hmore⟩ := htokens
      obtain ⟨more, closing, rfl⟩ := admitsAll_singleton.mp hmore
      exact ⟨some ⟨⟨⟨ty, token, hkind⟩, name⟩, more⟩, closing, rfl⟩
  | _ => simp [hkind] at h

/-- A comma asks for another part and what follows it, the closing token for nothing. -/
theorem separatedTail_of_take {Part : Type} {tokensOf : Part → List Token} {closing : Kind}
    (again : List Goal)
    (hagain : ∀ {word : List Token}, AdmitsAll again word → ∃ (part : Part) (back : List Token),
      word = tokensOf part ++ back ∧ SeparatedTail tokensOf closing back)
    (h : token.kind = .comma ∧ next = again ∨ token.kind = closing ∧ next = [])
    (htokens : AdmitsAll next tokens) : SeparatedTail tokensOf closing (token :: tokens) := by
  rcases h with ⟨hkind, rfl⟩ | ⟨hkind, rfl⟩
  · obtain ⟨part, _, rfl, more, last, rfl⟩ := hagain htokens
    refine ⟨(⟨token, hkind⟩, part) :: more, last, ?_⟩
    simp [Separated.tokensOfMore]
  · obtain rfl := admitsAll_nil.mp htokens
    exact ⟨[], ⟨token, hkind⟩, rfl⟩

theorem admits_of_take_moreParameters
    (h : Goal.moreParameters.take? scopes token = .ok (some next))
    (htokens : AdmitsAll next tokens) : Goal.moreParameters.Admits (token :: tokens) := by
  refine separatedTail_of_take [.parameterType, .moreParameters] ?_ ?_ htokens
  · rintro _ ⟨_, back, rfl, ⟨parameter, rfl⟩, hback⟩
    exact ⟨parameter, back, rfl, admitsAll_singleton.mp hback⟩
  · simp only [Goal.take?, Except.ok.injEq] at h
    split at h <;> simp_all

theorem admits_of_take_moreVariables {ty : Ty}
    (h : (Goal.moreVariables ty).take? scopes token = .ok (some next))
    (htokens : AdmitsAll next tokens) : (Goal.moreVariables ty).Admits (token :: tokens) := by
  refine separatedTail_of_take [.variableName ty] ?_ ?_ htokens
  · intro word hword
    obtain ⟨⟨first, more⟩, closing, rfl⟩ := admitsAll_singleton.mp hword
    exact ⟨first, _, by simp [Separated.tokens], more, closing, rfl⟩
  · simp only [Goal.take?, Except.ok.injEq] at h
    split at h <;> simp_all

theorem admits_of_take_moreTargets
    (h : Goal.moreTargets.take? scopes token = .ok (some next))
    (htokens : AdmitsAll next tokens) : Goal.moreTargets.Admits (token :: tokens) := by
  refine separatedTail_of_take [.targetName, .moreTargets] ?_ ?_ htokens
  · rintro _ ⟨_, back, rfl, ⟨assignment, rfl⟩, hback⟩
    exact ⟨assignment, back, rfl, admitsAll_singleton.mp hback⟩
  · simp only [Goal.take?, Except.ok.injEq] at h
    split at h <;> simp_all

/-! ## All goals -/

theorem exists_leaf {kind : Kind} {goals : List Goal}
    (h : (if token.kind = kind then some goals else none) = some next) :
    ∃ leaf : Leaf kind, leaf.token = token ∧ goals = next := by
  rw [Option.ite_none_right_eq_some, Option.some.injEq] at h
  obtain ⟨hkind, hgoals⟩ := h
  exact ⟨⟨token, hkind⟩, rfl, hgoals⟩

theorem exists_mark_of_type? {goals : Ty → List Goal}
    (h : token.kind.type?.map goals = some next) :
    ∃ type : Mark Kind.type, type.token = token ∧ goals type.value = next := by
  cases hkind : token.kind with
  | type ty => exact ⟨⟨ty, token, hkind⟩, rfl, by simpa [hkind, Kind.type?] using h⟩
  | _ => simp [hkind, Kind.type?] at h

/-- The step lemma: what the replacement of a goal asks for continues the goal. -/
theorem Goal.admits_of_take (h : goal.take? scopes token = .ok (some next))
    (htokens : AdmitsAll next tokens) : goal.Admits (token :: tokens) := by
  cases goal with
  | program => exact admits_of_take_program h htokens
  | classes closable => exact admits_of_take_classes h htokens
  | members closable => exact admits_of_take_members h htokens
  | memberRest name => exact admits_of_take_memberRest h htokens
  | firstParameter => exact admits_of_take_firstParameter h htokens
  | moreParameters => exact admits_of_take_moreParameters h htokens
  | moreVariables ty => exact admits_of_take_moreVariables h htokens
  | moreTargets => exact admits_of_take_moreTargets h htokens
  | statements afterIf => exact admits_of_take_statements h htokens
  | expect kind | namespaceName | className =>
      obtain ⟨leaf, rfl, rfl⟩ := exists_leaf (Except.ok.inj h)
      obtain rfl := admitsAll_nil.mp htokens
      exact ⟨leaf, rfl⟩
  | parameterName ty | stepName =>
      obtain ⟨leaf, rfl, rfl⟩ := exists_leaf (Except.ok.inj h)
      obtain rfl := admitsAll_singleton.mp htokens
      exact ⟨leaf, rfl⟩
  | memberType =>
      obtain ⟨type, rfl, rfl⟩ := exists_mark_of_type? (Except.ok.inj h)
      obtain ⟨name, rest, rfl⟩ := admitsAll_singleton.mp htokens
      exact ⟨type, name, rest, rfl⟩
  | memberName ty =>
      obtain ⟨name, rfl, rfl⟩ := exists_leaf (Except.ok.inj h)
      obtain ⟨_, _, rfl, rfl, hrest⟩ := htokens
      obtain ⟨rest, rfl⟩ := admitsAll_singleton.mp hrest
      exact ⟨name, rest, rfl⟩
  | parameterType =>
      obtain ⟨type, rfl, rfl⟩ := exists_mark_of_type? (Except.ok.inj h)
      obtain ⟨name, rfl⟩ := admitsAll_singleton.mp htokens
      exact ⟨⟨type, name⟩, rfl⟩
  | variableName ty =>
      obtain ⟨name, rfl, rfl⟩ := exists_leaf (Except.ok.inj h)
      obtain ⟨_, _, rfl, rfl, _, _, rfl, ⟨initial?, rfl⟩, hmore⟩ := htokens
      obtain ⟨more, closing, rfl⟩ := admitsAll_singleton.mp hmore
      refine ⟨⟨⟨name, initial?⟩, more⟩, closing, ?_⟩
      simp [Separated.tokens, Declarator.tokens]
  | initializer ty name =>
      obtain ⟨sign, rfl, rfl⟩ := exists_leaf (Except.ok.inj h)
      obtain ⟨value, _, rfl, rfl⟩ := admitsAll_start.mp htokens
      exact ⟨some (sign, value), by simp [Declarator.tokensOfInitial]⟩
  | targetName =>
      obtain ⟨name, rfl, rfl⟩ := exists_leaf (Except.ok.inj h)
      obtain ⟨sign, value, rfl⟩ := admitsAll_singleton.mp htokens
      exact ⟨⟨name, sign, value⟩, rfl⟩
  | target name =>
      simp only [take?] at h
      split at h
      · cases h
      · obtain ⟨sign, rfl, rfl⟩ := exists_leaf (Except.ok.inj h)
        obtain ⟨value, _, rfl, rfl⟩ := admitsAll_start.mp htokens
        exact ⟨sign, value, by simp⟩
  | assign ty name =>
      obtain ⟨sign, rfl, rfl⟩ := exists_leaf (Except.ok.inj h)
      obtain ⟨value, _, rfl, rfl⟩ := admitsAll_start.mp htokens
      exact ⟨sign, value, by simp⟩
  | counterType =>
      obtain ⟨type, rfl, rfl⟩ := exists_mark_of_type? (Except.ok.inj h)
      obtain ⟨name, sign, value, rfl⟩ := admitsAll_singleton.mp htokens
      exact ⟨type, name, sign, value, rfl⟩
  | counterName ty =>
      obtain ⟨name, rfl, rfl⟩ := exists_leaf (Except.ok.inj h)
      obtain ⟨_, _, rfl, rfl, hassign⟩ := htokens
      obtain ⟨sign, value, rfl⟩ := admitsAll_singleton.mp hassign
      exact ⟨name, sign, value, rfl⟩
  | stepOperator =>
      simp only [take?, Except.ok.injEq, Option.ite_none_right_eq_some, Option.some.injEq] at h
      obtain ⟨hstep, rfl⟩ := h
      obtain rfl := admitsAll_nil.mp htokens
      cases hkind : token.kind with
      | step operator => exact ⟨⟨operator, token, hkind⟩, rfl⟩
      | _ => simp [hkind, Kind.isStep] at hstep
  | elementType =>
      obtain ⟨type, rfl, rfl⟩ := exists_mark_of_type? (Except.ok.inj h)
      obtain rfl := admitsAll_nil.mp htokens
      exact ⟨type, rfl⟩
  | expression state use =>
      simp only [take?] at h
      split at h
      · rename_i next? hnext
        cases next? with
        | none => cases h
        | some later =>
            cases h
            exact Expression.State.admits_of_take hnext (admitsAll_singleton.mp htokens)
      · cases h
  | field | enter | leave | declare | known => cases h

end Take

/-! ## Methods -/

/-- What meets the goals of a method is a method without its opening parenthesis. -/
theorem exists_method_of_admits (opening : Leaf .leftParen) {tokens : List Token}
    (h : AdmitsAll (.firstParameter :: Goal.body) tokens) :
    ∃ method : Method, method.opening = opening ∧ method.tokens = opening.token :: tokens := by
  obtain ⟨_, _, rfl, ⟨parameters?, closing, rfl⟩, hbody⟩ := h
  rw [← List.append_nil Goal.body] at hbody
  obtain ⟨brace, body, _, rfl, rfl⟩ := admitsAll_body.mp hbody
  exact ⟨⟨opening, parameters?, closing, brace, body⟩, rfl, by simp [Method.tokens]⟩

/-! ## Finishing -/

theorem Goal.admits_of_finish {goal : Goal} {scopes after : Scope.Stack} {ahead : Lookahead}
    (h : goal.finish scopes ahead = .ok after) : goal.Admits [] := by
  cases goal with
  | program => exact ⟨⟨[]⟩, rfl⟩
  | field | enter | leave | declare | known => rfl
  | initializer ty name => exact ⟨none, rfl⟩
  | target name =>
      simp only [finish] at h
      split at h <;> cases h
  | expression state use =>
      simp only [finish] at h
      split at h
      · rename_i hfinish
        exact Expression.State.admits_of_finish hfinish
      · cases h
  | _ => cases h

/-! ## Completions -/

theorem Goal.exists_admits (goal : Goal) : ∃ tokens, goal.Admits tokens := by
  have hvalue : ∃ tokens, Expression.State.start.Admits tokens :=
    Expression.State.start.exists_admits
  obtain ⟨_, hvalue⟩ := hvalue
  obtain ⟨value, -⟩ := wanting_closing_zero.mp hvalue
  let name : Leaf .identifier := .blank .identifier
  let sign : Leaf .assign := .blank .assign
  let type : Mark Kind.type := .blank Kind.type .int
  let access : Mark Kind.access := .blank Kind.access .publicAccess
  let field : MemberRest := .field (.blank .semicolon)
  cases goal with
  | program => exact ⟨_, ⟨[]⟩, rfl⟩
  | expect kind => exact ⟨_, .blank kind, rfl⟩
  | namespaceName | className | stepName | parameterName => exact ⟨_, name, rfl⟩
  | classes closable =>
      let declaration : ClassDeclaration :=
        ⟨[], access, .blank _, name, .blank _, [], .blank _⟩
      exact ⟨_, [declaration], .blank _, by simp, rfl⟩
  | members closable =>
      exact ⟨_, [⟨[], access, type, name, field⟩], .blank _, by simp, rfl⟩
  | memberType => exact ⟨_, type, name, field, rfl⟩
  | memberName ty => exact ⟨_, name, field, rfl⟩
  | memberRest name => exact ⟨_, field, rfl⟩
  | firstParameter => exact ⟨_, none, .blank _, rfl⟩
  | parameterType => exact ⟨_, ⟨type, name⟩, rfl⟩
  | moreParameters => exact ⟨_, [], .blank _, rfl⟩
  | statements afterIf => exact ⟨_, .inl ⟨.done [] (.blank _), rfl⟩⟩
  | variableName ty => exact ⟨_, ⟨⟨name, none⟩, []⟩, .blank _, rfl⟩
  | initializer ty name => exact ⟨_, none, rfl⟩
  | moreVariables ty => exact ⟨_, [], .blank _, rfl⟩
  | targetName => exact ⟨_, ⟨name, sign, value⟩, rfl⟩
  | target | assign => exact ⟨_, sign, value, rfl⟩
  | moreTargets => exact ⟨_, [], .blank _, rfl⟩
  | counterType => exact ⟨_, type, name, sign, value, rfl⟩
  | counterName ty => exact ⟨_, name, sign, value, rfl⟩
  | stepOperator => exact ⟨_, .blank Kind.step .increment, rfl⟩
  | elementType => exact ⟨_, type, rfl⟩
  | expression state use => exact state.exists_admits
  | field | enter | leave | declare | known => exact ⟨_, rfl⟩

theorem exists_admitsAll (goals : List Goal) : ∃ tokens, AdmitsAll goals tokens := by
  induction goals with
  | nil => exact ⟨[], rfl⟩
  | cons goal goals ih =>
      obtain ⟨front, hfront⟩ := goal.exists_admits
      obtain ⟨back, hback⟩ := ih
      exact ⟨front ++ back, front, back, rfl, hfront, hback⟩

end Classlet.Analysis
