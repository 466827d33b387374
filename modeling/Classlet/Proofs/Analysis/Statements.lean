import Classlet.Proofs.Analysis.Step

/-!
# Statements in a run

In front of the tokens of a statement, a run asks exactly whether the statement
is well typed and its names are new, and goes on behind it with these names
bound.  The induction is on the tree; blocks and statements are proved together.
-/

namespace Classlet.Analysis

open Grammar Expression

/-! ## Ends of expressions -/

theorem endsExpression_leaf {kind : Kind} (leaf : Leaf kind)
    (hcomment : kind.isComment = false) (hbinary : ∀ operator, kind ≠ .binary operator) :
    EndsExpression leaf.token := by
  unfold EndsExpression
  rw [leaf.kind_eq]
  exact ⟨hcomment, hbinary⟩

theorem endsExpression_semicolon (leaf : Leaf .semicolon) : EndsExpression leaf.token :=
  endsExpression_leaf leaf rfl (by simp)

theorem endsExpression_comma (leaf : Leaf .comma) : EndsExpression leaf.token :=
  endsExpression_leaf leaf rfl (by simp)

theorem endsExpression_rightParen (leaf : Leaf .rightParen) : EndsExpression leaf.token :=
  endsExpression_leaf leaf rfl (by simp)

/-! ## Conditions -/

section Parts

variable (goals : List Goal) (scopes : Scope.Stack) (last : Position) (rest : List Token)

theorem run_value (expression : Expression) {token : Token} (hends : EndsExpression token) :
    (run (.value :: goals) scopes last (expression.tokens ++ token :: rest)).Answers
      (HasSomeType scopes.current.entries expression)
      (run goals scopes (lastPlace last expression.tokens) (token :: rest)) := by
  have hanswers := run_expression_answers goals scopes last .discard expression hends rest
  exact hanswers.congr (by simp [HasSomeType, Use.Accepts])

theorem run_condition (condition : Condition) :
    (run (Goal.condition ++ goals) scopes last (condition.tokens ++ rest)).Answers
      (HasSomeType scopes.current.entries condition.value)
      (run goals scopes condition.closing.token.position rest) := by
  simp only [Goal.condition, Condition.tokens, List.cons_append, List.nil_append,
    List.append_assoc, run_expect]
  rw [← run_expect condition.closing]
  exact run_value _ _ _ _ condition.value (endsExpression_rightParen condition.closing)

/-! ## Variables -/

theorem run_assigned (name : Token) (ty : Ty) (sign : Token) (value : Expression)
    {token : Token} (hends : EndsExpression token) :
    (run (.expression .start (.assign name ty sign) :: goals) scopes last
        (value.tokens ++ token :: rest)).Answers
      (value.type? scopes.current.entries = some ty)
      (run goals scopes (lastPlace last value.tokens) (token :: rest)) := by
  have hanswers := run_expression_answers goals scopes last (.assign name ty sign) value
    hends rest
  exact hanswers.congr (by simp [Use.Accepts])

theorem run_initializer (ty : Ty) (name : Token)
    (initial? : Option (Leaf .assign × Expression))
    {token : Token} (hends : EndsExpression token) (hassign : token.kind ≠ .assign) :
    (run (.initializer ty name :: goals) scopes last
        (Declarator.tokensOfInitial initial? ++ token :: rest)).Answers
      (∀ initial ∈ initial?, initial.2.type? scopes.current.entries = some ty)
      (run goals scopes (lastPlace last (Declarator.tokensOfInitial initial?))
        (token :: rest)) := by
  cases initial? with
  | none =>
      apply Outcome.Answers.of_valid (by simp)
      exact run_skip (by simp [Goal.take?, hassign]) rfl
  | some initial =>
      obtain ⟨sign, value⟩ := initial
      have htake : (Goal.initializer ty name).take? scopes sign.token =
          .ok (some [.expression .start (.assign name ty sign.token)]) := by
        simp [Goal.take?, sign.kind_eq]
      simp only [Declarator.tokensOfInitial, List.cons_append, lastPlace_cons]
      rw [run_take _ htake]
      have hanswers := run_assigned goals scopes sign.token.position rest name ty sign.token
        value hends
      exact hanswers.congr (by simp)

theorem run_declarator (ty : Ty) (declarator : Declarator) {token : Token}
    (hends : EndsExpression token) (hassign : token.kind ≠ .assign) :
    (run (.variableName ty :: goals) scopes last
        (declarator.tokens ++ token :: rest)).Answers
      ((∀ initial ∈ declarator.initial?, initial.2.type?
          (scopes.current.entries ++ [declarator.binding ty]) = some ty) ∧
        Fresh scopes.current.entries [declarator.binding ty])
      (run (.moreVariables ty :: goals) (scopes.extend [declarator.binding ty])
        (lastPlace last declarator.tokens) (token :: rest)) := by
  simp only [Declarator.tokens, List.cons_append, run_variableName, lastPlace_cons]
  have hdeclare := run_declare
    (.initializer ty declarator.name.token :: .moreVariables ty :: goals) scopes
    declarator.name.token.position ty declarator.name.token
    (Declarator.tokensOfInitial declarator.initial? ++ token :: rest)
  have hinitial := run_initializer (.moreVariables ty :: goals)
    (scopes.extend [declarator.binding ty]) declarator.name.token.position rest
    ty declarator.name.token declarator.initial? hends hassign
  rw [Scope.Stack.entries_extend] at hinitial
  exact (hdeclare.trans fun _ => hinitial).congr and_comm

theorem run_declarators (ty : Ty) (declarator : Declarator)
    (more : List (Leaf .comma × Declarator)) (closing : Leaf .semicolon) :
    (run (.variableName ty :: goals) scopes last
        (declarator.tokens ++
          (Separated.tokensOfMore Declarator.tokens more ++ closing.token :: rest))).Answers
      (DeclaratorsWellTyped ty scopes.current.entries (declarator :: more.map Prod.snd) ∧
        Fresh scopes.current.entries
          ((declarator :: more.map Prod.snd).map (Declarator.binding ty)))
      (run goals
        (scopes.extend ((declarator :: more.map Prod.snd).map (Declarator.binding ty)))
        closing.token.position rest) := by
  induction more generalizing declarator scopes last with
  | nil =>
      have hassign : closing.token.kind ≠ .assign := by simp [closing.kind_eq]
      have hanswers := run_declarator goals scopes last rest ty declarator
        (endsExpression_semicolon closing) hassign
      have htake : (Goal.moreVariables ty).take? (scopes.extend [declarator.binding ty])
          closing.token = .ok (some []) := by
        simp [Goal.take?, closing.kind_eq]
      rw [run_take _ htake] at hanswers
      exact hanswers.congr (by simp [DeclaratorsWellTyped])
  | cons next more ih =>
      obtain ⟨comma, following⟩ := next
      have hassign : comma.token.kind ≠ .assign := by simp [comma.kind_eq]
      have hanswers := run_declarator goals scopes last
        (following.tokens ++
          (Separated.tokensOfMore Declarator.tokens more ++ closing.token :: rest))
        ty declarator (endsExpression_comma comma) hassign
      have htake : (Goal.moreVariables ty).take? (scopes.extend [declarator.binding ty])
          comma.token = .ok (some [.variableName ty]) := by
        simp [Goal.take?, comma.kind_eq]
      rw [run_take _ htake] at hanswers
      have hboth := hanswers.trans fun _ =>
        ih (scopes.extend [declarator.binding ty]) comma.token.position following
      rw [Scope.Stack.extend_extend, Scope.Stack.entries_extend] at hboth
      simp only [Separated.tokensOfMore, List.flatMap_cons, List.cons_append,
        List.append_assoc]
      refine hboth.congr ?_
      exact and_fresh_append _ [declarator.binding ty] _

/-! ## Assignments -/

theorem run_target (assignment : Assignment) {token : Token}
    (hends : EndsExpression token) :
    (run (.target assignment.target.token :: goals) scopes last
        (assignment.sign.token :: (assignment.value.tokens ++ token :: rest))).Answers
      (assignment.WellTyped scopes.current.entries)
      (run goals scopes
        (lastPlace assignment.sign.token.position assignment.value.tokens)
        (token :: rest)) := by
  obtain ⟨target, sign, value⟩ := assignment
  unfold Assignment.WellTyped
  cases hlookup : scopes.current.entries.lookup target.token.lexeme with
  | none =>
      have htake : (Goal.target target.token).take? scopes sign.token =
          .error (.undeclared target.token) := by
        simp [Goal.take?, Scope.Stack.lookup, Scope.Table.get?, hlookup]
      refine ⟨fun h => by simp at h, fun _ => ⟨_, run_take_error htake, ?_⟩⟩
      simp [Fault.kind]
  | some ty =>
      have htake : (Goal.target target.token).take? scopes sign.token =
          .ok (some [.expression .start (.assign target.token ty sign.token)]) := by
        simp [Goal.take?, Scope.Stack.lookup, Scope.Table.get?, hlookup, sign.kind_eq]
      rw [run_take _ htake]
      have hanswers := run_assigned goals scopes sign.token.position rest target.token ty
        sign.token value hends
      exact hanswers.congr (by simp)

theorem run_assignments (assignment : Assignment)
    (more : List (Leaf .comma × Assignment)) (closing : Leaf .semicolon) :
    (run (.target assignment.target.token :: .moreTargets :: goals) scopes last
        (assignment.sign.token :: (assignment.value.tokens ++
          (Separated.tokensOfMore Assignment.tokens more ++ closing.token :: rest)))).Answers
      (∀ part ∈ assignment :: more.map Prod.snd, part.WellTyped scopes.current.entries)
      (run goals scopes closing.token.position rest) := by
  induction more generalizing assignment last with
  | nil =>
      have hanswers := run_target (.moreTargets :: goals) scopes last rest assignment
        (endsExpression_semicolon closing)
      have htake : Goal.moreTargets.take? scopes closing.token = .ok (some []) := by
        simp [Goal.take?, closing.kind_eq]
      rw [run_take _ htake] at hanswers
      exact hanswers.congr (by simp)
  | cons next more ih =>
      obtain ⟨comma, following⟩ := next
      have hanswers := run_target (.moreTargets :: goals) scopes last
        (following.tokens ++
          (Separated.tokensOfMore Assignment.tokens more ++ closing.token :: rest))
        assignment (endsExpression_comma comma)
      have htake : Goal.moreTargets.take? scopes comma.token =
          .ok (some [.targetName, .moreTargets]) := by
        simp [Goal.take?, comma.kind_eq]
      rw [run_take _ htake] at hanswers
      simp only [Assignment.tokens, List.cons_append, List.nil_append, run_targetName]
        at hanswers
      have hboth := hanswers.trans fun _ => ih following.target.token.position following
      simp only [Separated.tokensOfMore, Assignment.tokens, List.flatMap_cons,
        List.cons_append, List.append_assoc]
      exact hboth.congr (by simp)

/-! ## Headers of loops -/

theorem run_forHeader_rest (header : ForHeader) :
    (run (.assign header.type.value header.name.token :: .expect .semicolon :: .value ::
          .expect .semicolon :: .stepName :: .stepOperator :: .expect .number ::
          .expect .rightParen :: goals) scopes last
        (header.sign.token :: (header.initial.tokens ++ header.afterInitial.token ::
          (header.condition.tokens ++ header.afterCondition.token :: header.counter.token ::
            header.step.token :: header.amount.token :: header.closing.token :: rest)))).Answers
      (header.initial.type? scopes.current.entries = some header.type.value ∧
        HasSomeType scopes.current.entries header.condition ∧
        (scopes.current.entries.lookup header.counter.token.lexeme).isSome)
      (run goals scopes header.closing.token.position rest) := by
  have hinitial := run_assigned (.expect .semicolon :: .value :: .expect .semicolon ::
      .stepName :: .stepOperator :: .expect .number :: .expect .rightParen :: goals) scopes
    header.sign.token.position
    (header.condition.tokens ++ header.afterCondition.token :: header.counter.token ::
      header.step.token :: header.amount.token :: header.closing.token :: rest)
    header.name.token header.type.value header.sign.token header.initial
    (endsExpression_semicolon header.afterInitial)
  have hcondition := run_value (.expect .semicolon :: .stepName :: .stepOperator ::
      .expect .number :: .expect .rightParen :: goals) scopes
    header.afterInitial.token.position
    (header.counter.token :: header.step.token :: header.amount.token ::
      header.closing.token :: rest)
    header.condition (endsExpression_semicolon header.afterCondition)
  have hcounter :=
    run_known (.stepOperator :: .expect .number :: .expect .rightParen :: goals)
    scopes header.counter.token.position header.counter.token
    (header.step.token :: header.amount.token :: header.closing.token :: rest)
  rw [run_expect] at hinitial
  rw [run_expect, run_stepName] at hcondition
  rw [run_stepOperator, run_expect, run_expect] at hcounter
  rw [run_assign]
  exact hinitial.trans fun _ => hcondition.trans fun _ => hcounter

theorem run_forHeader (header : ForHeader) :
    (run (Goal.forHeader ++ goals) scopes last (header.tokens.tail ++ rest)).Answers
      (header.WellTyped scopes.current.entries ∧
        Fresh scopes.current.entries [header.binding])
      (run goals (scopes.extend [header.binding]) header.closing.token.position rest) := by
  simp only [Goal.forHeader, ForHeader.tokens, List.cons_append, List.nil_append,
    List.append_assoc, List.tail_cons, run_expect, run_counterType, run_counterName]
  have hrest := run_forHeader_rest goals (scopes.extend [header.binding])
    header.name.token.position rest header
  rw [Scope.Stack.entries_extend] at hrest
  exact ((run_declare _ _ _ _ _ _).trans fun _ => hrest).congr and_comm

theorem run_foreachHeader (header : ForeachHeader) :
    (run (Goal.foreachHeader ++ goals) scopes last (header.tokens.tail ++ rest)).Answers
      (HasSomeType scopes.current.entries header.collection)
      (run goals scopes header.closing.token.position rest) := by
  simp only [Goal.foreachHeader, ForeachHeader.tokens, List.cons_append, List.nil_append,
    List.append_assoc, List.tail_cons, run_expect, run_elementType, Goal.word]
  rw [← run_expect header.closing]
  exact run_value _ _ _ _ header.collection (endsExpression_rightParen header.closing)

/-! ## Starts of statements -/

theorem take?_statements {token : Token} {next : List Goal} (afterIf : Bool)
    (h : Goal.statement? token = some next) :
    (Goal.statements afterIf).take? scopes token = .ok (some next) := by
  unfold Goal.statement? at h
  split at h <;> simp_all [Goal.take?, Goal.statement?]

theorem run_statements_comments (comments : Comments) (afterIf : Bool) :
    run (.statements afterIf :: goals) scopes last (comments.tokens ++ rest) =
      run (.statements (afterIf && comments.isEmpty) :: goals) scopes
        (lastPlace last comments.tokens) rest := by
  induction comments generalizing afterIf last with
  | nil => simp
  | cons comment comments ih =>
      have htake : (Goal.statements afterIf).take? scopes comment.token =
          .ok (some [.statements false]) := by
        simp [Goal.take?, comment.kind_eq]
      simp only [Comments.tokens_cons, List.cons_append, lastPlace_cons]
      rw [run_take _ htake]
      simpa using ih comment.token.position false

end Parts

/-! ## Blocks and statements -/

/-- Directly behind the statement an `else` would belong to it. -/
def leavesElse : Statement → Bool
  | .conditional _ _ _ _ => true
  | _ => false

mutual

theorem run_statement (statement : Statement) (afterIf : Bool) (goals : List Goal)
    (scopes : Scope.Stack) (last : Position) (rest : List Token) :
    (run (.statements afterIf :: goals) scopes last (statement.tokens ++ rest)).Answers
      (statement.WellTyped scopes.current.entries ∧
        Fresh scopes.current.entries statement.locals)
      (run (.statements (leavesElse statement) :: goals) (scopes.extend statement.locals)
        (lastPlace last statement.tokens) rest) := by
  match statement with
  | .variables type parts closing =>
      have hstart : Goal.statement? type.token =
          some [.variableName type.value, .statements false] := by
        simp [Goal.statement?, type.kind_eq]
      simp only [Statement.tokens, Separated.tokens, List.cons_append, List.append_assoc]
      rw [run_take _ (take?_statements scopes afterIf hstart)]
      have hparts := run_declarators (.statements false :: goals) scopes type.token.position
        rest type.value parts.first parts.more closing
      simpa [Statement.WellTyped, Statement.locals, Separated.toList, leavesElse]
        using hparts
  | .assignments parts closing =>
      have hstart : Goal.statement? parts.first.target.token =
          some [.target parts.first.target.token, .moreTargets, .statements false] := by
        simp [Goal.statement?, parts.first.target.kind_eq]
      simp only [Statement.tokens, Separated.tokens, Assignment.tokens, List.cons_append,
        List.append_assoc]
      rw [run_take _ (take?_statements scopes afterIf hstart)]
      have hparts := run_assignments (.statements false :: goals) scopes
        parts.first.target.token.position rest parts.first parts.more closing
      simpa [Statement.WellTyped, Statement.locals, Separated.toList, leavesElse]
        using hparts
  | .conditional word condition opening body =>
      have hstart : Goal.statement? word.token =
          some (Goal.condition ++ Goal.body ++ [.statements true]) := by
        simp [Goal.statement?, word.kind_eq]
      simp only [Statement.tokens, List.cons_append, List.append_assoc]
      rw [run_take _ (take?_statements scopes afterIf hstart)]
      have hcondition := run_condition (Goal.body ++ .statements true :: goals) scopes
        word.token.position (opening.token :: (body.tokens ++ rest)) condition
      have hbody := run_block body false (.statements true :: goals) scopes
        opening.token.position rest
      simp only [Goal.body, List.cons_append, List.nil_append, run_expect] at hcondition
      have hboth := (hcondition.trans fun _ => hbody).congr and_assoc.symm
      simpa [Goal.body, Statement.WellTyped, Statement.locals, leavesElse] using hboth
  | .alternative word condition opening body otherwise opening' other =>
      have hstart : Goal.statement? word.token =
          some (Goal.condition ++ Goal.body ++ [.statements true]) := by
        simp [Goal.statement?, word.kind_eq]
      have helse : (Goal.statements true).take? (scopes.extend body.locals) otherwise.token =
          .ok (some (Goal.body ++ [.statements false])) := by
        simp [Goal.take?, otherwise.kind_eq]
      simp only [Statement.tokens, List.cons_append, List.append_assoc]
      rw [run_take _ (take?_statements scopes afterIf hstart)]
      have hcondition := run_condition (Goal.body ++ .statements true :: goals) scopes
        word.token.position (opening.token :: (body.tokens ++
          otherwise.token :: opening'.token :: (other.tokens ++ rest))) condition
      have hbody := run_block body false (.statements true :: goals) scopes
        opening.token.position
        (otherwise.token :: opening'.token :: (other.tokens ++ rest))
      have hother := run_block other false (.statements false :: goals)
        (scopes.extend body.locals) opening'.token.position rest
      rw [run_take _ helse] at hbody
      simp only [Goal.body, List.cons_append, List.nil_append, run_expect]
        at hcondition hbody
      rw [Scope.Stack.entries_extend, Scope.Stack.extend_extend] at hother
      have hbodies := (hbody.trans fun _ => hother).congr (and_fresh_append _ _ _)
      have hall := (hcondition.trans fun _ => hbodies).congr and_assoc.symm
      simpa [Goal.body, Statement.WellTyped, Statement.locals, leavesElse] using hall
  | .whileLoop word condition opening body =>
      have hstart : Goal.statement? word.token =
          some (Goal.condition ++ Goal.body ++ [.statements false]) := by
        simp [Goal.statement?, word.kind_eq]
      simp only [Statement.tokens, List.cons_append, List.append_assoc]
      rw [run_take _ (take?_statements scopes afterIf hstart)]
      have hcondition := run_condition (Goal.body ++ .statements false :: goals) scopes
        word.token.position (opening.token :: (body.tokens ++ rest)) condition
      have hbody := run_block body false (.statements false :: goals) scopes
        opening.token.position rest
      simp only [Goal.body, List.cons_append, List.nil_append, run_expect] at hcondition
      have hboth := (hcondition.trans fun _ => hbody).congr and_assoc.symm
      simpa [Goal.body, Statement.WellTyped, Statement.locals, leavesElse] using hboth
  | .forLoop header opening body =>
      have hstart : Goal.statement? header.word.token =
          some (Goal.forHeader ++ Goal.body ++ [.statements false]) := by
        simp [Goal.statement?, header.word.kind_eq]
      have hheader := run_forHeader (Goal.body ++ .statements false :: goals) scopes
        header.word.token.position (opening.token :: (body.tokens ++ rest)) header
      have hbody := run_block body false (.statements false :: goals)
        (scopes.extend [header.binding]) opening.token.position rest
      simp only [Goal.body, List.cons_append, List.nil_append, run_expect] at hheader
      rw [Scope.Stack.entries_extend, Scope.Stack.extend_extend] at hbody
      have hboth := (hheader.trans fun _ => hbody).congr (and_fresh_append _ _ _)
      simp only [Statement.tokens, List.append_assoc, List.cons_append]
      rw [ForHeader.tokens_eq, List.cons_append,
        run_take _ (take?_statements scopes afterIf hstart)]
      simpa [Goal.body, Statement.WellTyped, Statement.locals, leavesElse] using hboth
  | .doLoop word opening body word' condition closing =>
      have hstart : Goal.statement? word.token =
          some (Goal.body ++ [.word .whileWord] ++ Goal.condition ++
            [.expect .semicolon, .statements false]) := by
        simp [Goal.statement?, word.kind_eq]
      simp only [Statement.tokens, List.cons_append, List.append_assoc]
      rw [run_take _ (take?_statements scopes afterIf hstart)]
      have hbody := run_block body false
        (.expect (.word .whileWord) :: (Goal.condition ++
          .expect .semicolon :: .statements false :: goals)) scopes opening.token.position
        (word'.token :: (condition.tokens ++ closing.token :: rest))
      have hcondition := run_condition (.expect .semicolon :: .statements false :: goals)
        (scopes.extend body.locals) word'.token.position (closing.token :: rest) condition
      rw [run_expect] at hbody hcondition
      rw [Scope.Stack.entries_extend] at hcondition
      have hboth := (hbody.trans fun _ => hcondition).congr and_right_comm
      simpa [Goal.body, Goal.word, Statement.WellTyped, Statement.locals, leavesElse]
        using hboth
  | .foreachLoop header opening body =>
      have hstart : Goal.statement? header.word.token =
          some (Goal.foreachHeader ++ Goal.body ++ [.statements false]) := by
        simp [Goal.statement?, header.word.kind_eq]
      have hheader := run_foreachHeader (Goal.body ++ .statements false :: goals) scopes
        header.word.token.position (opening.token :: (body.tokens ++ rest)) header
      have hbody := run_block body false (.statements false :: goals) scopes
        opening.token.position rest
      simp only [Goal.body, List.cons_append, List.nil_append, run_expect] at hheader
      have hboth := (hheader.trans fun _ => hbody).congr and_assoc.symm
      simp only [Statement.tokens, List.append_assoc, List.cons_append]
      rw [ForeachHeader.tokens_eq, List.cons_append,
        run_take _ (take?_statements scopes afterIf hstart)]
      simpa [Goal.body, Statement.WellTyped, Statement.locals, leavesElse] using hboth

theorem run_block (block : Block) (afterIf : Bool) (goals : List Goal)
    (scopes : Scope.Stack) (last : Position) (rest : List Token) :
    (run (.statements afterIf :: goals) scopes last (block.tokens ++ rest)).Answers
      (block.WellTyped scopes.current.entries ∧ Fresh scopes.current.entries block.locals)
      (run goals (scopes.extend block.locals) (lastPlace last block.tokens) rest) := by
  match block with
  | .done before closing =>
      have htake : (Goal.statements (afterIf && before.isEmpty)).take? scopes closing.token =
          .ok (some []) := by
        simp [Goal.take?, closing.kind_eq]
      apply Outcome.Answers.of_valid (by simp [Block.WellTyped, Block.locals])
      simp only [Block.tokens, List.append_assoc, run_statements_comments,
        List.singleton_append]
      rw [run_take _ htake]
      simp [Block.locals]
  | .next before statement following =>
      simp only [Block.tokens, List.append_assoc, run_statements_comments]
      have hstatement := run_statement statement (afterIf && before.isEmpty) goals scopes
        (lastPlace last before.tokens) (following.tokens ++ rest)
      have hfollowing := run_block following (leavesElse statement) goals
        (scopes.extend statement.locals)
        (lastPlace (lastPlace last before.tokens) statement.tokens) rest
      rw [Scope.Stack.entries_extend, Scope.Stack.extend_extend] at hfollowing
      simp only [lastPlace_append]
      exact (hstatement.trans fun _ => hfollowing).congr (and_fresh_append _ _ _)

end

end Classlet.Analysis
