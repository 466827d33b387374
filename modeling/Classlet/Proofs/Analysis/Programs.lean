import Classlet.Proofs.Analysis.Statements

/-!
# Programs in a run

In front of the tokens of a whole program, a run asks exactly whether all fields
have different names and all methods are well typed, and ends with the fields in
the global table.  Each method has a scope of its own and leaves none behind.
-/

namespace Classlet.Analysis

open Grammar

section Parts

variable (goals : List Goal) (scopes : Scope.Stack) (last : Position) (rest : List Token)

/-! ## Methods -/

theorem run_moreParameters (more : List (Leaf .comma × Parameter))
    (closing : Leaf .rightParen) :
    (run (.moreParameters :: goals) scopes last
        (Separated.tokensOfMore Parameter.tokens more ++ closing.token :: rest)).Answers
      (Fresh scopes.current.entries ((more.map Prod.snd).map Parameter.binding))
      (run goals (scopes.extend ((more.map Prod.snd).map Parameter.binding))
        closing.token.position rest) := by
  induction more generalizing scopes last with
  | nil =>
      have htake : Goal.moreParameters.take? scopes closing.token = .ok (some []) := by
        simp [Goal.take?, closing.kind_eq]
      apply Outcome.Answers.of_valid (by simp)
      simpa [Separated.tokensOfMore] using run_take _ htake
  | cons next more ih =>
      obtain ⟨comma, parameter⟩ := next
      have htake : Goal.moreParameters.take? scopes comma.token =
          .ok (some [.parameterType, .moreParameters]) := by
        simp [Goal.take?, comma.kind_eq]
      have hdeclare := run_declare (.moreParameters :: goals) scopes
        parameter.name.token.position parameter.type.value parameter.name.token
        (Separated.tokensOfMore Parameter.tokens more ++ closing.token :: rest)
      have hmore := ih (scopes.extend [parameter.binding]) parameter.name.token.position
      rw [Scope.Stack.entries_extend, Scope.Stack.extend_extend] at hmore
      simp only [Separated.tokensOfMore, List.flatMap_cons, Parameter.tokens,
        List.cons_append, List.nil_append]
      rw [run_take _ htake]
      simp only [List.cons_append, List.nil_append, run_parameterType, run_parameterName]
      exact (hdeclare.trans fun _ => hmore).congr (fresh_cons _ parameter.binding _).symm

theorem run_parameters (parameters? : Option (Separated Parameter))
    (closing : Leaf .rightParen) :
    (run (.firstParameter :: goals) scopes last
        (Method.tokensOfParameters parameters? ++ closing.token :: rest)).Answers
      (Fresh scopes.current.entries (Method.bindings parameters?))
      (run goals (scopes.extend (Method.bindings parameters?)) closing.token.position
        rest) := by
  cases parameters? with
  | none =>
      have htake : Goal.firstParameter.take? scopes closing.token = .ok (some []) := by
        simp [Goal.take?, closing.kind_eq]
      apply Outcome.Answers.of_valid (by simp [Method.bindings])
      simpa [Method.tokensOfParameters, Method.bindings] using run_take _ htake
  | some parameters =>
      obtain ⟨first, more⟩ := parameters
      have htake : Goal.firstParameter.take? scopes first.type.token =
          .ok (some [.parameterName first.type.value, .moreParameters]) := by
        simp [Goal.take?, first.type.kind_eq]
      have hdeclare := run_declare (.moreParameters :: goals) scopes
        first.name.token.position first.type.value first.name.token
        (Separated.tokensOfMore Parameter.tokens more ++ closing.token :: rest)
      have hmore := run_moreParameters goals (scopes.extend [first.binding])
        first.name.token.position rest more closing
      rw [Scope.Stack.entries_extend, Scope.Stack.extend_extend] at hmore
      simp only [Method.tokensOfParameters, Separated.tokens, Parameter.tokens,
        List.cons_append, List.nil_append]
      rw [run_take _ htake]
      simp only [List.cons_append, List.nil_append, run_parameterName]
      exact (hdeclare.trans fun _ => hmore).congr (fresh_cons _ first.binding _).symm

/-- A method behind its opening parenthesis, in a scope of its own that is still open. -/
theorem run_methodRest (method : Method) :
    (run (.firstParameter :: (Goal.body ++ goals)) scopes.push last
        (method.tokens.tail ++ rest)).Answers method.WellTyped
      (run goals (scopes.push.extend (method.parameters ++ method.body.locals))
        (lastPlace last method.tokens) rest) := by
  have hparameters := run_parameters (Goal.body ++ goals) scopes.push last
    (method.brace.token :: (method.body.tokens ++ rest)) method.parameters? method.closing
  have hbody := run_block method.body false goals
    (scopes.push.extend method.parameters) method.brace.token.position rest
  rw [Scope.Stack.entries_extend, Scope.Stack.extend_extend] at hbody
  simp only [Goal.body, List.cons_append, List.nil_append, run_expect] at hparameters
  have hvalid : (Fresh scopes.push.current.entries (Method.bindings method.parameters?) ∧
        method.body.WellTyped (scopes.push.current.entries ++ method.parameters) ∧
        Fresh (scopes.push.current.entries ++ method.parameters) method.body.locals) ↔
      method.WellTyped := by
    rw [Method.WellTyped, ← fresh_nil_left, fresh_append, Scope.Stack.entries_push]
    simp only [List.nil_append, Method.parameters]
    constructor
    · rintro ⟨hfront, htyped, hback⟩
      exact ⟨⟨hfront, hback⟩, htyped⟩
    · rintro ⟨⟨hfront, hback⟩, htyped⟩
      exact ⟨hfront, htyped, hback⟩
  have htyped := (hparameters.trans fun _ => hbody).congr hvalid
  simpa [Method.tokens, Goal.body] using htyped

/-- A method is entered with a scope of its own, which is closed behind its body. -/
theorem run_method_eq (name : Token) (tokens : List Token) :
    run (Goal.method name ++ goals) scopes last tokens =
      (run (.firstParameter :: Goal.body) scopes.push last tokens).followedBy
        (.leave name :: goals) := by
  rw [← run_append]
  simp only [Goal.method, List.append_assoc, List.cons_append, List.nil_append]
  exact run_finish (fun _ => rfl) (fun _ => rfl)

theorem run_method (name : Token) (method : Method) :
    (run (Goal.method name ++ goals) scopes last (method.tokens.tail ++ rest)).Answers
      method.WellTyped (run goals scopes (lastPlace last method.tokens) rest) := by
  have hleave : run (.leave name :: goals)
      (scopes.push.extend (method.parameters ++ method.body.locals))
      (lastPlace last method.tokens) rest = run goals scopes (lastPlace last method.tokens) rest :=
    run_finish (fun _ => rfl) (fun _ => rfl)
  rw [run_method_eq, ← run_append, ← hleave]
  exact run_methodRest (.leave name :: goals) scopes last rest method

/-! ## Members -/

/-- Comments before an access modifier are passed over, for a class and for a member. -/
theorem run_access (family : Bool → Goal) (next : List Goal) (mark : Mark Kind.access)
    (hcomment : ∀ (closable : Bool) (comment : Mark Kind.comment),
      (family closable).take? scopes comment.token = .ok (some [family false]))
    (haccess : ∀ closable : Bool, (family closable).take? scopes mark.token = .ok (some next))
    (comments : Comments) (closable : Bool) :
    run (family closable :: goals) scopes last (comments.tokens ++ mark.token :: rest) =
      run (next ++ goals) scopes mark.token.position rest := by
  induction comments generalizing closable last with
  | nil => exact run_take next (haccess closable)
  | cons comment comments ih =>
      simp only [Comments.tokens_cons, List.cons_append]
      rw [run_take _ (hcomment closable comment)]
      exact ih comment.token.position false

theorem run_members_access (comments : Comments) (closable : Bool)
    (mark : Mark Kind.access) :
    run (.members closable :: goals) scopes last
        (comments.tokens ++ mark.token :: rest) =
      run (.memberType :: .members true :: goals) scopes mark.token.position rest := by
  refine run_access goals scopes last rest Goal.members [.memberType, .members true] mark
    ?_ ?_ comments closable
  · intro closable comment
    simp [Goal.take?, comment.kind_eq]
  · intro closable
    simp [Goal.take?, mark.kind_eq]

def MembersValid (known : Bindings) (members : List Member) : Prop :=
  Fresh known (members.flatMap Member.fields) ∧
    ∀ method ∈ members.flatMap Member.methods, method.WellTyped

theorem membersValid_nil (known : Bindings) : MembersValid known [] := by
  simp [MembersValid]

theorem membersValid_append (known : Bindings) (front back : List Member) :
    MembersValid known (front ++ back) ↔
      MembersValid known front ∧
        MembersValid (known ++ front.flatMap Member.fields) back := by
  simp only [MembersValid, List.flatMap_append, List.mem_append, fresh_append, or_imp,
    forall_and]
  constructor
  · rintro ⟨⟨hfront, hback⟩, hfrontTyped, hbackTyped⟩
    exact ⟨⟨hfront, hfrontTyped⟩, hback, hbackTyped⟩
  · rintro ⟨⟨hfront, hfrontTyped⟩, hback, hbackTyped⟩
    exact ⟨⟨hfront, hback⟩, hfrontTyped, hbackTyped⟩

/-- Parts of a program, each of which leads a run back to the goal it began with. -/
theorem run_parts {Part : Type} (goal : Goal) (tokensOf : Part → List Token)
    (membersOf : Part → List Member)
    (hpart : ∀ (part : Part) (scopes : Scope.Stack) (last : Position) (rest : List Token),
      (run (goal :: goals) scopes last (tokensOf part ++ rest)).Answers
        (MembersValid scopes.current.entries (membersOf part))
        (run (goal :: goals) (scopes.extend ((membersOf part).flatMap Member.fields))
          (lastPlace last (tokensOf part)) rest))
    (parts : List Part) :
    (run (goal :: goals) scopes last (parts.flatMap tokensOf ++ rest)).Answers
      (MembersValid scopes.current.entries (parts.flatMap membersOf))
      (run (goal :: goals) (scopes.extend ((parts.flatMap membersOf).flatMap Member.fields))
        (lastPlace last (parts.flatMap tokensOf)) rest) := by
  induction parts generalizing scopes last with
  | nil => exact .of_valid (membersValid_nil _) (by simp)
  | cons part parts ih =>
      have hfirst := hpart part scopes last (parts.flatMap tokensOf ++ rest)
      have hmore := ih (scopes.extend ((membersOf part).flatMap Member.fields))
        (lastPlace last (tokensOf part))
      rw [Scope.Stack.entries_extend, Scope.Stack.extend_extend] at hmore
      simp only [List.flatMap_cons, List.flatMap_append, List.append_assoc, lastPlace_append]
      exact (hfirst.trans fun _ => hmore).congr (membersValid_append _ _ _).symm

theorem run_member (member : Member) :
    (run (.members true :: goals) scopes last (member.tokens ++ rest)).Answers
      (MembersValid scopes.current.entries [member])
      (run (.members true :: goals) (scopes.extend member.fields)
        (lastPlace last member.tokens) rest) := by
  obtain ⟨before, access, type, name, memberRest⟩ := member
  simp only [Member.tokens, List.append_assoc, List.cons_append, run_members_access,
    run_memberType, run_memberName, lastPlace_append, lastPlace_cons]
  cases memberRest with
  | field closing =>
      -- The name is bound before the semicolon has been seen to follow.
      have htake : (Goal.memberRest name.token).take?
          (scopes.extend [(name.token.lexeme, type.value)]) closing.token =
          .ok (some []) := by
        simp [Goal.take?, closing.kind_eq]
      have hfield := run_declare (.memberRest name.token :: .members true :: goals) scopes
        name.token.position type.value name.token (closing.token :: rest)
      have hdeclare : run (.field type.value name.token :: .memberRest name.token ::
            .members true :: goals) scopes name.token.position (closing.token :: rest) =
          run (.declare type.value name.token :: .memberRest name.token ::
            .members true :: goals) scopes name.token.position (closing.token :: rest) := by
        have hfinish : (Goal.field type.value name.token).finish scopes
            (.token closing.token) =
            (Goal.declare type.value name.token).finish scopes (.token closing.token) := by
          simp [Goal.finish, Lookahead.kind?, closing.kind_eq]
        simp only [run, settle, hfinish, Goal.take?]
      rw [run_take _ htake] at hfield
      simp only [MemberRest.tokens, List.cons_append, List.nil_append, lastPlace_cons,
        lastPlace_nil, hdeclare]
      exact hfield.congr (by simp [MembersValid, Member.fields, Member.methods])
  | method definition =>
      have hskip : (Goal.field type.value name.token).finish scopes
          (.token definition.opening.token) = .ok scopes := by
        simp [Goal.finish, Lookahead.kind?, definition.opening.kind_eq]
      have htake : (Goal.memberRest name.token).take? scopes definition.opening.token =
          .ok (some (Goal.method name.token)) := by
        simp [Goal.take?, definition.opening.kind_eq]
      have htokens : definition.tokens =
          definition.opening.token :: definition.tokens.tail := rfl
      have hmethod := run_method (.members true :: goals) scopes
        definition.opening.token.position rest name.token definition
      simp only [MemberRest.tokens]
      rw [htokens, List.cons_append, run_skip rfl hskip, run_take _ htake]
      rw [htokens, lastPlace_cons] at hmethod
      simpa [MembersValid, Member.fields, Member.methods] using hmethod

theorem run_members (members : List Member) :
    (run (.members true :: goals) scopes last
        (members.flatMap Member.tokens ++ rest)).Answers
      (MembersValid scopes.current.entries members)
      (run (.members true :: goals) (scopes.extend (members.flatMap Member.fields))
        (lastPlace last (members.flatMap Member.tokens)) rest) := by
  have hparts := run_parts goals scopes last rest (.members true) Member.tokens
    (fun member => [member])
    (fun member scopes last rest => by simpa using run_member goals scopes last rest member)
    members
  simpa using hparts

@[simp] theorem run_members_closing (closing : Leaf .rightBrace) :
    run (.members true :: goals) scopes last (closing.token :: rest) =
      run goals scopes closing.token.position rest :=
  run_take [] (by simp [Goal.take?, closing.kind_eq])

/-! ## Classes -/

theorem run_classes_access (comments : Comments) (closable : Bool)
    (mark : Mark Kind.access) :
    run (.classes closable :: goals) scopes last (comments.tokens ++ mark.token :: rest) =
      run (.word .classWord :: .className :: .expect .leftBrace :: .members true ::
        .classes true :: goals) scopes mark.token.position rest := by
  refine run_access goals scopes last rest Goal.classes
    [.word .classWord, .className, .expect .leftBrace, .members true, .classes true] mark
    ?_ ?_ comments closable
  · intro closable comment
    simp [Goal.take?, comment.kind_eq]
  · intro closable
    simp [Goal.take?, mark.kind_eq]

@[simp] theorem run_classes_closing (closing : Leaf .rightBrace) :
    run (.classes true :: goals) scopes last (closing.token :: rest) =
      run goals scopes closing.token.position rest :=
  run_take [] (by simp [Goal.take?, closing.kind_eq])

theorem run_class (declaration : ClassDeclaration) :
    (run (.classes true :: goals) scopes last (declaration.tokens ++ rest)).Answers
      (MembersValid scopes.current.entries declaration.members)
      (run (.classes true :: goals)
        (scopes.extend (declaration.members.flatMap Member.fields))
        (lastPlace last declaration.tokens) rest) := by
  obtain ⟨before, access, word, name, opening, members, closing⟩ := declaration
  have hmembers := run_members (.classes true :: goals) scopes opening.token.position
    (closing.token :: rest) members
  rw [run_members_closing] at hmembers
  simpa [ClassDeclaration.tokens, run_classes_access, Goal.word] using hmembers

theorem run_classes (classes : List ClassDeclaration) :
    (run (.classes true :: goals) scopes last
        (classes.flatMap ClassDeclaration.tokens ++ rest)).Answers
      (MembersValid scopes.current.entries (classes.flatMap ClassDeclaration.members))
      (run (.classes true :: goals)
        (scopes.extend ((classes.flatMap ClassDeclaration.members).flatMap Member.fields))
        (lastPlace last (classes.flatMap ClassDeclaration.tokens)) rest) :=
  run_parts goals scopes last rest (.classes true) ClassDeclaration.tokens
    ClassDeclaration.members (fun declaration scopes last rest =>
      run_class goals scopes last rest declaration) classes

/-! ## Programs -/

theorem run_declaration (declaration : Declaration) :
    (run (.program :: goals) scopes last (declaration.tokens ++ rest)).Answers
      (MembersValid scopes.current.entries declaration.members)
      (run (.program :: goals)
        (scopes.extend (declaration.members.flatMap Member.fields))
        (lastPlace last declaration.tokens) rest) := by
  cases declaration with
  | ofUsing word name closing =>
      have htake : Goal.program.take? scopes word.token =
          .ok (some [.expect .identifier, .expect .semicolon, .program]) := by
        simp [Goal.take?, word.kind_eq]
      apply Outcome.Answers.of_valid (by simp [Declaration.members, membersValid_nil])
      simp only [Declaration.tokens, List.cons_append, List.nil_append]
      rw [run_take _ htake]
      simp [Declaration.members]
  | ofNamespace word name opening classes closing =>
      have htake : Goal.program.take? scopes word.token =
          .ok (some [.namespaceName, .expect .leftBrace, .classes true, .program]) := by
        simp [Goal.take?, word.kind_eq]
      have hclasses := run_classes (.program :: goals) scopes opening.token.position
        (closing.token :: rest) classes
      rw [run_classes_closing] at hclasses
      simp only [Declaration.tokens, List.cons_append, List.append_assoc]
      rw [run_take _ htake]
      simpa [Declaration.members] using hclasses

theorem run_declarations (declarations : List Declaration) :
    (run (.program :: goals) scopes last
        (declarations.flatMap Declaration.tokens ++ rest)).Answers
      (MembersValid scopes.current.entries (declarations.flatMap Declaration.members))
      (run (.program :: goals)
        (scopes.extend
          ((declarations.flatMap Declaration.members).flatMap Member.fields))
        (lastPlace last (declarations.flatMap Declaration.tokens)) rest) :=
  run_parts goals scopes last rest .program Declaration.tokens Declaration.members
    (fun declaration scopes last rest => run_declaration goals scopes last rest declaration)
    declarations

end Parts

/-- A run over a whole program asks for all names of fields to be new. -/
theorem run_program (program : Program) (scopes : Scope.Stack) (last : Position) :
    (run [.program] scopes last program.tokens).Answers
      (MembersValid scopes.current.entries program.members)
      ⟨none, scopes.extend program.fields, lastPlace last program.tokens, []⟩ := by
  have hrun := run_declarations [] scopes last [] program.declarations
  rw [List.append_nil] at hrun
  exact hrun

theorem membersValid_nil_left (program : Program) :
    MembersValid [] program.members ↔ program.WellTyped := by
  rw [MembersValid, fresh_nil_left]
  rfl

end Classlet.Analysis
