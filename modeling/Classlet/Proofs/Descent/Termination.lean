import Classlet.Proofs.Descent.Agreement
import Classlet.Scan.Scanner

/-!
# Termination

Every rule that a loop calls fails or takes a token, no rule goes back, and what is
nested in a statement or a factor is reached behind a token of its own.  So the rules
end for all inputs, and as they are what the analysis does, so does the analysis.  Up to
a closing brace classes and members come in rounds that do not look for the end of the
text: there they end since the access modifier is missing that each of them begins with.
-/

namespace Classlet.Descent

open Analysis (Analyzer Goal Outcome run)
open Grammar (operatorsAt)

/-! ## Nested rules -/

/-- The rule, but only where fewer tokens are to come than where `start` stands. -/
def behind {α : Type} (start : Analyzer) (rule : Rule α) : Rule α := fun analyzer =>
  if analyzer.left < start.left then rule analyzer else none

/-- The rules do the same where fewer than `count` tokens are to come. -/
def SameBelow {α : Type} (count : Nat) (rule other : Rule α) : Prop :=
  ∀ analyzer : Analyzer, analyzer.left < count → rule analyzer = other analyzer

section Nested

variable {α β : Type} {count bound : Nat} {start : Analyzer} {rule : Nat → Rule α}
variable {next others : α → Rule β} {changed : Rule α}

theorem SameBelow.refl (rule : Rule α) : SameBelow count rule rule := fun _ _ => rfl

theorem sameBelow_behind (start : Analyzer) (rule : Rule α) :
    SameBelow start.left (behind start rule) rule := fun _ hless => if_pos hless

theorem bind_congr {first other : Rule α} {here there : Analyzer}
    (h : first here = other there)
    (hnext : ∀ result after, other there = some (.ok result, after) →
      next result after = others result after) :
    (first >>= next) here = (other >>= others) there := by
  match hother : other there with
  | none => rw [bind_none (h.trans hother), bind_none hother]
  | some (.error fault, after) => rw [bind_error (h.trans hother), bind_error hother]
  | some (.ok result, after) =>
      rw [bind_ok (h.trans hother), bind_ok hother]
      exact hnext result after hother

/-- Rules that move stay where the rules that come next are the same. -/
theorem SameBelow.bind (h : SameBelow count changed (rule bound))
    (hmoves : Moves count rule)
    (hbound : count ≤ bound) (hnext : ∀ result, SameBelow count (next result) (others result)) :
    SameBelow count (changed >>= next) (rule bound >>= others) := by
  intro analyzer hless
  refine bind_congr (h analyzer hless) fun result after hrule => ?_
  obtain ⟨verdict, stop, hends, honward, -⟩ := hmoves analyzer hless
  cases (hends bound hbound).symm.trans hrule
  exact hnext result after (Nat.lt_of_le_of_lt honward.left_le hless)

/-- Behind a token of its own a rule is where fewer tokens are to come. -/
theorem same_of_advances (hadvances : Advances (start.left + 1) rule)
    (hbound : start.left < bound)
    (hnext : ∀ result, SameBelow start.left (next result) (others result)) :
    (rule bound >>= next) start = (rule bound >>= others) start := by
  refine bind_congr rfl fun result after hrule => ?_
  obtain ⟨verdict, stop, hends, honward, hless⟩ := hadvances start (Nat.lt_succ_self _)
  cases (hends bound hbound).symm.trans hrule
  exact hnext result after (hless result rfl)

end Nested

/-- The group that a factor opens is read behind its parenthesis. -/
theorem factorOf_behind (analyzer : Analyzer) (nested : Rule Ty) :
    factorOf (behind analyzer nested) analyzer = factorOf nested analyzer := by
  have htake : Ends 0 (fun _ => take? (ofKind? .leftParen)) analyzer fun found? after =>
      found?.isSome → after.left < analyzer.left := ends_take? _ analyzer
  obtain ⟨verdict, stop, hends, -, hless⟩ := htake
  refine bind_congr rfl fun found? after hrule => ?_
  cases (hends 0 (Nat.le_refl 0)).symm.trans hrule
  cases found? with
  | some opening => exact bind_congr (if_pos (hless _ rfl rfl)) fun _ _ _ => rfl
  | none => rfl

section Statements

variable {bound : Nat} {analyzer : Analyzer}

theorem ifStatement_behind (hbound : analyzer.left < bound) :
    ifStatement bound (behind analyzer (block bound)) analyzer =
      ifStatement bound (block bound) analyzer := by
  have hblock := sameBelow_behind analyzer (block bound)
  have helse : Moves analyzer.left fun _ => take? (ofKind? (.word .elseWord)) :=
    moves_take? _
  have hle := Nat.le_of_lt hbound
  refine same_of_advances (advances_expect _) hbound fun _ => ?_
  refine (SameBelow.refl _).bind moves_condition hle fun _ => ?_
  refine hblock.bind advances_block.moves hle fun _ => ?_
  refine (SameBelow.refl _).bind helse hle fun found? => ?_
  cases found? with
  | some word => exact hblock
  | none => exact .refl _

theorem whileStatement_behind (hbound : analyzer.left < bound) :
    whileStatement bound (behind analyzer (block bound)) analyzer =
      whileStatement bound (block bound) analyzer := by
  refine same_of_advances (advances_expect _) hbound fun _ => ?_
  exact (SameBelow.refl _).bind moves_condition (Nat.le_of_lt hbound) fun _ => sameBelow_behind _ _

theorem forStatement_behind (hbound : analyzer.left < bound) :
    forStatement bound (behind analyzer (block bound)) analyzer =
      forStatement bound (block bound) analyzer := by
  refine same_of_advances (advances_expect _) hbound fun _ => ?_
  exact (SameBelow.refl _).bind moves_forHeader (Nat.le_of_lt hbound) fun _ => sameBelow_behind _ _

theorem doStatement_behind (hbound : analyzer.left < bound) :
    doStatement bound (behind analyzer (block bound)) analyzer =
      doStatement bound (block bound) analyzer := by
  refine same_of_advances (advances_expect _) hbound fun _ => ?_
  refine (sameBelow_behind _ _).bind advances_block.moves (Nat.le_of_lt hbound) fun _ => ?_
  exact .refl _

theorem foreachStatement_behind (hbound : analyzer.left < bound) :
    foreachStatement bound (behind analyzer (block bound)) analyzer =
      foreachStatement bound (block bound) analyzer := by
  have hle := Nat.le_of_lt hbound
  refine same_of_advances (advances_expect _) hbound fun _ => ?_
  exact (SameBelow.refl _).bind moves_foreachHeader hle fun _ => sameBelow_behind _ _

/-- The blocks in a statement are read behind the word that it begins with. -/
theorem statementOf_behind (hbound : analyzer.left < bound) :
    statementOf bound (behind analyzer (block bound)) analyzer = statement bound analyzer := by
  refine bind_congr rfl fun kind? after hahead => ?_
  cases hahead
  cases analyzer.ahead.kind? with
  | none => rfl
  | some kind =>
      cases kind with
      | word reserved =>
          cases reserved with
          | ifWord => exact ifStatement_behind hbound
          | whileWord => exact whileStatement_behind hbound
          | forWord => exact forStatement_behind hbound
          | doWord => exact doStatement_behind hbound
          | foreachWord => exact foreachStatement_behind hbound
          | _ => rfl
      | _ => rfl

end Statements

/-! ## The end of the text -/

section Ending

variable {analyzer : Analyzer}

/-- Where there are no more than comments, an access modifier is missed at the end. -/
theorem access_of_comments (h : ∀ token ∈ analyzer.rest, token.kind.isComment = true) :
    ∃ after, access analyzer = some (.error (.unexpected .access (.ending after.last)), after) ∧
      after.rest = [] := by
  obtain ⟨last, rest, scopes⟩ := analyzer
  induction rest generalizing last with
  | nil => exact ⟨_, (bind_ok skipComments_nil).trans (bind_error (take_none nofun)), rfl⟩
  | cons token rest ih =>
      obtain ⟨hcomment, hcomments⟩ := List.forall_mem_cons.mp h
      obtain ⟨after, hafter, hrest⟩ := ih token.position hcomments
      refine ⟨after, ?_, hrest⟩
      rw [← hafter]
      exact bind_congr (skipComments_comment hcomment) fun _ _ _ => rfl

/--
At the end of the text the rounds up to a closing brace end with a fault of syntax, by the
rule and in the analysis.
-/
def FailsAtEnd (goal : Goal) (rule : Rule Unit) (analyzer : Analyzer) : Prop :=
  ∃ fault after, fault = .unexpected .access (.ending after.last) ∧ fault.kind = .syntactic ∧
    after.rest = [] ∧ rule analyzer = some (.error fault, after) ∧
    ∀ goals, (run (goal :: goals) analyzer.scopes analyzer.last analyzer.rest).fault? = some fault

theorem failsAtEnd {goal : Goal} {rule : Rule Unit} {bound : Nat}
    {later : List Goal → List Goal}
    (hrule : ∀ analyzer fault after, access analyzer = some (.error fault, after) →
      rule analyzer = some (.error fault, after))
    (hmeets : ∀ goals, Meets (goal :: goals) (loop (fun _ => untilBrace rule) (bound + 1) ())
      fun _ => later goals)
    (h : ∀ token ∈ analyzer.rest, token.kind.isComment = true) :
    FailsAtEnd goal (loop (fun _ => untilBrace rule) (bound + 1) ()) analyzer := by
  obtain ⟨after, haccess, hrest⟩ := access_of_comments h
  have hbrace : analyzer.ahead.kind? ≠ some .rightBrace := by
    obtain ⟨last, rest, scopes⟩ := analyzer
    cases rest with
    | nil => exact nofun
    | cons token rest =>
        intro hkind
        have hcomment := h token List.mem_cons_self
        rw [Option.some.inj hkind] at hcomment
        cases hcomment
  have hround : untilBrace rule analyzer =
      some (.error (.unexpected .access (.ending after.last)), after) := by
    refine (bind_ok rfl).trans ?_
    rw [if_neg hbrace]
    exact bind_error (hrule _ _ _ haccess)
  have hloop :=
    (bind_error hround : loop (fun _ => untilBrace rule) (bound + 1) () analyzer = _)
  refine ⟨_, after, rfl, rfl, hrest, hloop, fun goals => ?_⟩
  have hmeeting := (hmeets goals analyzer _ _ hloop).1
  have houtcome : (run (goal :: goals ++ []) analyzer.scopes analyzer.last analyzer.rest).fault? =
      some _ := congrArg Outcome.fault? (congrFun hmeeting [])
  rwa [List.append_nil] at houtcome

end Ending

/-! ## All rules -/

/-- The rules that loops call, and the rounds of the layers. -/
structure RoundsAdvance (limit : Nat) : Prop where
  usings : Advances limit fun _ => usingRule
  namespaces : Advances limit namespaceRule
  classes : Advances limit classRule
  members : Advances limit member
  statements : Advances limit statement
  parameters : Advances limit fun _ => parameter
  declarators (ty : Ty) : Advances limit fun bound => declarator bound ty
  assignments : Advances limit assignment
  operations (layer : Nat) (left : Ty) : Rounds limit fun bound =>
    operation (operatorsAt layer) (phrase bound (factor bound) (6 - layer)) left

theorem roundsAdvance (limit : Nat) : RoundsAdvance limit where
  usings := advances_usingRule
  namespaces := advances_namespaceRule
  classes := advances_classRule
  members := advances_member
  statements := advances_statement
  parameters := advances_parameter
  declarators := advances_declarator
  assignments := advances_assignment
  operations _ left := rounds_operation _ (advances_phrase advances_factor _).moves left

/-- The rules around those. -/
structure RulesMove (limit : Nat) : Prop where
  program : Moves limit program
  classes {analyzer : Analyzer} : analyzer.left < limit →
    Ends limit classes analyzer fun _ after => after.ahead.kind? = some .rightBrace
  members {analyzer : Analyzer} : analyzer.left < limit →
    Ends limit members analyzer fun _ after => after.ahead.kind? = some .rightBrace
  method : Moves limit method
  methodRest : Moves limit methodRest
  parameters : Moves limit parameters
  block : Moves limit block
  localVariables : Moves limit localVariables
  assignments : Moves limit assignments
  ifStatement : Moves limit fun bound => ifStatement bound (Descent.block bound)
  whileStatement : Moves limit fun bound => whileStatement bound (Descent.block bound)
  forStatement : Moves limit fun bound => forStatement bound (Descent.block bound)
  doStatement : Moves limit fun bound => doStatement bound (Descent.block bound)
  foreachStatement : Moves limit fun bound => foreachStatement bound (Descent.block bound)
  condition : Moves limit condition
  phrases (tighter : Nat) : Moves limit fun bound => phrase bound (factor bound) tighter
  access : Moves limit fun _ => access
  type : Moves limit fun _ => type
  expect (kind : Kind) : Moves limit fun _ => expect kind
  skipComments : Moves limit fun _ => skipComments
  declare (ty : Ty) (name : Token) : Moves limit fun _ => declare ty name
  resolve (name : Token) : Moves limit fun _ => resolve name

theorem rulesMove (limit : Nat) : RulesMove limit where
  program := moves_program
  classes := ends_loop_untilBrace advances_classRule
  members := ends_loop_untilBrace advances_member
  method := advances_method.moves
  methodRest := advances_methodRest.moves
  parameters := moves_parameters
  block := advances_block.moves
  localVariables := advances_localVariables.moves
  assignments := advances_assignments.moves
  ifStatement := (advances_ifStatement advances_block.moves).moves
  whileStatement := (advances_whileStatement advances_block.moves).moves
  forStatement := (advances_forStatement advances_block.moves).moves
  doStatement := (advances_doStatement advances_block.moves).moves
  foreachStatement := (advances_foreachStatement advances_block.moves).moves
  condition := moves_condition
  phrases tighter := (advances_phrase advances_factor tighter).moves
  access := advances_access.moves
  type := advances_type.moves
  expect kind := (advances_expect kind).moves
  skipComments := moves_skipComments
  declare := moves_declare
  resolve := moves_resolve

/-- What the rules read is what the analysis reads with the goals for it. -/
structure RulesMeet (bound : Nat) (goals : List Goal) : Prop where
  declarations : Meets [.program] (declaration bound) fun next? =>
    next?.elim [] fun _ => [.program]
  namespaces : Meets (.word .namespaceWord :: .namespaceName :: .expect .leftBrace ::
    .classes true :: goals) (namespaceRule bound) fun _ => goals
  usings : Meets (.word .usingWord :: .expect .identifier :: .expect .semicolon :: goals)
    usingRule fun _ => goals
  classes : Meets (.classes false :: goals) (classRule bound) fun _ => .classes true :: goals
  members : Meets (.members false :: goals) (member bound) fun _ => .members true :: goals
  statements : Meets (.statements false :: goals) (nextStatement (statement bound)) fun next? =>
    next?.elim (.expect .rightBrace :: goals) fun _ => .statements false :: goals
  parameters : Meets (.parameterType :: .moreParameters :: goals) parameter fun next? =>
    next?.elim (.expect .rightParen :: goals) fun _ => .parameterType :: .moreParameters :: goals
  declarators (ty : Ty) : Meets (.variableName ty :: goals) (declarator bound ty) fun next? =>
    next?.elim (.expect .semicolon :: goals) fun _ => .variableName ty :: goals
  assignments : Meets (.targetName :: .moreTargets :: goals) (assignment bound) fun next? =>
    next?.elim (.expect .semicolon :: goals) fun _ => .targetName :: .moreTargets :: goals
  phrases {layer tighter : Nat} : layer + tighter = 7 →
    ReadsLayer layer (phrase bound (factor bound) tighter)

theorem rulesMeet (bound : Nat) (goals : List Goal) : RulesMeet bound goals where
  declarations := meets_declaration bound
  namespaces := meets_namespaceRule bound goals
  usings := meets_usingRule goals
  classes := meets_classRule bound goals
  members := meets_member bound goals
  statements := meets_nextStatement (meets_block bound) goals
  parameters := meets_parameter goals
  declarators ty := meets_declarator ty goals
  assignments := meets_assignment goals
  phrases := readsLayer_phrase (readsLayer_factor bound) bound

theorem expression_eq_some {bound : Nat} {analyzer : Analyzer}
    (hbound : analyzer.left < bound) :
    expression bound analyzer = some analyzer.expression := by
  obtain ⟨verdict, after, hends, -⟩ := advances_expression analyzer (Nat.lt_succ_self _)
  rw [hends bound hbound, expression_of_some (hends bound hbound)]

/--
Wherever it begins, each rule that a loop calls ends, and it fails or takes a token; no
other rule goes back or does not end.  What is nested in a statement or a factor is
reached with fewer tokens to come, and the rounds of classes and members fail at the
end of the text.  The rules are what the analysis does with its goals, so with a bound
above the number of tokens they answer each request as an analyzer does.
-/
theorem rules_end_onward :
    (∀ limit, RoundsAdvance limit ∧ RulesMove limit) ∧
    (∀ (bound : Nat) (analyzer : Analyzer), analyzer.left < bound →
      statementOf bound (behind analyzer (block bound)) analyzer = statement bound analyzer ∧
      factorOf (behind analyzer (expression bound)) analyzer = factor (bound + 1) analyzer) ∧
    (∀ (bound : Nat) (analyzer : Analyzer),
      (∀ token ∈ analyzer.rest, token.kind.isComment = true) →
        FailsAtEnd (.classes true) (classes (bound + 1)) analyzer ∧
        FailsAtEnd (.members true) (members (bound + 1)) analyzer) ∧
    (∀ (bound : Nat) (goals : List Goal), RulesMeet bound goals) ∧
    ∀ (tokens : List Token) (requests : List Analysis.Request) (bound : Nat),
      let analyzer := (Analyzer.ofTokens tokens).serveAll requests
      analyzer.left < bound → program bound analyzer = some analyzer.program ∧
        expression bound analyzer = some analyzer.expression := by
  refine ⟨fun limit => ⟨roundsAdvance limit, rulesMove limit⟩, fun bound analyzer hbound => ?_,
    fun bound analyzer hcomments => ?_, rulesMeet, ?_⟩
  · exact ⟨statementOf_behind hbound, factorOf_behind analyzer (expression bound)⟩
  · exact ⟨failsAtEnd (fun _ _ _ => bind_error) (meets_classes (bound + 1)) hcomments,
      failsAtEnd (fun _ _ _ => bind_error) (meets_members (bound + 1)) hcomments⟩
  · intro tokens requests bound analyzer hbound
    obtain ⟨hlocals, -⟩ := (Analyzer.ofTokens tokens).serveAll_keeps rfl requests
    exact ⟨program_eq_some hlocals hbound, expression_eq_some hbound⟩

theorem rules_end_onward_unclosed :
    let tokens := Scan.tokens "namespace A \x7b // open"
    let analyzer := Analyzer.ofTokens tokens
    let inside : Analyzer := ⟨⟨1, 13⟩, tokens.drop 3, .empty⟩
    program 5 analyzer =
        some (.error (.unexpected .access (.ending ⟨1, 15⟩)), ⟨⟨1, 15⟩, [], .empty⟩) ∧
      FailsAtEnd (.classes true) (classes 5) inside ∧
      statementOf 5 (behind analyzer (block 5)) analyzer = statement 5 analyzer := by
  intro tokens analyzer inside
  have hleft : analyzer.left < 5 := by decide +kernel
  have hcomments : ∀ token ∈ inside.rest, token.kind.isComment = true := by decide +kernel
  obtain ⟨-, hbehind, hending, -, hanswers⟩ := rules_end_onward
  obtain ⟨hprogram, -⟩ := hanswers tokens [] 5 hleft
  have hfault : analyzer.outcome.fault? = some (.unexpected .access (.ending ⟨1, 15⟩)) := by
    decide +kernel
  have hstop : Analyzer.mk analyzer.outcome.last analyzer.outcome.rest
      analyzer.outcome.scopes.closeAll = ⟨⟨1, 15⟩, [], .empty⟩ := by
    decide +kernel
  have hanswer := Analyzer.program_of_fault?_some hfault
  rw [hstop] at hanswer
  exact ⟨hprogram.trans (congrArg some hanswer), (hending 4 inside hcomments).1,
    (hbehind 5 analyzer hleft).1⟩

end Classlet.Descent
