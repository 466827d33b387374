import Classlet.Analysis.Analyzer
import Classlet.Proofs.Analysis.Steps
import Classlet.Proofs.Expression.Relabelling

/-!
# Relabelled programs

An analysis looks at the kinds of tokens, at which names are equal and at the last
character of a number, and at nothing else.  Of two lists of tokens that agree in
these, each step of one run is matched by a step of the other: the names in the
scopes, the names and places in goals and the place of a fault follow the tokens.
-/

namespace Classlet

open Analysis

namespace Relabelling

/-! ## Goals -/

inductive OnUse (r : Relabelling) : Use → Use → Prop where
  | discard : OnUse r .discard .discard
  | assign {target otherTarget sign other : Token} (declared : Ty)
      (h : other.position = r.places sign.position) :
      OnUse r (.assign target declared sign) (.assign otherTarget declared other)

/-- The goal keeps no token. -/
def Plain : Goal → Prop
  | .field _ _ | .memberRest _ | .enter _ | .leave _ => False
  | .initializer _ _ | .target _ | .assign _ _ | .declare _ _ | .known _ => False
  | .expression state use => state = .start ∧ use = .discard
  | _ => True

inductive OnGoal (r : Relabelling) : Goal → Goal → Prop where
  | plain {goal : Goal} (h : Plain goal) : OnGoal r goal goal
  | field (ty : Ty) {name other : Token} (h : r.OnName name other) :
      OnGoal r (.field ty name) (.field ty other)
  | memberRest {name other : Token} (h : r.OnName name other) :
      OnGoal r (.memberRest name) (.memberRest other)
  | enter {name other : Token} (h : r.OnName name other) :
      OnGoal r (.enter name) (.enter other)
  | leave {name other : Token} (h : r.OnName name other) :
      OnGoal r (.leave name) (.leave other)
  | initializer (ty : Ty) {name other : Token} (h : r.OnName name other) :
      OnGoal r (.initializer ty name) (.initializer ty other)
  | target {name other : Token} (h : r.OnName name other) :
      OnGoal r (.target name) (.target other)
  | assign (ty : Ty) {name other : Token} (h : r.OnName name other) :
      OnGoal r (.assign ty name) (.assign ty other)
  | declare (ty : Ty) {name other : Token} (h : r.OnName name other) :
      OnGoal r (.declare ty name) (.declare ty other)
  | known {name other : Token} (h : r.OnName name other) :
      OnGoal r (.known name) (.known other)
  | expression {state continued : Expression.State} {use other : Use}
      (hstate : r.OnState state continued) (huse : r.OnUse use other) :
      OnGoal r (.expression state use) (.expression continued other)

abbrev OnGoals (r : Relabelling) : List Goal → List Goal → Prop :=
  List.Forall₂ r.OnGoal

/-- What two goals do that may take a token. -/
abbrev OnTaking (r : Relabelling) :
    Except Fault (Option (List Goal)) → Except Fault (Option (List Goal)) → Prop :=
  r.OnResult (Option.Rel r.OnGoals)

section Goals

variable {r : Relabelling} {goals : List Goal} {token other : Token}

theorem onGoals_of_plain (h : ∀ goal ∈ goals, Plain goal) : r.OnGoals goals goals :=
  List.forall₂_same.mpr fun goal hgoal => .plain (h goal hgoal)

theorem onTaking_of_plain {next? : Option (List Goal)}
    (h : ∀ next, next? = some next → ∀ goal ∈ next, Plain goal) :
    r.OnTaking (.ok next?) (.ok next?) := by
  cases next? with
  | none => exact .ok .none
  | some next => exact .ok (.some (onGoals_of_plain (h next rfl)))

theorem onTaking_ite {condition : Prop} [Decidable condition] {next others : List Goal}
    (h : condition → r.OnGoals next others) :
    r.OnTaking (.ok (if condition then some next else none))
      (.ok (if condition then some others else none)) := by
  split
  · rename_i hcondition
    exact .ok (.some (h hcondition))
  · exact .ok .none

theorem onTaking_assign (htoken : r.OnToken token other) (ty : Ty)
    (target renamed : Token) :
    r.OnTaking
      (.ok (if token.kind = .assign then some [.expression .start (.assign target ty token)]
        else none))
      (.ok (if token.kind = .assign then some [.expression .start (.assign renamed ty other)]
        else none)) :=
  onTaking_ite fun _ =>
    .cons (.expression (.operand .nil) (.assign ty htoken.position)) .nil

theorem onTaking_statement? (htoken : r.OnToken token other) :
    r.OnTaking (.ok (Goal.statement? token)) (.ok (Goal.statement? other)) := by
  by_cases hname : token.kind = .identifier
  · simp only [Goal.statement?, htoken.kind, hname]
    exact .ok (.some (.cons (.target (htoken.onName hname)) (onGoals_of_plain (by simp [Plain]))))
  · have hsame : Goal.statement? other = Goal.statement? token := by
      simp only [Goal.statement?, htoken.kind]
      split <;> simp_all
    rw [hsame]
    apply onTaking_of_plain
    intro next hnext
    simp only [Goal.statement?] at hnext
    split at hnext <;> cases hnext <;>
      simp_all [Goal.condition, Goal.body, Goal.forHeader, Goal.foreachHeader, Goal.word,
        Goal.value, Plain]

theorem onTaking_expression {scopes renamed : Scope.Stack}
    (hscopes : r.OnScopes scopes renamed)
    (htoken : r.OnToken token other) {state continued : Expression.State}
    (hstate : r.OnState state continued) {use otherUse : Use} (huse : r.OnUse use otherUse) :
    r.OnTaking ((Goal.expression state use).take? scopes token)
      ((Goal.expression continued otherUse).take? renamed other) := by
  simp only [Goal.take?]
  refine (onResult_stateTake? hscopes htoken hstate).elim (fun _ _ => .error) ?_
  intro next? others? hnext
  cases hnext with
  | none => exact .ok .none
  | some hnext => exact .ok (.some (.cons (.expression hnext huse) .nil))

theorem onTaking_of_onGoal {scopes renamed : Scope.Stack}
    (hscopes : r.OnScopes scopes renamed)
    (htoken : r.OnToken token other) {goal corresponding : Goal}
    (hgoal : r.OnGoal goal corresponding) :
    r.OnTaking (goal.take? scopes token) (corresponding.take? renamed other) := by
  cases hgoal with
  | memberRest hname =>
      simp only [Goal.take?, htoken.kind]
      split
      · exact .ok (.some .nil)
      · exact .ok (.some (.cons (.enter hname) (.cons (.plain trivial) (.cons (.plain trivial)
          (.cons (.plain trivial) (.cons (.leave hname) .nil))))))
      · exact .ok .none
  | @initializer ty name renamed hname =>
      simp only [Goal.take?, htoken.kind]
      exact onTaking_assign htoken ty name renamed
  | @assign ty name renamed hname =>
      simp only [Goal.take?, htoken.kind]
      exact onTaking_assign htoken ty name renamed
  | @target name otherName hname =>
      simp only [Goal.take?, hscopes.lookup hname, htoken.kind]
      cases scopes.lookup name.lexeme with
      | none => exact .error ⟨rfl, hname.position⟩
      | some ty => exact onTaking_assign htoken ty name otherName
  | expression hstate huse => exact onTaking_expression hscopes htoken hstate huse
  | field | enter | leave | declare | known => exact .ok .none
  | plain hplain =>
      cases goal with
      | program | firstParameter | moreParameters | moreVariables | moreTargets =>
          simp only [Goal.take?, htoken.kind]
          apply onTaking_of_plain
          intro next hnext
          split at hnext <;> cases hnext <;> simp [Plain]
      | classes | members =>
          simp only [Goal.take?, htoken.kind]
          split
          · exact onTaking_ite fun _ => .nil
          · exact .ok (.some (onGoals_of_plain (by simp [Plain])))
          · exact .ok (.some (onGoals_of_plain (by simp [Plain, Goal.word])))
          · exact .ok .none
      | expect | namespaceName | className | stepOperator =>
          simp only [Goal.take?, htoken.kind]
          exact onTaking_ite fun _ => .nil
      | memberType | parameterType | counterType | elementType =>
          simp only [Goal.take?, htoken.kind]
          apply onTaking_of_plain
          intro next hnext
          simp only [Option.map_eq_some_iff] at hnext
          obtain ⟨ty, _, rfl⟩ := hnext
          simp [Plain]
      | memberName ty =>
          simp only [Goal.take?, htoken.kind]
          refine onTaking_ite fun hkind => ?_
          have hname := htoken.onName hkind
          exact .cons (.field ty hname) (.cons (.memberRest hname) .nil)
      | parameterName ty =>
          simp only [Goal.take?, htoken.kind]
          exact onTaking_ite fun hkind => .cons (.declare ty (htoken.onName hkind)) .nil
      | variableName ty =>
          simp only [Goal.take?, htoken.kind]
          refine onTaking_ite fun hkind => ?_
          have hname := htoken.onName hkind
          exact .cons (.declare ty hname)
            (.cons (.initializer ty hname) (.cons (.plain trivial) .nil))
      | targetName =>
          simp only [Goal.take?, htoken.kind]
          exact onTaking_ite fun hkind => .cons (.target (htoken.onName hkind)) .nil
      | counterName ty =>
          simp only [Goal.take?, htoken.kind]
          refine onTaking_ite fun hkind => ?_
          have hname := htoken.onName hkind
          exact .cons (.declare ty hname) (.cons (.assign ty hname) .nil)
      | stepName =>
          simp only [Goal.take?, htoken.kind]
          exact onTaking_ite fun hkind => .cons (.known (htoken.onName hkind)) .nil
      | statements afterIf =>
          simp only [Goal.take?, htoken.kind]
          split
          · exact .ok (.some .nil)
          · exact .ok (.some (onGoals_of_plain (by simp [Plain])))
          · exact onTaking_ite fun _ => onGoals_of_plain (by simp [Goal.body, Plain])
          · exact onTaking_statement? htoken
      | expression state use =>
          obtain ⟨rfl, rfl⟩ := hplain
          exact onTaking_expression hscopes htoken (.operand .nil) .discard
      | _ => exact hplain.elim

theorem onResult_bindName {scopes renamed : Scope.Stack}
    (hscopes : r.OnScopes scopes renamed)
    {name otherName : Token} (hname : r.OnName name otherName) (ty : Ty) :
    r.OnResult r.OnScopes (bindName scopes ty name) (bindName renamed ty otherName) := by
  have hlookup : renamed.current.get? otherName.lexeme = scopes.current.get? name.lexeme :=
    hscopes.lookup hname
  simp only [bindName, Scope.Stack.declare, Scope.Table.add, hlookup]
  cases scopes.current.get? name.lexeme with
  | none => exact .ok (hscopes.withCurrent (hscopes.current.append hname ty))
  | some previous => exact .error ⟨rfl, hname.position⟩

theorem onResult_resolveName {scopes renamed : Scope.Stack}
    (hscopes : r.OnScopes scopes renamed)
    {name otherName : Token} (hname : r.OnName name otherName) :
    r.OnResult r.OnScopes (resolveName scopes name) (resolveName renamed otherName) := by
  simp only [resolveName, hscopes.lookup hname]
  cases scopes.lookup name.lexeme with
  | none => exact .error ⟨rfl, hname.position⟩
  | some ty => exact .ok hscopes

theorem onResult_check {use otherUse : Use} (huse : r.OnUse use otherUse) (ty : Ty) :
    r.OnResult Eq (use.check ty) (otherUse.check ty) := by
  cases huse with
  | discard => exact .ok rfl
  | assign declared hsign =>
      simp only [Use.check]
      split
      · exact .ok rfl
      · exact .error ⟨rfl, hsign⟩

theorem onResult_finishExpression {scopes renamed : Scope.Stack}
    (hscopes : r.OnScopes scopes renamed) {ahead shown : Lookahead}
    (hahead : r.OnLookahead ahead shown) {state continued : Expression.State}
    (hstate : r.OnState state continued) {use otherUse : Use} (huse : r.OnUse use otherUse) :
    r.OnResult r.OnScopes ((Goal.expression state use).finish scopes ahead)
      ((Goal.expression continued otherUse).finish renamed shown) := by
  simp only [Goal.finish]
  refine (onResult_stateFinish hahead hstate).elim (fun _ _ => .error) ?_
  rintro ty _ rfl
  dsimp only
  exact (onResult_check huse ty).elim (fun _ _ => .error) fun _ _ _ => .ok hscopes

theorem onResult_finish {scopes renamed : Scope.Stack} (hscopes : r.OnScopes scopes renamed)
    {ahead shown : Lookahead} (hahead : r.OnLookahead ahead shown) {goal corresponding : Goal}
    (hgoal : r.OnGoal goal corresponding) :
    r.OnResult r.OnScopes (goal.finish scopes ahead) (corresponding.finish renamed shown) := by
  cases hgoal with
  | field ty hname =>
      simp only [Goal.finish, hahead.kind?]
      split
      · exact .ok hscopes
      · exact onResult_bindName hscopes hname ty
  | enter hname => exact .ok hscopes.push
  | leave hname => exact .ok hscopes.pop
  | declare ty hname => exact onResult_bindName hscopes hname ty
  | known hname => exact onResult_resolveName hscopes hname
  | initializer ty hname => exact .ok hscopes
  | target hname =>
      simp only [Goal.finish]
      refine (onResult_resolveName hscopes hname).elim (fun _ _ => .error) ?_
      intro _ _ _
      exact .error ⟨rfl, hahead.position⟩
  | memberRest | assign => exact .error ⟨rfl, hahead.position⟩
  | expression hstate huse => exact onResult_finishExpression hscopes hahead hstate huse
  | plain hplain =>
      cases goal with
      | program =>
          cases hahead with
          | token htoken => exact .error ⟨rfl, htoken.position⟩
          | ending last => exact .ok hscopes
      | expression state use =>
          obtain ⟨rfl, rfl⟩ := hplain
          exact onResult_finishExpression hscopes hahead (.operand .nil) .discard
      | field | memberRest | enter | leave | initializer | target | assign | declare | known =>
          exact hplain.elim
      | _ => exact .error ⟨rfl, hahead.position⟩

end Goals

/-! ## Steps -/

/--
The state of one run and that of the other.  The place of the last token read only
matters once no token is left.
-/
structure OnConfig (r : Relabelling) (config other : Config) : Prop where
  goals : r.OnGoals config.goals other.goals
  scopes : r.OnScopes config.scopes other.scopes
  rest : List.Forall₂ r.OnToken config.rest other.rest
  last : config.rest = [] → other.last = r.places config.last

structure OnOutcome (r : Relabelling) (outcome other : Outcome) : Prop where
  fault? : Option.Rel r.OnFault outcome.fault? other.fault?
  scopes : r.OnScopes outcome.scopes other.scopes
  rest : List.Forall₂ r.OnToken outcome.rest other.rest

section Steps

variable {r : Relabelling} {before after config other : Config} {outcome : Outcome}

theorem OnConfig.ahead (h : r.OnConfig config other) :
    r.OnLookahead config.ahead other.ahead := by
  obtain ⟨goals, scopes, last, rest⟩ := config
  obtain ⟨otherGoals, otherScopes, otherLast, otherRest⟩ := other
  cases h.rest with
  | nil =>
      obtain rfl : otherLast = r.places last := h.last rfl
      exact .ending last
  | cons htoken _ => exact .token htoken

theorem OnConfig.passes (h : r.OnConfig config other) {goal corresponding : Goal}
    (hgoal : r.OnGoal goal corresponding) (hpasses : goal.Passes config) :
    corresponding.Passes other := by
  obtain ⟨goals, scopes, last, rest⟩ := config
  obtain ⟨otherGoals, otherScopes, otherLast, otherRest⟩ := other
  intro token htoken
  cases h.rest with
  | nil => simp at htoken
  | cons hfirst _ =>
      cases htoken
      obtain ⟨_, hother, hnone⟩ :=
        (onTaking_of_onGoal h.scopes hfirst hgoal).exists_ok (hpasses _ rfl)
      cases hnone
      exact hother

theorem OnConfig.eq_cons {goal : Goal} {goals : List Goal} (h : r.OnConfig config other)
    (hgoals : config.goals = goal :: goals) :
    ∃ corresponding others, other.goals = corresponding :: others ∧
      r.OnGoal goal corresponding ∧ r.OnGoals goals others := by
  obtain ⟨corresponding, others, hgoal, hothers, heq⟩ :=
    List.forall₂_cons_left_iff.mp (hgoals ▸ h.goals)
  exact ⟨corresponding, others, heq, hgoal, hothers⟩

/-- The step lemma: a step of one run is matched by a step of the other. -/
theorem OnConfig.step (h : r.OnConfig before other) (hstep : Step before after) :
    ∃ reached, Step other reached ∧ r.OnConfig after reached := by
  cases hstep with
  | @take goal goals next scopes last token rest htake =>
      obtain ⟨otherGoals, otherScopes, otherLast, otherRest⟩ := other
      obtain ⟨hgoals, hscopes, hrest, _⟩ := h
      cases hgoals with
      | cons hgoal hgoals =>
          cases hrest with
          | cons htoken hrest =>
              obtain ⟨_, hother, hnext⟩ :=
                (onTaking_of_onGoal hscopes htoken hgoal).exists_ok htake
              cases hnext with
              | some hnext =>
                  exact ⟨_, .take hother, List.rel_append hnext hgoals, hscopes, hrest,
                    fun _ => htoken.position⟩
  | finish hgoals hpasses hfinish =>
      obtain ⟨corresponding, others, heq, hgoal, hothers⟩ := h.eq_cons hgoals
      obtain ⟨_, hother, hscopes⟩ :=
        (onResult_finish h.scopes h.ahead hgoal).exists_ok hfinish
      exact ⟨_, .finish heq (h.passes hgoal hpasses) hother, hothers, hscopes, h.rest, h.last⟩

theorem OnConfig.steps (h : r.OnConfig before other) (hsteps : Steps before after) :
    ∃ reached, Steps other reached ∧ r.OnConfig after reached := by
  induction hsteps generalizing other with
  | refl config => exact ⟨other, .refl other, h⟩
  | next first _ ih =>
      obtain ⟨middle, hfirst, hmiddle⟩ := h.step first
      obtain ⟨reached, hmore, hreached⟩ := ih hmiddle
      exact ⟨reached, .next hfirst hmore, hreached⟩

theorem OnConfig.ends (h : r.OnConfig config other) (hends : config.Ends outcome) :
    ∃ reached, other.Ends reached ∧ r.OnOutcome outcome reached := by
  cases hends with
  | met hgoals =>
      have hmet : other.goals = [] := List.forall₂_nil_left_iff.mp (hgoals ▸ h.goals)
      exact ⟨_, .met hmet, .none, h.scopes, h.rest⟩
  | @refuse goal goals token rest fault hgoals hrest hrefuse =>
      obtain ⟨corresponding, others, heq, hgoal, _⟩ := h.eq_cons hgoals
      obtain ⟨renamed, otherRest, htoken, _, hother⟩ :=
        List.forall₂_cons_left_iff.mp (hrest ▸ h.rest)
      obtain ⟨shown, hshown, hfault⟩ :=
        (onTaking_of_onGoal h.scopes htoken hgoal).exists_error hrefuse
      exact ⟨_, .refuse heq hother hshown, .some hfault, h.scopes, h.rest⟩
  | @fail goal goals fault hgoals hpasses hfail =>
      obtain ⟨corresponding, others, heq, hgoal, _⟩ := h.eq_cons hgoals
      obtain ⟨shown, hshown, hfault⟩ :=
        (onResult_finish h.scopes h.ahead hgoal).exists_error hfail
      exact ⟨_, .fail heq (h.passes hgoal hpasses) hshown, .some hfault, h.scopes, h.rest⟩

theorem OnConfig.onOutcome (h : r.OnConfig config other) :
    r.OnOutcome config.outcome other.outcome := by
  obtain ⟨final, hsteps, hends⟩ := config.exists_steps
  obtain ⟨reached, hreached, hfinal⟩ := h.steps hsteps
  obtain ⟨outcome, hends, houtcome⟩ := hfinal.ends hends
  rw [hreached.outcome_eq, hends.outcome_eq]
  exact houtcome

end Steps

end Relabelling

/-! ## Programs -/

/-- The texts of the identifiers among some tokens. -/
def Token.identifiers (tokens : List Token) : Set String :=
  {name | ∃ token ∈ tokens, token.kind = .identifier ∧ token.lexeme = name}

namespace Analysis

section Programs

variable {names : String → String} {places : Position → Position}
  {tokens others : List Token}

theorem forall₂_onToken {r : Relabelling}
    (h : List.Forall₂ (Token.Relabels r.names r.places) tokens others)
    (hknown : Token.identifiers tokens ⊆ r.known) : List.Forall₂ r.OnToken tokens others := by
  induction h with
  | nil => exact .nil
  | @cons token other tokens others hfirst _ ih =>
      refine .cons ⟨hfirst, fun hkind => hknown ⟨token, by simp, hkind, rfl⟩⟩ (ih ?_)
      rintro _ ⟨later, hlater, hkind, rfl⟩
      exact hknown ⟨later, by simp [hlater], hkind, rfl⟩

theorem onOutcome_program {r : Relabelling} (h : List.Forall₂ r.OnToken tokens others) :
    r.OnOutcome (run [.program] .empty .start tokens) (run [.program] .empty .start others) := by
  have hscopes : r.OnScopes .empty .empty := ⟨.empty, .nil⟩
  cases h with
  -- Without tokens the run ends at the start, which `places` may move, but without a fault.
  | nil => exact ⟨.none, hscopes, .nil⟩
  | @cons token other tokens others htoken hmore =>
      have hconfig : r.OnConfig ⟨[.program], .empty, .start, token :: tokens⟩
          ⟨[.program], .empty, .start, other :: others⟩ :=
        ⟨.cons (.plain trivial) .nil, hscopes, .cons htoken hmore, by simp⟩
      exact hconfig.onOutcome

theorem onResult_analyze {r : Relabelling} (h : List.Forall₂ r.OnToken tokens others) :
    r.OnResult r.OnTable (analyze tokens) (analyze others) := by
  have houtcome := onOutcome_program h
  simp only [analyze, Analyzer.program, Analyzer.ofTokens]
  generalize run [.program] .empty .start tokens = outcome at houtcome
  generalize run [.program] .empty .start others = otherOutcome at houtcome
  obtain ⟨fault?, scopes, last, rest⟩ := outcome
  obtain ⟨otherFault?, otherScopes, otherLast, otherRest⟩ := otherOutcome
  cases houtcome.fault? with
  | none => exact .ok houtcome.scopes.global
  | some hfault => exact .error hfault

/--
Relabelled tokens are accepted exactly if the tokens are, with the renamed entries;
otherwise with a fault of the same kind at the relocated place.  In both cases as
many tokens are left.
-/
theorem analyze_relabelled (hnames : Set.InjOn names (Token.identifiers tokens))
    (htokens : List.Forall₂ (Token.Relabels names places) tokens others) :
    let before := (Analyzer.ofTokens tokens).program
    let after := (Analyzer.ofTokens others).program
    ((∃ globals, after.1 = .ok globals) ↔ ∃ globals, before.1 = .ok globals) ∧
    (∀ globals renamed, before.1 = .ok globals → after.1 = .ok renamed →
      renamed.entries = globals.entries.map fun entry => (names entry.1, entry.2)) ∧
    (∀ fault shown, before.1 = .error fault → after.1 = .error shown →
      shown.kind = fault.kind ∧ shown.position = places fault.position) ∧
    after.2.rest.length = before.2.rest.length := by
  intro before after
  let r : Relabelling := ⟨Token.identifiers tokens, names, hnames, places⟩
  have hrelated : List.Forall₂ r.OnToken tokens others := forall₂_onToken htokens subset_rfl
  have houtcome := onOutcome_program hrelated
  simp only [before, after, Analyzer.program, Analyzer.ofTokens]
  generalize run [.program] .empty .start tokens = outcome at houtcome
  generalize run [.program] .empty .start others = otherOutcome at houtcome
  obtain ⟨fault?, scopes, last, rest⟩ := outcome
  obtain ⟨otherFault?, otherScopes, otherLast, otherRest⟩ := otherOutcome
  have hlength : otherRest.length = rest.length := houtcome.rest.length_eq.symm
  cases houtcome.fault? with
  | none =>
      have hentries : otherScopes.global.entries = scopes.global.entries.map r.entry :=
        houtcome.scopes.global.entries
      simp [hlength, hentries, Relabelling.entry, r]
  | some hfault => simp [hlength, hfault.kind, hfault.position, r]

end Programs

/-- Where everything is called `x`, everything can be called `y` one line below. -/
theorem analyze_relabelled_duplicate :
    let names : String → String := fun _ => "y"
    let places : Position → Position := fun place => ⟨place.line + 1, place.column⟩
    let field : Nat → List Token := fun line =>
      [⟨.access .publicAccess, "public", ⟨line, 1⟩⟩, ⟨.type .int, "int", ⟨line, 8⟩⟩,
        ⟨.identifier, "x", ⟨line, 12⟩⟩, ⟨.semicolon, ";", ⟨line, 13⟩⟩]
    let tokens : List Token :=
      [⟨.word .namespaceWord, "namespace", ⟨1, 1⟩⟩, ⟨.identifier, "x", ⟨1, 11⟩⟩,
        ⟨.leftBrace, "\x7b", ⟨1, 13⟩⟩, ⟨.access .publicAccess, "public", ⟨2, 1⟩⟩,
        ⟨.word .classWord, "class", ⟨2, 8⟩⟩, ⟨.identifier, "x", ⟨2, 14⟩⟩,
        ⟨.leftBrace, "\x7b", ⟨2, 16⟩⟩] ++ field 3 ++ field 4
    let others : List Token := tokens.map fun token =>
      ⟨token.kind, if token.kind = .identifier then "y" else "", places token.position⟩
    let before := (Analyzer.ofTokens tokens).program
    let after := (Analyzer.ofTokens others).program
    before.1 = .error (.duplicate ⟨.identifier, "x", ⟨4, 12⟩⟩ .int) ∧
    Set.InjOn names (Token.identifiers tokens) ∧
    List.Forall₂ (Token.Relabels names places) tokens others ∧
    ((∃ globals, after.1 = .ok globals) ↔ ∃ globals, before.1 = .ok globals) ∧
    (∀ globals renamed, before.1 = .ok globals → after.1 = .ok renamed →
      renamed.entries = globals.entries.map fun entry => (names entry.1, entry.2)) ∧
    (∀ fault shown, before.1 = .error fault → after.1 = .error shown →
      shown.kind = fault.kind ∧ shown.position = places fault.position) ∧
    after.2.rest.length = before.2.rest.length := by
  intro names places field tokens others before after
  have hname : ∀ token ∈ tokens, token.kind = .identifier → token.lexeme = "x" := by decide
  have hnumber : ∀ token ∈ tokens, token.kind ≠ .number := by decide
  have hnames : Set.InjOn names (Token.identifiers tokens) := by
    rintro _ ⟨token, htoken, hkind, rfl⟩ _ ⟨other, hother, hotherKind, rfl⟩ _
    rw [hname token htoken hkind, hname other hother hotherKind]
  have htokens : List.Forall₂ (Token.Relabels names places) tokens others := by
    rw [List.forall₂_map_right_iff]
    refine List.forall₂_same.mpr fun token htoken => ⟨rfl, rfl, fun hkind => if_pos hkind, ?_⟩
    intro hkind
    exact absurd hkind (hnumber token htoken)
  exact ⟨rfl, hnames, htokens, analyze_relabelled hnames htokens⟩

end Analysis

end Classlet
