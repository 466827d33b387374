import Classlet.Analysis.Analyzer
import Classlet.Proofs.Analysis.Headings
import Classlet.Proofs.Analysis.Layers
import Classlet.Proofs.Analysis.Requests
import Classlet.Proofs.Analysis.Viability

/-!
# Thinning out comments

A run over a text and one over the same text without some of its comments stay in
step.  In front of a comment that only the first one sees, three things can happen:
the goal takes the comment and is then as strict as if it had not, the goal fails
for a reason that does not depend on what comes next, or the comment will turn out
to be a syntax error.  The exception is a name after a type in a class: it is bound
as a field in front of a comment, but not in front of a parenthesis.
-/

namespace Classlet

/-! ## Fewer comments -/

/-- The second list is the first one without some of its comments. -/
inductive Thinned : List Token → List Token → Prop where
  | nil : Thinned [] []
  | keep (token : Token) {tokens others : List Token} (h : Thinned tokens others) :
      Thinned (token :: tokens) (token :: others)
  | drop {token : Token} (hcomment : token.kind.isComment = true) {tokens others : List Token}
      (h : Thinned tokens others) : Thinned (token :: tokens) others

namespace Thinned

variable {tokens others more rest : List Token} {token other : Token}

theorem refl (tokens : List Token) : Thinned tokens tokens := by
  induction tokens with
  | nil => exact .nil
  | cons token _ ih => exact .keep token ih

theorem append (h : Thinned tokens others) (hmore : Thinned more rest) :
    Thinned (tokens ++ more) (others ++ rest) := by
  induction h with
  | nil => exact hmore
  | keep token _ ih => exact .keep token ih
  | drop hcomment _ ih => exact .drop hcomment ih

theorem reverse (h : Thinned tokens others) : Thinned tokens.reverse others.reverse := by
  induction h with
  | nil => exact .nil
  | keep token _ ih =>
      rw [List.reverse_cons, List.reverse_cons]
      exact ih.append (.keep token .nil)
  | drop hcomment _ ih =>
      rw [List.reverse_cons]
      have hlast := ih.append (.drop hcomment .nil)
      rwa [List.append_nil] at hlast

/-- At their fronts, the lists have the same token, or that of the first one is dropped. -/
theorem head?_eq_or_comment (h : Thinned tokens others) :
    tokens.head? = others.head? ∨
      ∃ comment rest, tokens = comment :: rest ∧ comment.kind.isComment = true := by
  cases h with
  | nil => exact .inl rfl
  | keep token _ => exact .inl rfl
  | drop hcomment _ => exact .inr ⟨_, _, rfl, hcomment⟩

/-- At their ends, the lists have the same token if it is no comment. -/
theorem of_concat (h : Thinned (tokens ++ [token]) (others ++ [other]))
    (htoken : token.kind.isComment = false) : token = other ∧ Thinned tokens others := by
  have hreverse := h.reverse
  rw [List.reverse_concat, List.reverse_concat] at hreverse
  cases hreverse with
  | keep _ hrest =>
      have hforward := hrest.reverse
      rw [List.reverse_reverse, List.reverse_reverse] at hforward
      exact ⟨rfl, hforward⟩
  | drop hcomment _ =>
      rw [htoken] at hcomment
      cases hcomment

end Thinned

/-! ## Expressions in front of a comment -/

namespace Expression

section Completed

variable {frames waiting : List Frame} {ty left : Ty} {fault : Fault}

theorem reduce_of_tightest (h : reduce Operator.tightest frames ty = .ok (waiting, left))
    {level : Nat} (hlevel : level ≤ Operator.tightest) :
    reduce level waiting left = reduce level frames ty := by
  rw [← reduce_reduce hlevel frames, h]
  rfl

/-- The tightest operation may be completed before the next token or with it. -/
theorem take?_of_tightest (h : reduce Operator.tightest frames ty = .ok (waiting, left))
    (scopes : Scope.Stack) (token : Token) :
    (State.operator waiting left).take? scopes token =
      (State.operator frames ty).take? scopes token := by
  simp only [State.take?, reduce_of_tightest h (Nat.le_refl _),
    reduce_of_tightest h (Nat.zero_le _), reduce_of_tightest h (level_le_tightest _)]

theorem finish_of_tightest (h : reduce Operator.tightest frames ty = .ok (waiting, left))
    (ahead : Lookahead) :
    (State.operator waiting left).finish ahead = (State.operator frames ty).finish ahead := by
  simp only [State.finish, reduce_of_tightest h (Nat.zero_le _)]

theorem reduce_error_of_tightest (h : reduce Operator.tightest frames ty = .error fault)
    {level : Nat} (hlevel : level ≤ Operator.tightest) :
    reduce level frames ty = .error fault := by
  rw [← reduce_reduce hlevel frames, h]
  rfl

/-- If the tightest operation does not fit, this shows whatever comes next. -/
theorem error_of_tightest (h : reduce Operator.tightest frames ty = .error fault)
    (scopes : Scope.Stack) (token : Token) :
    (State.operator frames ty).take? scopes token = .error fault ∨
      (State.operator frames ty).take? scopes token = .ok none := by
  simp only [State.take?]
  split
  · exact .inl (by rw [h])
  · exact .inl (by rw [reduce_error_of_tightest h (level_le_tightest _)])
  · exact .inl (by rw [reduce_error_of_tightest h (Nat.zero_le _)])
  · exact .inr rfl

theorem finish_error_of_tightest (h : reduce Operator.tightest frames ty = .error fault)
    (ahead : Lookahead) : (State.operator frames ty).finish ahead = .error fault := by
  simp only [State.finish, reduce_error_of_tightest h (Nat.zero_le _)]

end Completed

end Expression

namespace Analysis

open Expression (reduce Frame)

/-! ## Goals in step -/

/-- The first goal is the second one, perhaps after it has taken a comment. -/
inductive Resumes : Goal → Goal → Prop where
  | same (goal : Goal) : Resumes goal goal
  | classes : Resumes (.classes false) (.classes true)
  | members : Resumes (.members false) (.members true)
  | statements : Resumes (.statements false) (.statements true)
  | expression {frames waiting : List Frame} {ty left : Ty} (use : Use)
      (h : reduce Operator.tightest frames ty = .ok (waiting, left)) :
      Resumes (.expression (.operator waiting left) use) (.expression (.operator frames ty) use)

section Goals

variable {goal other : Goal} {goals next : List Goal} {scopes after : Scope.Stack}
variable {token comment : Token} {ahead : Lookahead} {fault : Fault}

theorem Resumes.take (h : Resumes goal other)
    (htake : goal.take? scopes token = .ok (some next)) :
    other.take? scopes token = .ok (some next) := by
  cases h with
  | same => exact htake
  | classes | members =>
      simp only [Goal.take?, Except.ok.injEq] at htake ⊢
      split at htake <;> simp_all
  | statements =>
      simp only [Goal.take?, Except.ok.injEq] at htake ⊢
      split at htake <;> simp_all
  | expression use h =>
      simpa only [Goal.take?, Expression.take?_of_tightest h] using htake

/--
Goals in step do the same, but that one of them may ask for more and refuse the token.
-/
theorem Resumes.same_or_refuses (h : Resumes goal other) :
    ((∀ token, goal.take? scopes token = other.take? scopes token) ∧
        ∀ ahead, goal.finish scopes ahead = other.finish scopes ahead) ∨
      (∀ token fault, goal.take? scopes token ≠ .error fault) ∧
        ∀ ahead, ∃ wanted, goal.finish scopes ahead = .error (.unexpected wanted ahead) := by
  cases h with
  | same => exact .inl ⟨fun _ => rfl, fun _ => rfl⟩
  | classes | members | statements =>
      refine .inr ⟨fun token fault h => ?_, fun ahead => ⟨_, rfl⟩⟩
      cases h
  | expression use h =>
      refine .inl ⟨fun token => ?_, fun ahead => ?_⟩
      · simp only [Goal.take?, Expression.take?_of_tightest h]
      · simp only [Goal.finish, Expression.finish_of_tightest h]

/-- The end of the text is the same wherever it is, but for a fault about it. -/
theorem Goal.finish_ending (goal : Goal) (scopes : Scope.Stack) (last last' : Position) :
    (∃ wanted, goal.finish scopes (.ending last) = .error (.unexpected wanted (.ending last))) ∨
      goal.finish scopes (.ending last) = goal.finish scopes (.ending last') := by
  cases goal with
  | program | field | enter | leave | declare | known | initializer => exact .inr rfl
  | target name =>
      simp only [finish]
      cases resolveName scopes name with
      | ok _ => exact .inl ⟨_, rfl⟩
      | error fault => exact .inr rfl
  | expression state use =>
      cases state with
      | operand frames => exact .inl ⟨_, rfl⟩
      | operator frames ty =>
          simp only [finish, Expression.State.finish]
          cases reduce 0 frames ty with
          | error fault => exact .inr rfl
          | ok reached =>
              obtain ⟨waiting, whole⟩ := reached
              cases waiting with
              | nil => exact .inr rfl
              | cons frame waiting => exact .inl ⟨_, rfl⟩
  | _ => exact .inl ⟨_, rfl⟩

/-- What goals do in front of a comment that they do not take. -/
inductive Goal.Meets (goals : List Goal) (scopes : Scope.Stack) (comment : Token) :
    Goal → Prop where
  | fails {goal : Goal} (wanted : Wanted)
      (h : goal.finish scopes (.token comment) = .error (.unexpected wanted (.token comment))) :
      Meets goals scopes comment goal
  | regardless {goal : Goal} (htake : ∀ token, goal.take? scopes token = .ok none)
      (hfinish : ∀ ahead, goal.finish scopes ahead = goal.finish scopes (.token comment)) :
      Meets goals scopes comment goal
  | initializer (ty : Ty) (name : Token) (h : goals.head? = some (.moreVariables ty)) :
      Meets goals scopes comment (.initializer ty name)
  | field (ty : Ty) (name : Token) (h : goals.head? = some (.memberRest name)) :
      Meets goals scopes comment (.field ty name)

theorem Goal.meets_comment (hleads : goal.Leads goals)
    (hcomment : comment.kind.isComment = true)
    (h : goal.take? scopes comment = .ok none) : goal.Meets goals scopes comment := by
  cases goal with
  | enter | leave | declare | known => exact .regardless (fun _ => rfl) fun _ => rfl
  | initializer ty name => exact .initializer ty name hleads
  | field ty name => exact .field ty name hleads
  | target name =>
      simp only [take?] at h
      split at h
      · cases h
      · rename_i ty hlookup
        refine .fails (.kind .assign) ?_
        simp [finish, resolveName, hlookup]
  | expression state use =>
      cases state with
      | operand frames => exact .fails .expression rfl
      | operator frames ty =>
          cases hkind : comment.kind with
          | comment style =>
              simp only [take?, Expression.State.take?, hkind] at h
              split at h
              · rename_i hreduce
                split at hreduce <;> cases hreduce
                cases h
              · cases h
          | _ => simp [hkind, Kind.isComment] at hcomment
  | _ => exact .fails _ rfl

/-- A goal that fails at a comment fails wherever it stands. -/
theorem Goal.refuses_of_comment (hcomment : comment.kind.isComment = true)
    (h : goal.take? scopes comment = .error fault) :
    (∀ token, goal.take? scopes token = .error fault ∨ goal.take? scopes token = .ok none) ∧
      ∀ ahead, goal.finish scopes ahead = .error fault := by
  cases goal with
  | target name =>
      cases hlookup : scopes.lookup name.lexeme with
      | none =>
          simp only [take?, hlookup, Except.error.injEq] at h
          subst h
          refine ⟨fun token => .inl ?_, fun ahead => ?_⟩
          · simp [take?, hlookup]
          · simp [finish, resolveName, hlookup]
      | some ty => simp [take?, hlookup] at h
  | expression state use =>
      cases hkind : comment.kind with
      | comment style =>
          cases state with
          | operand frames =>
              simp [take?, Expression.State.take?, Expression.operandType?, hkind] at h
          | operator frames ty =>
              cases hreduce : reduce Operator.tightest frames ty with
              | ok reached => simp [take?, Expression.State.take?, hkind, hreduce] at h
              | error first =>
                  simp only [take?, Expression.State.take?, hkind, hreduce,
                    Except.error.injEq] at h
                  subst h
                  refine ⟨fun token => ?_, fun ahead => ?_⟩
                  · rcases Expression.error_of_tightest hreduce scopes token with htake | htake
                    · exact .inl (by simp [take?, htake])
                    · exact .inr (by simp [take?, htake])
                  · simp [finish, Expression.finish_error_of_tightest hreduce ahead]
      | _ => simp [hkind, Kind.isComment] at hcomment
  | _ => cases h

/-- A goal that takes a comment stays in step with one that does not see it. -/
theorem Resumes.take_comment (h : Resumes goal other) (hleads : goal.Leads goals)
    (hcomment : comment.kind.isComment = true)
    (htake : goal.take? scopes comment = .ok (some next)) :
    ∃ later, next = [later] ∧ Resumes later other := by
  cases hkind : comment.kind with
  | comment style =>
      cases goal with
      | classes closable =>
          simp only [Goal.take?, hkind, Except.ok.injEq, Option.some.injEq] at htake
          refine ⟨_, htake.symm, ?_⟩
          cases h with
          | same => cases closable <;> constructor
          | classes => exact .classes
      | members closable =>
          simp only [Goal.take?, hkind, Except.ok.injEq, Option.some.injEq] at htake
          refine ⟨_, htake.symm, ?_⟩
          cases h with
          | same => cases closable <;> constructor
          | members => exact .members
      | statements afterIf =>
          simp only [Goal.take?, hkind, Except.ok.injEq, Option.some.injEq] at htake
          refine ⟨_, htake.symm, ?_⟩
          cases h with
          | same => cases afterIf <;> constructor
          | statements => exact .statements
      | expression state use =>
          cases state with
          | operand frames =>
              simp [Goal.take?, Expression.State.take?, Expression.operandType?, hkind] at htake
          | operator waiting left =>
              cases hreduce : reduce Operator.tightest waiting left with
              | error fault =>
                  simp [Goal.take?, Expression.State.take?, hkind, hreduce] at htake
              | ok reached =>
                  simp only [Goal.take?, Expression.State.take?, hkind, hreduce, Option.map_some,
                    Except.ok.injEq, Option.some.injEq] at htake
                  refine ⟨_, htake.symm, ?_⟩
                  cases h with
                  | same => exact .expression use hreduce
                  | expression _ h =>
                      refine .expression use ?_
                      rw [← Expression.reduce_of_tightest h (Nat.le_refl _), hreduce]
      | expect kind =>
          simp only [Goal.take?, Except.ok.injEq, Option.ite_none_right_eq_some] at htake
          have hsame : kind.isComment = false := hleads
          rw [← htake.1, hcomment] at hsame
          cases hsame
      | target name =>
          simp only [Goal.take?, hkind] at htake
          split at htake <;> simp at htake
      | _ => simp [Goal.take?, hkind, Kind.type?, Kind.isStep] at htake
  | _ => simp [hkind, Kind.isComment] at hcomment

end Goals

/-! ## Runs in step -/

inductive Alike : List Goal → List Goal → Prop where
  | nil : Alike [] []
  | cons {goal other : Goal} (h : Resumes goal other) (goals : List Goal) :
      Alike (goal :: goals) (other :: goals)

theorem Alike.refl (goals : List Goal) : Alike goals goals := by
  cases goals with
  | nil => exact .nil
  | cons goal goals => exact .cons (.same goal) goals

/-- Two runs, over `tokens` and over `others`, in step. -/
structure Trails (tokens others : List Token) (config other : Config) : Prop where
  goals : Alike config.goals other.goals
  scopes : config.scopes = other.scopes
  rest : Thinned config.rest other.rest
  read : ∃ front back, tokens = front ++ config.rest ∧ others = back ++ other.rest ∧
    Thinned front back

/-- The run ended with a syntax error. -/
def Outcome.Unreadable (outcome : Outcome) : Prop :=
  ∃ fault, outcome.fault? = some fault ∧ fault.kind = .syntactic

/-- Two outcomes with the same fault, if any, and the same bindings. -/
def Outcome.Agrees (outcome other : Outcome) : Prop :=
  other.fault? = outcome.fault? ∧ other.scopes = outcome.scopes

section Runs

variable {tokens others : List Token} {config other after : Config} {outcome : Outcome}

/-- Behind a variable or a field there is no place for a comment. -/
theorem unreadable_of_comment {goal : Goal} {comment : Token} {rest : List Token}
    (hgoal : (∃ ty, goal = .moreVariables ty) ∨ ∃ name, goal = .memberRest name)
    (hgoals : config.goals.head? = some goal) (hrest : config.rest = comment :: rest)
    (hcomment : comment.kind.isComment = true) : config.outcome.Unreadable := by
  obtain ⟨goals, scopes, last, rest⟩ := config
  cases hrest
  obtain ⟨more, rfl⟩ := List.head?_eq_some_iff.mp hgoals
  have htake : goal.take? scopes comment = .ok none := by
    cases hkind : comment.kind with
    | comment style => rcases hgoal with ⟨ty, rfl⟩ | ⟨name, rfl⟩ <;> simp [Goal.take?, hkind]
    | _ => simp [hkind, Kind.isComment] at hcomment
  have hfinish : goal.finish scopes (.token comment) =
      .error (.unexpected (.kind .semicolon) (.token comment)) := by
    rcases hgoal with ⟨ty, rfl⟩ | ⟨name, rfl⟩ <;> rfl
  exact ⟨_, run_skip_error htake hfinish, rfl⟩

/-- In front of the same token, or at the end of both texts, goals are finished alike. -/
theorem finish_of_head?_eq (h : config.rest.head? = other.rest.head?) (goal : Goal)
    (scopes : Scope.Stack) :
    (∃ wanted ahead, goal.finish scopes config.ahead = .error (.unexpected wanted ahead)) ∨
      goal.finish scopes config.ahead = goal.finish scopes other.ahead := by
  obtain ⟨_, _, last, rest⟩ := config
  obtain ⟨_, _, last', rest'⟩ := other
  cases rest with
  | nil =>
      cases rest' with
      | nil =>
          rcases goal.finish_ending scopes last last' with ⟨wanted, hfinish⟩ | hfinish
          · exact .inl ⟨wanted, _, hfinish⟩
          · exact .inr hfinish
      | cons token rest' => cases h
  | cons token rest =>
      cases rest' with
      | nil => cases h
      | cons token' rest' =>
          cases h
          exact .inr rfl

theorem Goal.Passes.of_head?_eq {goal matched : Goal} (hpasses : goal.Passes config)
    (h : config.rest.head? = other.rest.head?) (hscopes : config.scopes = other.scopes)
    (hsame : ∀ token, goal.take? config.scopes token = matched.take? config.scopes token) :
    matched.Passes other := by
  intro token htoken
  rw [← h] at htoken
  rw [← hscopes, ← hsame]
  exact hpasses token htoken

theorem Trails.step (h : Trails tokens others config other)
    (horderly : Orderly config.goals)
    (hstep : Step config after) :
    (∃ next, Steps other next ∧ Trails tokens others after next) ∨ after.outcome.Unreadable := by
  obtain ⟨hgoals, hscopes, hrest, hread⟩ := h
  cases hstep with
  | @take goal goals next scopes last token rest htake =>
      obtain ⟨front, back, htokens, hothers, hread⟩ := hread
      obtain ⟨goals', scopes', last', rest'⟩ := other
      cases hscopes
      cases hgoals with
      | cons hresumes =>
          refine .inl ?_
          cases hrest with
          | keep _ hrest =>
              refine ⟨_, .single (.take (hresumes.take htake)), .refl _, rfl, hrest,
                front ++ [token], back ++ [token], ?_, ?_, hread.append (.keep token .nil)⟩
              · simpa using htokens
              · simpa using hothers
          | drop hcomment hrest =>
              obtain ⟨later, rfl, hlater⟩ := hresumes.take_comment horderly.1 hcomment htake
              refine ⟨_, .refl _, .cons hlater goals, rfl, hrest, front ++ [token], back,
                by simpa using htokens, hothers, ?_⟩
              simpa using hread.append (.drop hcomment .nil)
  | @finish _ goal goals finished hsame hpasses hfinish =>
      generalize hmatched : other.goals = goals' at hgoals
      rw [hsame] at hgoals horderly
      cases hgoals with
      | @cons _ matched hresumes =>
          -- The other run finishes the goal as well, unless it must not be finished here.
          have hboth : matched.Passes other →
              matched.finish config.scopes other.ahead = .ok finished →
              ∃ next, Steps other next ∧
                Trails tokens others { config with goals := goals, scopes := finished } next := by
            intro hpasses hfinish
            rw [hscopes] at hfinish
            exact ⟨_, .single (.finish hmatched hpasses hfinish), .refl goals, rfl, hrest, hread⟩
          rcases hresumes.same_or_refuses with ⟨htake, hagree⟩ | ⟨_, hrefuse⟩
          · rcases hrest.head?_eq_or_comment with hhead | ⟨comment, rest, hdropped, hcomment⟩
            · refine .inl (hboth (hpasses.of_head?_eq hhead hscopes htake) ?_)
              rcases finish_of_head?_eq hhead goal config.scopes with ⟨_, _, hfails⟩ | heq
              · rw [hfinish] at hfails
                cases hfails
              · rw [← hagree, ← heq, hfinish]
            · have hahead : config.ahead = .token comment := by rw [Config.ahead, hdropped]
              have hpass := hpasses comment (by rw [hdropped]; rfl)
              cases Goal.meets_comment horderly.1 hcomment hpass with
              | fails wanted hfails =>
                  rw [hahead, hfails] at hfinish
                  cases hfinish
              | regardless hall hsame =>
                  refine .inl (hboth (fun token _ => ?_) ?_)
                  · rw [← hscopes, ← htake, hall]
                  · rw [← hagree, hsame, ← hahead, hfinish]
              | initializer ty name hnext =>
                  exact .inr (unreadable_of_comment (.inl ⟨ty, rfl⟩) hnext hdropped hcomment)
              | field ty name hnext =>
                  exact .inr (unreadable_of_comment (.inr ⟨name, rfl⟩) hnext hdropped hcomment)
          · obtain ⟨wanted, hfails⟩ := hrefuse config.ahead
            rw [hfinish] at hfails
            cases hfails

theorem Trails.steps (h : Trails tokens others config other)
    (horderly : Orderly config.goals)
    (hsteps : Steps config after) :
    (Orderly after.goals ∧ ∃ next, Steps other next ∧ Trails tokens others after next) ∨
      config.outcome.Unreadable := by
  induction hsteps generalizing other with
  | refl config => exact .inl ⟨horderly, other, .refl other, h⟩
  | next first more ih =>
      rw [first.outcome_eq]
      rcases h.step horderly first with ⟨next, hnext, htrails⟩ | hunreadable
      · rcases ih htrails (first.orderly horderly) with ⟨hlater, final, hfinal, hsame⟩ | hunreadable
        · exact .inl ⟨hlater, final, hnext.trans hfinal, hsame⟩
        · exact .inr hunreadable
      · exact .inr hunreadable

/-- A duplicate field in front of a comment is a method in front of a parenthesis. -/
structure Opened (config other : Config) (fault : Fault) : Prop where
  goals : ∃ ty name goals, config.goals = .field ty name :: goals ∧ other.goals = config.goals ∧
    ∃ previous, fault = .duplicate name previous
  comment : ∃ comment rest, config.rest = comment :: rest ∧ comment.kind.isComment = true
  opening : ∃ opening rest, other.rest = opening :: rest ∧ opening.kind = .leftParen

theorem ends_of_refuses {goal : Goal} {goals : List Goal} {fault : Fault}
    (hgoals : config.goals = goal :: goals)
    (htake : ∀ token, goal.take? config.scopes token = .error fault ∨
      goal.take? config.scopes token = .ok none)
    (hfinish : ∀ ahead, goal.finish config.scopes ahead = .error fault) :
    config.Ends ⟨some fault, config.scopes, config.last, config.rest⟩ := by
  cases hrest : config.rest with
  | nil =>
      have hends : config.Ends ⟨some fault, config.scopes, config.last, config.rest⟩ :=
        .fail hgoals (by simp [Goal.Passes, hrest]) (hfinish _)
      rwa [hrest] at hends
  | cons token rest =>
      rw [← hrest]
      rcases htake token with hrefuse | hpass
      · exact .refuse hgoals hrest hrefuse
      · exact .fail hgoals (by simpa [Goal.Passes, hrest] using hpass) (hfinish _)

/--
How the second run fails where the first one fails in front of a comment it does not see.
-/
theorem fails_of_comment {goal matched : Goal} {goals : List Goal} {fault : Fault}
    {comment : Token} {rest : List Token} (hscopes : config.scopes = other.scopes)
    (hgoals : config.goals = goal :: goals) (hmatched : other.goals = matched :: goals)
    (hresumes : Resumes goal matched) (hleads : goal.Leads goals)
    (htake : ∀ token, goal.take? config.scopes token = matched.take? config.scopes token)
    (hagree : ∀ ahead, goal.finish config.scopes ahead = matched.finish config.scopes ahead)
    (hdropped : config.rest = comment :: rest) (hcomment : comment.kind.isComment = true)
    (hpasses : goal.Passes config)
    (hfinish : goal.finish config.scopes config.ahead = .error fault) :
    fault.kind = .syntactic ∨
      other.Ends ⟨some fault, other.scopes, other.last, other.rest⟩ ∨
      Opened config other fault := by
  have hahead : config.ahead = .token comment := by rw [Config.ahead, hdropped]
  have hpass := hpasses comment (by rw [hdropped]; rfl)
  rw [hahead] at hfinish
  cases Goal.meets_comment hleads hcomment hpass with
  | fails wanted hfails =>
      rw [hfails] at hfinish
      cases hfinish
      exact .inl rfl
  | regardless hall hsame =>
      refine .inr (.inl (.fail hmatched (fun token _ => ?_) ?_))
      · rw [← hscopes, ← htake, hall]
      · rw [← hscopes, ← hagree, hsame, hfinish]
  | initializer ty name _ => cases hfinish
  | field ty name _ =>
      cases hresumes
      have hother : comment.kind ≠ .leftParen := by
        intro hkind
        rw [hkind] at hcomment
        cases hcomment
      have hbind : bindName config.scopes ty name = .error fault := by
        simpa [Goal.finish, Lookahead.kind?, hother] using hfinish
      by_cases hopening : other.ahead.kind? = some .leftParen
      · refine .inr (.inr ⟨⟨ty, name, goals, hgoals, hmatched.trans hgoals.symm, ?_⟩,
          ⟨comment, rest, hdropped, hcomment⟩, ?_⟩)
        · rw [bindName_eq] at hbind
          split at hbind
          · cases hbind
          · rename_i previous _
            cases hbind
            exact ⟨previous, rfl⟩
        · rw [← other.kind?_ahead, Option.map_eq_some_iff] at hopening
          obtain ⟨opening, hhead, hkind⟩ := hopening
          obtain ⟨more, hmore⟩ := List.head?_eq_some_iff.mp hhead
          exact ⟨opening, more, hmore, hkind⟩
      · refine .inr (.inl (.fail hmatched (fun token _ => rfl) ?_))
        rw [← hscopes, Goal.finish, if_neg hopening, hbind]

theorem Trails.ends (h : Trails tokens others config other)
    (horderly : Orderly config.goals)
    (hends : config.Ends outcome) :
    outcome.Unreadable ∨ outcome.Agrees other.outcome ∨
      ∃ fault, outcome.fault? = some fault ∧ Opened config other fault := by
  obtain ⟨hgoals, hscopes, hrest, hread⟩ := h
  generalize hmatched : other.goals = goals' at hgoals
  have hagrees {fault? : Option Fault} {last : Position} {rest : List Token}
      (hends : other.Ends ⟨fault?, other.scopes, other.last, other.rest⟩) :
      Outcome.Agrees ⟨fault?, config.scopes, last, rest⟩ other.outcome := by
    rw [hends.outcome_eq]
    exact ⟨rfl, hscopes.symm⟩
  cases hends with
  | met hsame =>
      rw [hsame] at hgoals
      cases hgoals
      exact .inr (.inl (hagrees (.met hmatched)))
  | @refuse goal goals token rest fault hsame hfront hrefuse =>
      rw [hsame] at hgoals
      cases hgoals with
      | @cons _ matched hresumes =>
          rcases hresumes.same_or_refuses with ⟨htake, hagree⟩ | ⟨hnone, _⟩
          · refine .inr (.inl (hagrees ?_))
            rcases hrest.head?_eq_or_comment with hhead | ⟨comment, rest, hdropped, hcomment⟩
            · rw [hfront] at hhead
              obtain ⟨more, hmore⟩ := List.head?_eq_some_iff.mp hhead.symm
              exact .refuse hmatched hmore (by rw [← hscopes, ← htake, hrefuse])
            · rw [hfront] at hdropped
              cases hdropped
              obtain ⟨hall, hfinish⟩ := Goal.refuses_of_comment hcomment hrefuse
              refine ends_of_refuses hmatched (fun token => ?_) fun ahead => ?_
              · rw [← hscopes, ← htake]
                exact hall token
              · rw [← hscopes, ← hagree]
                exact hfinish ahead
          · exact absurd hrefuse (hnone token fault)
  | @fail goal goals fault hsame hpasses hfinish =>
      rw [hsame] at hgoals horderly
      cases hgoals with
      | @cons _ matched hresumes =>
          rcases hresumes.same_or_refuses with
            ⟨htake, hagree⟩ | ⟨_, hrefuse⟩
          · rcases hrest.head?_eq_or_comment with hhead | ⟨comment, rest, hdropped, hcomment⟩
            · rcases finish_of_head?_eq hhead goal config.scopes with ⟨wanted, ahead, hfails⟩ | heq
              · rw [hfinish] at hfails
                cases hfails
                exact .inl ⟨_, rfl, rfl⟩
              · refine .inr (.inl (hagrees (.fail hmatched ?_ ?_)))
                · exact hpasses.of_head?_eq hhead hscopes htake
                · rw [← hscopes, ← hagree, ← heq, hfinish]
            · rcases fails_of_comment hscopes hsame hmatched hresumes horderly.1 htake hagree
                hdropped hcomment hpasses hfinish with hkind | hends | hopened
              · exact .inl ⟨fault, rfl, hkind⟩
              · exact .inr (.inl (hagrees hends))
              · exact .inr (.inr ⟨fault, rfl, hopened⟩)
          · obtain ⟨wanted, hfails⟩ := hrefuse config.ahead
            rw [hfinish] at hfails
            cases hfails
            exact .inl ⟨_, rfl, rfl⟩

end Runs

/-! ## Analyses -/

section Analyses

variable {tokens others : List Token} {fault : Fault}

/--
The fault is about the name of a field.  In the first list the analysis stops behind
the name, in front of a comment; in the second one the comment is gone, and a
parenthesis follows.
-/
def Uncovers (tokens others : List Token) (fault : Fault) : Prop :=
  ∃ (title : Title) (previous : Ty) (front back : List Token) (comment opening : Token)
    (rest rest' : List Token), fault = .duplicate title.name.token previous ∧
      tokens = front ++ title.tokens ++ comment :: rest ∧
      (Analyzer.ofTokens tokens).program.2.rest = comment :: rest ∧
      others = back ++ title.tokens ++ opening :: rest' ∧
      comment.kind.isComment = true ∧ opening.kind = .leftParen ∧
      Thinned front back ∧ Thinned (comment :: rest) (opening :: rest')

/-- The same name at the ends of two headings is that of the same heading. -/
theorem thinned_of_title {front back : List Token} {title title' : Title}
    (h : Thinned (front ++ title.tokens) (back ++ title'.tokens)) :
    title'.tokens = title.tokens ∧ Thinned front back := by
  obtain ⟨access, type, name⟩ := title
  obtain ⟨access', type', name'⟩ := title'
  have hsplit (list first second third : List Token) :
      list ++ (first ++ (second ++ third)) = list ++ first ++ second ++ third := by simp
  simp only [Title.tokens] at h ⊢
  change Thinned (front ++ ([access.token] ++ ([type.token] ++ [name.token])))
    (back ++ ([access'.token] ++ ([type'.token] ++ [name'.token]))) at h
  rw [hsplit, hsplit] at h
  obtain ⟨hname, h⟩ := h.of_concat (by rw [name.kind_eq]; rfl)
  obtain ⟨htype, h⟩ := h.of_concat (by rw [type.kind_eq]; rfl)
  obtain ⟨haccess, h⟩ := h.of_concat (by rw [access.kind_eq]; rfl)
  exact ⟨by rw [hname, htype, haccess], h⟩

/-- In front of the goal of a field stands its heading. -/
theorem Stage.title {config : Config} {read : List Token} (h : Stage config read) {ty : Ty}
    {name : Token} {goals : List Goal} (hgoals : config.goals = .field ty name :: goals) :
    ∃ (front : List Token) (title : Title), read = front ++ title.tokens ∧
      name = title.name.token := by
  cases h with
  | outside _ hplain =>
      rw [hgoals] at hplain
      exact (hplain (.field ty name) (by simp)).elim
  | heading front hheading hsame hplain =>
      rw [hgoals] at hsame
      cases hheading with
      | field title =>
          cases hsame
          exact ⟨front, title, rfl, rfl⟩
      | memberType | memberName | memberRest | enter => cases hsame
  | @inside start inner _ outer front seen title opening hsame _ hstart hopened _ hsteps =>
      rw [hgoals] at hsame
      cases inner with
      | nil => cases hsame
      | cons goal inner =>
          cases hsame
          have hlocal : LocalGoals start.goals := by
            rw [hstart]
            exact localGoals_method
          exact ((hsteps.opened hlocal hopened).1 (.field ty name) (by simp [Config.with])).elim

theorem Opened.uncovers {config other : Config} (h : Opened config other fault)
    (htrails : Trails tokens others config other) (hsteps : Steps (.initial tokens) config)
    (hends : config.Ends (Config.initial tokens).outcome)
    (hmatched : Steps (.initial others) other) : Uncovers tokens others fault := by
  obtain ⟨⟨ty, name, goals, hgoals, hsame, previous, rfl⟩, ⟨comment, rest, hrest, hcomment⟩,
    opening, rest', hrest', hopening⟩ := h
  obtain ⟨read, hread, hstage⟩ := exists_stage hsteps
  obtain ⟨read', hread', hstage'⟩ := exists_stage hmatched
  obtain ⟨front, title, rfl, rfl⟩ := hstage.title hgoals
  obtain ⟨back, title', rfl, htitle⟩ := hstage'.title (hsame.trans hgoals)
  obtain ⟨seen, seen', htokens, hothers, hseen⟩ := htrails.read
  have hthinned := htrails.rest
  rw [hread] at htokens
  rw [hread'] at hothers
  obtain rfl := List.append_cancel_right htokens
  obtain rfl := List.append_cancel_right hothers
  obtain ⟨hsame, hfront⟩ := thinned_of_title hseen
  have hstop : (Analyzer.ofTokens tokens).program.2.rest = config.rest :=
    (Analyzer.rest_program _).trans hends.rest_eq
  rw [hrest] at hstop
  rw [hrest] at hread hthinned
  rw [hrest'] at hread' hthinned
  rw [hsame] at hread'
  exact ⟨title, previous, front, back, comment, opening, rest, rest', rfl, hread, hstop,
    hread', hcomment, hopening, hfront, hthinned⟩

/--
What an analysis accepts, it accepts with the same table when comments are left out,
and a fault that is not one of syntax stays the same, in all but one case: a field is
declared a second time, and with the comment behind its name gone it is a method.
-/
theorem analyze_thinned (h : Thinned tokens others) :
    (∀ globals, analyze tokens = .ok globals → analyze others = .ok globals) ∧
      ∀ fault, analyze tokens = .error fault → fault.kind ≠ .syntactic →
        ¬ Uncovers tokens others fault → analyze others = .error fault := by
  obtain ⟨final, hsteps, hends⟩ := (Config.initial tokens).exists_steps
  have horderly : Orderly (Config.initial tokens).goals := by
    simp [Config.initial, Orderly, Goal.Leads]
  have hverdict : (Config.initial tokens).outcome.Unreadable ∨
      (Config.initial tokens).outcome.Agrees (Config.initial others).outcome ∨
      ∃ fault, (Config.initial tokens).outcome.fault? = some fault ∧
        Uncovers tokens others fault := by
    have hinitial : Trails tokens others (.initial tokens) (.initial others) :=
      ⟨.refl _, rfl, h, [], [], rfl, rfl, .nil⟩
    rcases hinitial.steps horderly hsteps with ⟨hfinal, other, hother, htrails⟩ | hunreadable
    · rcases htrails.ends hfinal hends with hunreadable | hagrees | ⟨fault, hfault, hopened⟩
      · exact .inl hunreadable
      · rw [hother.outcome_eq]
        exact .inr (.inl hagrees)
      · exact .inr (.inr ⟨fault, hfault, hopened.uncovers htrails hsteps hends hother⟩)
    · exact .inl hunreadable
  constructor
  · intro globals haccepted
    have hnone := fault?_of_analyze_ok haccepted
    rcases hverdict with ⟨fault, hfault, _⟩ | ⟨hfault, hscopes⟩ | ⟨fault, hfault, _⟩
    · rw [hnone] at hfault
      cases hfault
    · rw [analyze_of_fault?_none (hfault.trans hnone), hscopes]
      rwa [analyze_of_fault?_none hnone] at haccepted
    · rw [hnone] at hfault
      cases hfault
  · intro fault hrejected hkind huncovers
    have hsome := fault?_of_analyze_error hrejected
    rcases hverdict with ⟨shown, hfault, hsyntactic⟩ | ⟨hfault, _⟩ | ⟨shown, hfault, hopened⟩
    · rw [hsome, Option.some.injEq] at hfault
      rw [hfault] at hkind
      exact absurd hsyntactic hkind
    · exact analyze_of_fault?_some (hfault.trans hsome)
    · rw [hsome, Option.some.injEq] at hfault
      rw [hfault] at huncovers
      exact absurd hopened huncovers

end Analyses

/-- A comment before the second field makes no difference to the fault at its name. -/
theorem analyze_thinned_before_field :
    let before : List Token := [⟨.word .namespaceWord, "namespace", ⟨1, 1⟩⟩,
      ⟨.identifier, "N", ⟨1, 11⟩⟩, ⟨.leftBrace, "\x7b", ⟨1, 13⟩⟩,
      ⟨.access .publicAccess, "public", ⟨2, 1⟩⟩, ⟨.word .classWord, "class", ⟨2, 8⟩⟩,
      ⟨.identifier, "C", ⟨2, 14⟩⟩, ⟨.leftBrace, "\x7b", ⟨2, 16⟩⟩,
      ⟨.access .publicAccess, "public", ⟨3, 1⟩⟩, ⟨.type .int, "int", ⟨3, 8⟩⟩,
      ⟨.identifier, "x", ⟨3, 12⟩⟩, ⟨.semicolon, ";", ⟨3, 13⟩⟩]
    let comment : Token := ⟨.comment .block, "/**/", ⟨3, 15⟩⟩
    let name : Token := ⟨.identifier, "x", ⟨4, 12⟩⟩
    let after : List Token := [⟨.access .publicAccess, "public", ⟨4, 1⟩⟩,
      ⟨.type .int, "int", ⟨4, 8⟩⟩, name, ⟨.semicolon, ";", ⟨4, 13⟩⟩]
    let fault : Fault := .duplicate name .int
    Thinned (before ++ comment :: after) (before ++ after) ∧
      analyze (before ++ comment :: after) = .error fault ∧ fault.kind ≠ .syntactic ∧
      ¬ Uncovers (before ++ comment :: after) (before ++ after) fault ∧
      analyze (before ++ after) = .error fault := by
  intro before comment name after fault
  have hthinned : Thinned (before ++ comment :: after) (before ++ after) :=
    (Thinned.refl before).append (.drop rfl (.refl after))
  have hfault : analyze (before ++ comment :: after) = .error fault := by rfl
  have hkind : fault.kind ≠ .syntactic := by simp [fault, Fault.kind]
  have huncovers : ¬ Uncovers (before ++ comment :: after) (before ++ after) fault := by
    rintro ⟨title, _, front, back, _, opening, _, rest, _, _, _, hothers, _, hopening, _⟩
    have hnone : ∀ token ∈ before ++ after, token.kind ≠ .leftParen := by decide
    exact hnone opening (by rw [hothers]; simp) hopening
  exact ⟨hthinned, hfault, hkind, huncovers,
    (analyze_thinned hthinned).2 fault hfault hkind huncovers⟩

/--
A comment between the name and the parameters of a method is not passed over: the name
is bound as a field.  If there is a field of the name, this is the fault that shows,
and without the comment there is none.
-/
theorem comment_hides_parameters :
    ¬ ∀ tokens others : List Token, Thinned tokens others →
      (∀ globals, analyze tokens = .ok globals → analyze others = .ok globals) ∧
      ∀ fault, analyze tokens = .error fault → fault.kind ≠ .syntactic →
        ∃ same, analyze others = .error same ∧ same.kind = fault.kind ∧
          same.message = fault.message ∧ same.position = fault.position := by
  intro hall
  let before : List Token := [⟨.word .namespaceWord, "namespace", ⟨1, 1⟩⟩,
    ⟨.identifier, "N", ⟨1, 11⟩⟩, ⟨.leftBrace, "\x7b", ⟨1, 13⟩⟩,
    ⟨.access .publicAccess, "public", ⟨2, 1⟩⟩, ⟨.word .classWord, "class", ⟨2, 8⟩⟩,
    ⟨.identifier, "C", ⟨2, 14⟩⟩, ⟨.leftBrace, "\x7b", ⟨2, 16⟩⟩,
    ⟨.access .publicAccess, "public", ⟨3, 1⟩⟩, ⟨.type .int, "int", ⟨3, 8⟩⟩,
    ⟨.identifier, "x", ⟨3, 12⟩⟩, ⟨.semicolon, ";", ⟨3, 13⟩⟩,
    ⟨.access .publicAccess, "public", ⟨4, 1⟩⟩, ⟨.type .int, "int", ⟨4, 8⟩⟩,
    ⟨.identifier, "x", ⟨4, 12⟩⟩]
  let comment : Token := ⟨.comment .block, "/**/", ⟨4, 14⟩⟩
  let after : List Token := [⟨.leftParen, "(", ⟨4, 19⟩⟩, ⟨.rightParen, ")", ⟨4, 20⟩⟩,
    ⟨.leftBrace, "\x7b", ⟨4, 22⟩⟩, ⟨.rightBrace, "\x7d", ⟨4, 24⟩⟩,
    ⟨.rightBrace, "\x7d", ⟨5, 1⟩⟩, ⟨.rightBrace, "\x7d", ⟨6, 1⟩⟩]
  have hthinned : Thinned (before ++ comment :: after) (before ++ after) :=
    (Thinned.refl before).append (.drop rfl (.refl after))
  have hfault : analyze (before ++ comment :: after) =
      .error (.duplicate ⟨.identifier, "x", ⟨4, 12⟩⟩ .int) := by rfl
  have haccepted : analyze (before ++ after) = .ok ⟨[("x", .int)]⟩ := by rfl
  obtain ⟨same, hsame, _⟩ := (hall _ _ hthinned).2 _ hfault (by simp [Fault.kind])
  rw [haccepted] at hsame
  cases hsame

end Analysis

end Classlet
