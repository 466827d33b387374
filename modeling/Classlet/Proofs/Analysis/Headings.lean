import Classlet.Analysis.Analyzer
import Classlet.Proofs.Analysis.Locality

/-!
# Headings

Where a run over a program stands, by the tokens read last.  In front of a member
these are its heading so far; inside a method they are the heading, the opening
parenthesis and all that the run has read since it entered the method.  From the
first parameter on, the goals of the method make the same steps as by themselves.
-/

namespace Classlet.Analysis

open Grammar

/-! ## Steps in a row -/

section Steps

variable {before middle after : Config}

theorem Steps.trans (first : Steps before middle) (more : Steps middle after) :
    Steps before after := by
  induction first with
  | refl config => exact more
  | next first _ ih => exact .next first (ih more)

theorem Steps.single (h : Step before after) : Steps before after :=
  .next h (.refl after)

end Steps

/-- A configuration with other goals. -/
def Config.with (config : Config) (goals : List Goal) : Config :=
  { config with goals := goals }

/-- The goals behind the first one have no part in a step. -/
theorem Step.behind {config after : Config} {goal : Goal} {goals more : List Goal}
    (hgoals : config.goals = goal :: (goals ++ more)) (h : Step config after) :
    ∃ left, after.goals = left ++ more ∧
      Step (config.with (goal :: goals)) (after.with left) := by
  cases h with
  | @take _ _ next scopes last token rest h =>
      cases hgoals
      exact ⟨next ++ goals, (List.append_assoc _ _ _).symm, .take h⟩
  | finish hsame hpasses h =>
      rw [hgoals] at hsame
      cases hsame
      exact ⟨goals, rfl, .finish rfl hpasses h⟩

/-! ## The order of goals -/

/-- What has to be known of the goals behind a goal. -/
def Goal.Leads (goals : List Goal) : Goal → Prop
  | initializer ty _ => goals.head? = some (moreVariables ty)
  | field _ name => goals.head? = some (memberRest name)
  | expect kind => kind.isComment = false
  | _ => True

/-- A name is declared before anything else, so no such goal waits behind another one. -/
def Orderly : List Goal → Prop
  | [] => True
  | goal :: goals =>
      goal.Leads goals ∧ (∀ ty name, goals.head? ≠ some (.declare ty name)) ∧ Orderly goals

theorem Orderly.take {goal : Goal} {goals next : List Goal} {scopes : Scope.Stack}
    {token : Token} (horderly : Orderly (goal :: goals))
    (h : goal.take? scopes token = .ok (some next)) : Orderly (next ++ goals) := by
  obtain ⟨_, hhead, hgoals⟩ := horderly
  cases goal with
  | expect | namespaceName | className | memberName | parameterName | variableName | initializer
  | targetName | assign | counterName | stepName | stepOperator =>
      simp only [Goal.take?, Except.ok.injEq, Option.ite_none_right_eq_some,
        Option.some.injEq] at h
      obtain ⟨_, rfl⟩ := h
      simp [Orderly, Goal.Leads, hhead, hgoals]
  | memberType | parameterType | counterType | elementType =>
      simp only [Goal.take?, Except.ok.injEq, Option.map_eq_some_iff] at h
      obtain ⟨ty, _, rfl⟩ := h
      simp [Orderly, Goal.Leads, hhead, hgoals]
  | program | firstParameter | moreParameters | moreVariables | moreTargets =>
      simp only [Goal.take?, Except.ok.injEq] at h
      split at h <;> cases h <;> simp [Orderly, Goal.Leads, Kind.isComment, hhead, hgoals]
  | classes closable | members closable =>
      simp only [Goal.take?, Except.ok.injEq] at h
      split at h
      · simp only [Option.ite_none_right_eq_some, Option.some.injEq] at h
        obtain ⟨_, rfl⟩ := h
        exact hgoals
      · cases h
        exact ⟨trivial, hhead, hgoals⟩
      · cases h
        simp [Orderly, Goal.Leads, Goal.word, Kind.isComment, hhead, hgoals]
      · cases h
  | memberRest name =>
      simp only [Goal.take?, Except.ok.injEq] at h
      split at h <;> cases h <;>
        simp [Orderly, Goal.Leads, Goal.method, Goal.body, Kind.isComment, hhead, hgoals]
  | statements afterIf =>
      simp only [Goal.take?, Except.ok.injEq] at h
      split at h
      · cases h
        exact hgoals
      · cases h
        exact ⟨trivial, hhead, hgoals⟩
      · simp only [Option.ite_none_right_eq_some, Option.some.injEq] at h
        obtain ⟨_, rfl⟩ := h
        simp [Orderly, Goal.Leads, Goal.body, Kind.isComment, hhead, hgoals]
      · unfold Goal.statement? at h
        split at h <;> cases h <;>
          simp [Orderly, Goal.Leads, Goal.condition, Goal.body, Goal.forHeader,
            Goal.foreachHeader, Goal.word, Goal.value, Kind.isComment, hhead, hgoals]
  | target name =>
      simp only [Goal.take?] at h
      split at h
      · cases h
      · simp only [Except.ok.injEq, Option.ite_none_right_eq_some, Option.some.injEq] at h
        obtain ⟨_, rfl⟩ := h
        exact ⟨trivial, hhead, hgoals⟩
  | expression state use =>
      simp only [Goal.take?] at h
      split at h
      · simp only [Except.ok.injEq, Option.map_eq_some_iff] at h
        obtain ⟨later, _, rfl⟩ := h
        exact ⟨trivial, hhead, hgoals⟩
      · cases h
  | field | enter | leave | declare | known => cases h

theorem Step.orderly {before after : Config} (h : Step before after)
    (horderly : Orderly before.goals) : Orderly after.goals := by
  cases h with
  | take h => exact horderly.take h
  | finish hgoals _ _ =>
      rw [hgoals] at horderly
      exact horderly.2.2

/-! ## Headings -/

/-- What stands in front of the parameters of a method, or of the end of a field. -/
structure Title where
  access : Mark Kind.access
  type : Mark Kind.type
  name : Leaf .identifier

def Title.tokens (title : Title) : List Token :=
  [title.access.token, title.type.token, title.name.token]

/-- Goals of a member, up to the point where a method is entered, and the heading so far. -/
inductive Heading : List Goal → List Token → Prop where
  | memberType (access : Mark Kind.access) : Heading [.memberType] [access.token]
  | memberName (access : Mark Kind.access) (type : Mark Kind.type) :
      Heading [.memberName type.value] [access.token, type.token]
  | field (title : Title) :
      Heading [.field title.type.value title.name.token, .memberRest title.name.token]
        title.tokens
  | memberRest (title : Title) : Heading [.memberRest title.name.token] title.tokens
  | enter (title : Title) (opening : Leaf .leftParen) :
      Heading (Goal.method title.name.token) (title.tokens ++ [opening.token])

/-- The goals that wait outside of members. -/
def Goal.Plain : Goal → Prop
  | expect _ | program | namespaceName | className | classes _ | members _ => True
  | _ => False

/-- Where a run stands, and the tokens read up to there. -/
inductive Stage : Config → List Token → Prop where
  | outside {config : Config} (read : List Token) (h : ∀ goal ∈ config.goals, goal.Plain) :
      Stage config read
  | heading {config : Config} {goals plain : List Goal} {seen : List Token}
      (front : List Token) (hheading : Heading goals seen)
      (hgoals : config.goals = goals ++ plain) (hplain : ∀ goal ∈ plain, goal.Plain) :
      Stage config (front ++ seen)
  | inside {config start : Config} {inner plain : List Goal} {outer : Scope.Stack}
      (front seen : List Token) (title : Title) (opening : Leaf .leftParen)
      (hgoals : config.goals = inner ++ .leave title.name.token :: plain)
      (hplain : ∀ goal ∈ plain, goal.Plain)
      (hstart : start.goals = .firstParameter :: Goal.body)
      (hopened : start.scopes = outer.opened .empty) (hrest : start.rest = seen ++ config.rest)
      (hsteps : Steps start (config.with inner)) :
      Stage config (front ++ title.tokens ++ opening.token :: seen)

section Take

variable {goal : Goal} {goals next plain : List Goal} {scopes after : Scope.Stack}
variable {token : Token} {ahead : Lookahead} {seen : List Token}

theorem Goal.Plain.take (h : goal.Plain)
    (htake : goal.take? scopes token = .ok (some next)) :
    (∀ later ∈ next, later.Plain) ∨
      next = [.memberType, .members true] ∧ ∃ access : Mark Kind.access, access.token = token := by
  cases goal with
  | expect | namespaceName | className =>
      simp only [take?, Except.ok.injEq, Option.ite_none_right_eq_some, Option.some.injEq] at htake
      obtain ⟨_, rfl⟩ := htake
      exact .inl (by simp)
  | program =>
      simp only [take?, Except.ok.injEq] at htake
      split at htake <;> cases htake <;> exact .inl (by simp [Plain])
  | classes closable =>
      simp only [take?, Except.ok.injEq] at htake
      split at htake
      · simp only [Option.ite_none_right_eq_some, Option.some.injEq] at htake
        obtain ⟨_, rfl⟩ := htake
        exact .inl (by simp)
      · cases htake
        exact .inl (by simp [Plain])
      · cases htake
        exact .inl (by simp [Plain, word])
      · cases htake
  | members closable =>
      simp only [take?, Except.ok.injEq] at htake
      split at htake
      · simp only [Option.ite_none_right_eq_some, Option.some.injEq] at htake
        obtain ⟨_, rfl⟩ := htake
        exact .inl (by simp)
      · cases htake
        exact .inl (by simp [Plain])
      · rename_i modifier hkind
        cases htake
        exact .inr ⟨rfl, ⟨modifier, token, hkind⟩, rfl⟩
      · cases htake
  | _ => exact h.elim

/-- A heading goes on with the token, or that was the end of a field. -/
theorem Heading.take (hheading : Heading (goal :: goals) seen)
    (htake : goal.take? scopes token = .ok (some next)) :
    Heading (next ++ goals) (seen ++ [token]) ∨ next ++ goals = [] := by
  cases hheading with
  | memberType access =>
      simp only [Goal.take?, Except.ok.injEq, Option.map_eq_some_iff] at htake
      obtain ⟨ty, htype, rfl⟩ := htake
      cases hkind : token.kind with
      | type named =>
          rw [hkind] at htype
          cases htype
          exact .inl (.memberName access ⟨ty, token, hkind⟩)
      | _ => simp [hkind, Kind.type?] at htype
  | memberName access type =>
      simp only [Goal.take?, Except.ok.injEq, Option.ite_none_right_eq_some,
        Option.some.injEq] at htake
      obtain ⟨hname, rfl⟩ := htake
      exact .inl (.field ⟨access, type, ⟨token, hname⟩⟩)
  | field title => cases htake
  | memberRest title =>
      simp only [Goal.take?, Except.ok.injEq] at htake
      split at htake
      · cases htake
        exact .inr rfl
      · rename_i hopening
        cases htake
        exact .inl (.enter title ⟨token, hopening⟩)
      · cases htake
  | enter title opening => cases htake

end Take

section Runs

variable {before after config : Config} {read : List Token}

theorem Step.exists_read (h : Step before after) :
    ∃ more, before.rest = more ++ after.rest := by
  cases h with
  | @take _ _ _ _ _ token _ _ => exact ⟨[token], rfl⟩
  | finish => exact ⟨[], rfl⟩

theorem Heading.step {goals plain : List Goal} {seen : List Token}
    (hheading : Heading goals seen) (front : List Token) (hgoals : before.goals = goals ++ plain)
    (hplain : ∀ goal ∈ plain, goal.Plain) (h : Step before after) :
    ∃ more, before.rest = more ++ after.rest ∧ Stage after (front ++ seen ++ more) := by
  cases h with
  | @take goal _ next scopes last token rest h =>
      refine ⟨[token], rfl, ?_⟩
      cases goals with
      | nil => cases hheading
      | cons first goals =>
          cases hgoals
          rw [List.append_assoc]
          rcases hheading.take h with hnext | hnone
          · exact .heading front hnext (List.append_assoc _ _ _).symm hplain
          · obtain ⟨rfl, rfl⟩ := List.append_eq_nil_iff.mp hnone
            exact .outside _ hplain
  | finish hsame hpasses h =>
      refine ⟨[], rfl, ?_⟩
      rw [List.append_nil]
      rw [hgoals] at hsame
      cases hheading with
      | memberType | memberName | memberRest =>
          cases hsame
          cases h
      | field title =>
          cases hsame
          exact .heading front (.memberRest title) rfl hplain
      | enter title opening =>
          cases hsame
          cases h
          rw [← List.append_assoc]
          let start : Config := ⟨.firstParameter :: Goal.body, before.scopes.push,
            before.last, before.rest⟩
          have hstart : start.goals = .firstParameter :: Goal.body := rfl
          have hopened : start.scopes = before.scopes.opened .empty := rfl
          exact .inside front [] title opening rfl hplain hstart hopened rfl (.refl start)

theorem Stage.step (hstage : Stage before read) (h : Step before after) :
    ∃ more, before.rest = more ++ after.rest ∧ Stage after (read ++ more) := by
  cases hstage with
  | outside read hplain =>
      cases h with
      | @take goal goals next scopes last token rest h =>
          obtain ⟨hgoal, hgoals⟩ := List.forall_mem_cons.mp hplain
          refine ⟨[token], rfl, ?_⟩
          rcases hgoal.take h with hnext | ⟨rfl, access, rfl⟩
          · exact .outside _ (List.forall_mem_append.mpr ⟨hnext, hgoals⟩)
          · have hmembers : ∀ goal ∈ Goal.members true :: goals, goal.Plain :=
              List.forall_mem_cons.mpr ⟨trivial, hgoals⟩
            exact .heading read (.memberType access) rfl hmembers
      | finish hgoals hpasses h =>
          rw [hgoals] at hplain
          exact ⟨[], rfl, .outside _ (List.forall_mem_cons.mp hplain).2⟩
  | heading front hheading hgoals hplain => exact hheading.step front hgoals hplain h
  | @inside start inner plain outer front seen title opening hgoals hplain hstart hopened hrest
      hsteps =>
      cases inner with
      | nil =>
          -- Only leaving the method is left.
          cases h with
          | take h =>
              cases hgoals
              cases h
          | finish hsame hpasses h =>
              rw [hgoals] at hsame
              cases hsame
              exact ⟨[], rfl, .outside _ hplain⟩
      | cons goal inner =>
          obtain ⟨left, hleft, hstep⟩ := h.behind hgoals
          obtain ⟨more, hmore⟩ := h.exists_read
          refine ⟨more, hmore, ?_⟩
          rw [List.append_assoc, List.cons_append]
          refine .inside front (seen ++ more) title opening hleft hplain hstart hopened ?_
            (hsteps.trans (.single hstep))
          rw [hrest, hmore, List.append_assoc]

theorem Stage.steps (hstage : Stage before read) (h : Steps before after) :
    ∃ more, before.rest = more ++ after.rest ∧ Stage after (read ++ more) := by
  induction h generalizing read with
  | refl config => exact ⟨[], rfl, by simpa using hstage⟩
  | next first _ ih =>
      obtain ⟨front, hfront, hmiddle⟩ := hstage.step first
      obtain ⟨back, hback, hafter⟩ := ih hmiddle
      refine ⟨front ++ back, by rw [hfront, hback, List.append_assoc], ?_⟩
      rw [← List.append_assoc]
      exact hafter

/-- The configuration in which the analysis of a text begins. -/
def Config.initial (tokens : List Token) : Config :=
  ⟨[.program], .empty, .start, tokens⟩

theorem exists_stage {tokens : List Token} (h : Steps (.initial tokens) config) :
    ∃ read, tokens = read ++ config.rest ∧ Stage config read := by
  have hstart : Stage (.initial tokens) [] :=
    .outside [] (by simp [Config.initial, Goal.Plain])
  obtain ⟨read, hread, hstage⟩ := hstart.steps h
  exact ⟨read, hread, hstage⟩

end Runs

section Verdict

variable {tokens : List Token} {fault : Fault} {globals : Scope.Table}

theorem analyze_of_fault?_none (h : (Config.initial tokens).outcome.fault? = none) :
    analyze tokens = .ok (Config.initial tokens).outcome.scopes.global := by
  simp_all [analyze, Analyzer.program, Analyzer.ofTokens, Config.outcome, Config.initial]

theorem analyze_of_fault?_some (h : (Config.initial tokens).outcome.fault? = some fault) :
    analyze tokens = .error fault := by
  simp_all [analyze, Analyzer.program, Analyzer.ofTokens, Config.outcome, Config.initial]

theorem fault?_of_analyze_error (h : analyze tokens = .error fault) :
    (Config.initial tokens).outcome.fault? = some fault := by
  cases hfault : (Config.initial tokens).outcome.fault? with
  | none =>
      rw [analyze_of_fault?_none hfault] at h
      cases h
  | some shown =>
      rw [analyze_of_fault?_some hfault] at h
      cases h
      rfl

theorem fault?_of_analyze_ok (h : analyze tokens = .ok globals) :
    (Config.initial tokens).outcome.fault? = none := by
  cases hfault : (Config.initial tokens).outcome.fault? with
  | none => rfl
  | some shown =>
      rw [analyze_of_fault?_some hfault] at h
      cases h

end Verdict

end Classlet.Analysis
