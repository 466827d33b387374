import Classlet.Proofs.Analysis.Locality

/-!
# Layers of a run

Where a run over a program stands: outside of methods, in the header of a class or
of a member, in front of a method or inside one.  The goals show it, and a method
scope is open exactly inside a method.  Access modifiers are only taken outside, so
the fields that a run binds are those which the tokens read spell, whatever else is
among these tokens.
-/

namespace Classlet.Analysis

open Grammar (Bindings)

/-! ## The fields that tokens spell -/

/--
The field that `tokens` begin with if `rest` comes behind them: an access modifier,
a type and a name, where no parameter list follows.
-/
def field? (rest : List Token) : List Token → Option (String × Ty)
  | access :: type :: name :: more =>
      if access.kind.isAccess ∧ name.kind = .identifier ∧
          (more ++ rest).head?.map Token.kind ≠ some .leftParen then
        type.kind.type?.map fun ty => (name.lexeme, ty)
      else none
  | _ => none

def fieldsIn (rest : List Token) : List Token → Bindings
  | [] => []
  | token :: tokens => (field? rest (token :: tokens)).toList ++ fieldsIn rest tokens

section Fields

variable {rest tokens : List Token} {token access type name : Token} {ty : Ty}

@[simp] theorem fieldsIn_of_not_access (h : token.kind.isAccess = false) :
    fieldsIn rest (token :: tokens) = fieldsIn rest tokens := by
  match tokens with
  | [] => rfl
  | [_] => rfl
  | _ :: _ :: _ => simp [fieldsIn, field?, h]

/-- What has an access modifier but no type is no field. -/
theorem fieldsIn_of_not_type (h : type.kind.type? = none) :
    fieldsIn rest (access :: type :: tokens) = fieldsIn rest (type :: tokens) := by
  cases tokens with
  | nil => rfl
  | cons name more => simp [fieldsIn, field?, h]

theorem isAccess_of_type? (h : type.kind.type? = some ty) : type.kind.isAccess = false := by
  unfold Kind.type? at h
  split at h
  · rename_i hkind
    rw [hkind]
    rfl
  · cases h

section Header

variable (haccess : access.kind.isAccess) (htype : type.kind.type? = some ty)
variable (hname : name.kind = .identifier)

include htype hname

theorem fieldsIn_method (hahead : (tokens ++ rest).head?.map Token.kind = some .leftParen) :
    fieldsIn rest (access :: type :: name :: tokens) = fieldsIn rest tokens := by
  have hnoAccess : name.kind.isAccess = false := by rw [hname]; rfl
  have hfield : field? rest (access :: type :: name :: tokens) = none := by
    rw [field?, if_neg fun h => h.2.2 hahead]
  rw [fieldsIn, hfield, fieldsIn_of_not_access (isAccess_of_type? htype),
    fieldsIn_of_not_access hnoAccess]
  rfl

include haccess

theorem fieldsIn_field (hahead : (tokens ++ rest).head?.map Token.kind ≠ some .leftParen) :
    fieldsIn rest (access :: type :: name :: tokens) =
      (name.lexeme, ty) :: fieldsIn rest tokens := by
  have hnoAccess : name.kind.isAccess = false := by rw [hname]; rfl
  have hfield : field? rest (access :: type :: name :: tokens) = some (name.lexeme, ty) := by
    rw [field?, if_pos ⟨haccess, hname, hahead⟩, htype]
    rfl
  rw [fieldsIn, hfield, fieldsIn_of_not_access (isAccess_of_type? htype),
    fieldsIn_of_not_access hnoAccess]
  rfl

end Header

end Fields

/-! ## Goals outside of methods -/

/-- The goals that can wait behind others outside of methods. -/
def Goal.Outer : Goal → Prop
  | expect kind => kind.isAccess = false ∧ kind ≠ .word .classWord
  | program | namespaceName | className | classes _ | members _ | memberRest _ => True
  | _ => False

/-- Local goals do not take access modifiers. -/
theorem Goal.isAccess_of_take {goal : Goal} {scopes : Scope.Stack} {token : Token}
    {next : List Goal} (hlocal : goal.Local) (h : goal.take? scopes token = .ok (some next)) :
    token.kind.isAccess = false := by
  cases hkind : token.kind with
  | access modifier =>
      cases goal with
      | expect kind =>
          simp only [take?, Except.ok.injEq, Option.ite_none_right_eq_some] at h
          rw [← hkind, h.1]
          exact hlocal.1
      | target name =>
          simp only [take?, hkind] at h
          split at h <;> simp at h
      | expression state use =>
          cases state <;> simp [take?, hkind, Expression.State.take?, Expression.operandType?] at h
      | statements | parameterName | variableName | initializer | targetName | assign
      | counterName | stepName | stepOperator | parameterType | counterType | elementType
      | firstParameter | moreParameters | moreVariables | moreTargets =>
          simp [take?, statement?, hkind, Kind.isStep, Kind.type?] at h
      | declare | known => cases h
      | _ => exact hlocal.elim
  | _ => rfl

/-! ## Layers -/

/-- The goals that follow an access modifier, and the tokens that led to them. -/
inductive Header : Goal → List Token → Prop where
  | classWord {access : Token} (haccess : access.kind.isAccess) :
      Header (.word .classWord) [access]
  | memberType {access : Token} (haccess : access.kind.isAccess) : Header .memberType [access]
  | memberName {access type : Token} {ty : Ty} (haccess : access.kind.isAccess)
      (htype : type.kind.type? = some ty) : Header (.memberName ty) [access, type]
  | field {access type name : Token} {ty : Ty} (haccess : access.kind.isAccess)
      (htype : type.kind.type? = some ty) (hname : name.kind = .identifier) :
      Header (.field ty name) [access, type, name]

/--
The goals of a run over a program, the method scopes that are open, and the tokens
of a header that is not complete yet.
-/
inductive Layered : List Goal → List Scope.Table → List Token → Prop where
  | outside {goals : List Goal} (h : ∀ goal ∈ goals, goal.Outer) : Layered goals [] []
  | header {goal : Goal} {goals : List Goal} {seen : List Token} (hheader : Header goal seen)
      (h : ∀ goal ∈ goals, goal.Outer) : Layered (goal :: goals) [] seen
  | announced {inner outer : List Goal} (name : Token) (hinner : LocalGoals inner)
      (houter : ∀ goal ∈ outer, goal.Outer) :
      Layered (.enter name :: (inner ++ .leave name :: outer)) [] []
  | inside {inner outer : List Goal} (name : Token) (table : Scope.Table)
      (hinner : LocalGoals inner) (houter : ∀ goal ∈ outer, goal.Outer) :
      Layered (inner ++ .leave name :: outer) [table] []

section Layers

variable {goal : Goal} {goals next : List Goal} {scopes after : Scope.Stack}
variable {token : Token} {ahead : Lookahead} {seen : List Token}

/--
Outside of methods an access modifier begins a header, and a method begins after its name.
-/
theorem Goal.Outer.take (houter : goal.Outer)
    (h : goal.take? scopes token = .ok (some next)) :
    (∃ first more, next = first :: more ∧ Header first [token] ∧ ∀ later ∈ more, later.Outer) ∨
      token.kind.isAccess = false ∧
        ((∀ later ∈ next, later.Outer) ∨ ∃ name, next = Goal.method name) := by
  cases goal with
  | expect kind =>
      simp only [take?, Except.ok.injEq, Option.ite_none_right_eq_some, Option.some.injEq] at h
      obtain ⟨rfl, rfl⟩ := h
      exact .inr ⟨houter.1, .inl (by simp)⟩
  | namespaceName | className =>
      simp only [take?, Except.ok.injEq, Option.ite_none_right_eq_some, Option.some.injEq] at h
      obtain ⟨hkind, rfl⟩ := h
      exact .inr ⟨by rw [hkind]; rfl, .inl (by simp)⟩
  | program =>
      simp only [take?, Except.ok.injEq] at h
      split at h
      · rename_i hkind
        cases h
        exact .inr ⟨by rw [hkind]; rfl, .inl (by simp [Outer, Kind.isAccess])⟩
      · rename_i hkind
        cases h
        exact .inr ⟨by rw [hkind]; rfl, .inl (by simp [Outer, Kind.isAccess])⟩
      · cases h
  | classes closable =>
      simp only [take?, Except.ok.injEq] at h
      split at h
      · rename_i hkind
        simp only [Option.ite_none_right_eq_some, Option.some.injEq] at h
        obtain ⟨_, rfl⟩ := h
        exact .inr ⟨by rw [hkind]; rfl, .inl (by simp)⟩
      · rename_i hkind
        cases h
        exact .inr ⟨by rw [hkind]; rfl, .inl (by simp [Outer])⟩
      · rename_i hkind
        cases h
        exact .inl ⟨_, _, rfl, .classWord (by rw [hkind]; rfl), by simp [Outer, Kind.isAccess]⟩
      · cases h
  | members closable =>
      simp only [take?, Except.ok.injEq] at h
      split at h
      · rename_i hkind
        simp only [Option.ite_none_right_eq_some, Option.some.injEq] at h
        obtain ⟨_, rfl⟩ := h
        exact .inr ⟨by rw [hkind]; rfl, .inl (by simp)⟩
      · rename_i hkind
        cases h
        exact .inr ⟨by rw [hkind]; rfl, .inl (by simp [Outer])⟩
      · rename_i hkind
        cases h
        exact .inl ⟨_, _, rfl, .memberType (by rw [hkind]; rfl), by simp [Outer]⟩
      · cases h
  | memberRest name =>
      simp only [take?, Except.ok.injEq] at h
      split at h
      · rename_i hkind
        cases h
        exact .inr ⟨by rw [hkind]; rfl, .inl (by simp)⟩
      · rename_i hkind
        cases h
        exact .inr ⟨by rw [hkind]; rfl, .inr ⟨name, rfl⟩⟩
      · cases h
  | _ => exact houter.elim

/-- A header goes on, or it was that of a class. -/
theorem Header.take (hheader : Header goal seen)
    (h : goal.take? scopes token = .ok (some next)) :
    (∃ first more, next = first :: more ∧ Header first (seen ++ [token]) ∧
        ∀ later ∈ more, later.Outer) ∨
      next = [] ∧ ∀ rest tokens : List Token,
        fieldsIn rest (seen ++ token :: tokens) = fieldsIn rest tokens := by
  cases hheader with
  | classWord haccess =>
      simp only [Goal.word, Goal.take?, Except.ok.injEq, Option.ite_none_right_eq_some,
        Option.some.injEq] at h
      obtain ⟨hkind, rfl⟩ := h
      refine .inr ⟨rfl, fun rest tokens => ?_⟩
      have htype : token.kind.type? = none := by rw [hkind]; rfl
      have hnoAccess : token.kind.isAccess = false := by rw [hkind]; rfl
      rw [List.singleton_append, fieldsIn_of_not_type htype, fieldsIn_of_not_access hnoAccess]
  | memberType haccess =>
      simp only [Goal.take?, Except.ok.injEq, Option.map_eq_some_iff] at h
      obtain ⟨ty, htype, rfl⟩ := h
      exact .inl ⟨_, _, rfl, .memberName haccess htype, by simp⟩
  | memberName haccess htype =>
      simp only [Goal.take?, Except.ok.injEq, Option.ite_none_right_eq_some,
        Option.some.injEq] at h
      obtain ⟨hname, rfl⟩ := h
      exact .inl ⟨_, _, rfl, .field haccess htype hname, by simp [Goal.Outer]⟩
  | field haccess htype hname => cases h

theorem Layered.take (hlayered : Layered (goal :: goals) scopes.locals seen)
    (h : goal.take? scopes token = .ok (some next)) :
    ∃ still, Layered (next ++ goals) scopes.locals still ∧ ∀ rest tokens : List Token,
      fieldsIn rest (seen ++ token :: tokens) = fieldsIn rest (still ++ tokens) := by
  -- Inside a method the first goal may be the one that leaves it, so `all` is taken apart later.
  generalize hall : goal :: goals = all at hlayered
  generalize hlocals : scopes.locals = locals at hlayered ⊢
  cases hlayered with
  | outside houter =>
      obtain ⟨hgoal, hgoals⟩ := List.forall_mem_cons.mp (hall ▸ houter)
      rcases hgoal.take h with ⟨first, more, rfl, hheader, hmore⟩ | ⟨hkind, hnext⟩
      · exact ⟨_, .header hheader (List.forall_mem_append.mpr ⟨hmore, hgoals⟩), by simp⟩
      · refine ⟨[], ?_, fun rest tokens => fieldsIn_of_not_access hkind⟩
        rcases hnext with hnext | ⟨name, rfl⟩
        · exact .outside (List.forall_mem_append.mpr ⟨hnext, hgoals⟩)
        · exact .announced name localGoals_method hgoals
  | header hheader houter =>
      cases hall
      rcases hheader.take h with ⟨first, more, rfl, hheader, hmore⟩ | ⟨rfl, hfields⟩
      · exact ⟨_, .header hheader (List.forall_mem_append.mpr ⟨hmore, houter⟩), by simp⟩
      · exact ⟨[], .outside houter, hfields⟩
  | announced name hinner houter =>
      cases hall
      cases h
  | @inside inner outer name table hinner houter =>
      cases inner with
      | nil =>
          cases hall
          cases h
      | cons first inner =>
          cases hall
          obtain ⟨hfirst, hinner⟩ := List.forall_mem_cons.mp hinner
          refine ⟨[], ?_, fun rest tokens =>
            fieldsIn_of_not_access (Goal.isAccess_of_take hfirst h)⟩
          change Layered (next ++ (inner ++ .leave name :: outer)) [table] []
          rw [← List.append_assoc]
          exact .inside name table
            (List.forall_mem_append.mpr ⟨Goal.local_of_take hfirst h, hinner⟩) houter

theorem Layered.finish (hlayered : Layered (goal :: goals) scopes.locals seen)
    (h : goal.finish scopes ahead = .ok after) :
    ∃ declared : Bindings, Layered goals after.locals [] ∧
      after.global.entries = scopes.global.entries ++ declared ∧
      ∀ rest tokens : List Token, (tokens ++ rest).head?.map Token.kind = ahead.kind? →
        fieldsIn rest (seen ++ tokens) = declared ++ fieldsIn rest tokens := by
  generalize hall : goal :: goals = all at hlayered
  obtain ⟨globals, locals⟩ := scopes
  cases hlayered with
  | outside houter =>
      obtain ⟨hgoal, hgoals⟩ := List.forall_mem_cons.mp (hall ▸ houter)
      cases goal with
      | program =>
          cases ahead with
          | token token => cases h
          | ending last =>
              cases h
              exact ⟨[], .outside hgoals, by simp, by simp⟩
      | expect | namespaceName | className | classes | members | memberRest => cases h
      | _ => exact hgoal.elim
  | header hheader houter =>
      cases hall
      cases hheader with
      | classWord | memberType | memberName => cases h
      | @field access type name ty haccess htype hname =>
          simp only [Goal.finish] at h
          split at h
          · rename_i hopening
            cases h
            refine ⟨[], .outside houter, by simp, fun rest tokens hahead => ?_⟩
            exact fieldsIn_method htype hname (hahead.trans hopening)
          · rename_i hopening
            rw [bindName_eq] at h
            split at h
            · cases h
              refine ⟨[(name.lexeme, ty)], .outside houter, rfl, fun rest tokens hahead => ?_⟩
              exact fieldsIn_field haccess htype hname (hahead ▸ hopening)
            · cases h
  | announced name hinner houter =>
      cases hall
      cases h
      exact ⟨[], .inside name .empty hinner houter, (List.append_nil _).symm, by simp⟩
  | @inside inner outer name table hinner houter =>
      cases inner with
      | nil =>
          cases hall
          cases h
          exact ⟨[], .outside houter, (List.append_nil _).symm, by simp⟩
      | cons first inner =>
          cases hall
          obtain ⟨hfirst, hinner⟩ := List.forall_mem_cons.mp hinner
          obtain ⟨added, hadded⟩ := Goal.finish_opened hfirst table ahead
          have hfinish := hadded ⟨globals, []⟩
          simp only [Scope.Stack.opened] at hfinish
          rw [hfinish] at h
          cases added with
          | error fault => cases h
          | ok bindings =>
              cases h
              exact ⟨[], .inside name _ hinner houter, by simp, by simp⟩

end Layers

/-! ## Whole runs -/

/--
Between two configurations of a run `read` is read and `declared` is bound in the
global table.  With the header tokens before it, `seen`, and behind it, `still`, the
tokens read spell the fields that are bound.
-/
structure Accounts (before after : Config) (seen still : List Token) (read : List Token)
    (declared : Bindings) : Prop where
  rest : before.rest = read ++ after.rest
  bindings : after.scopes.global.entries = before.scopes.global.entries ++ declared
  fields : ∀ later unread : List Token, after.rest = later ++ unread →
    fieldsIn unread (seen ++ (read ++ later)) = declared ++ fieldsIn unread (still ++ later)

section Runs

variable {before after config : Config} {seen : List Token} {outcome : Outcome}

theorem Config.kind?_ahead (config : Config) :
    config.rest.head?.map Token.kind = config.ahead.kind? := by
  unfold ahead
  cases config.rest <;> rfl

theorem Step.layered (h : Step before after)
    (hlayered : Layered before.goals before.scopes.locals seen) :
    ∃ still read declared, Layered after.goals after.scopes.locals still ∧
      Accounts before after seen still read declared := by
  cases h with
  | @take goal goals next scopes last token rest h =>
      obtain ⟨still, hnext, hfields⟩ := hlayered.take h
      refine ⟨still, [token], [], hnext, rfl, (List.append_nil _).symm, ?_⟩
      intro later unread _
      exact hfields unread later
  | finish hgoals hpasses h =>
      rw [hgoals] at hlayered
      obtain ⟨declared, hnext, hbindings, hfields⟩ := hlayered.finish h
      refine ⟨[], [], declared, hnext, rfl, hbindings, fun later unread hrest => ?_⟩
      have hunread : before.rest = later ++ unread := hrest
      apply hfields
      rw [List.nil_append, ← hunread]
      exact before.kind?_ahead

theorem Steps.layered (h : Steps before after)
    (hlayered : Layered before.goals before.scopes.locals seen) :
    ∃ still read declared, Layered after.goals after.scopes.locals still ∧
      Accounts before after seen still read declared := by
  induction h generalizing seen with
  | refl config =>
      exact ⟨seen, [], [], hlayered, rfl, (List.append_nil _).symm, fun _ _ _ => rfl⟩
  | next first _ ih =>
      obtain ⟨middle, front, earlier, hmiddle, hfirst⟩ := first.layered hlayered
      obtain ⟨still, back, later, hfinal, hmore⟩ := ih hmiddle
      refine ⟨still, front ++ back, earlier ++ later, hfinal, ?_, ?_, ?_⟩
      · rw [hfirst.rest, hmore.rest, List.append_assoc]
      · rw [hmore.bindings, hfirst.bindings, List.append_assoc]
      · intro tokens unread hrest
        have hback := hmore.fields tokens unread hrest
        rw [List.append_assoc, List.append_assoc, ← hback]
        apply hfirst.fields
        rw [hmore.rest, hrest, List.append_assoc]

/--
The fields of a header in front of which a run ends: at most one, with a duplicate name.
-/
theorem Header.fields_of_ends {goal : Goal} {goals : List Goal} (hheader : Header goal seen)
    (hgoals : config.goals = goal :: goals) (hlocals : config.scopes.locals = [])
    (h : config.Ends outcome) :
    fieldsIn config.rest seen = [] ∨ ∃ (name : Token) (ty previous : Ty),
      fieldsIn config.rest seen = [(name.lexeme, ty)] ∧
      outcome.fault? = some (.duplicate name previous) ∧
      config.scopes.global.entries.lookup name.lexeme = some previous := by
  cases hheader with
  | classWord | memberType | memberName => exact .inl rfl
  | @field access type name ty haccess htype hname =>
      cases h with
      | met hnone =>
          rw [hgoals] at hnone
          cases hnone
      | refuse hsame _ h =>
          rw [hgoals] at hsame
          cases hsame
          cases h
      | fail hsame _ h =>
          rw [hgoals] at hsame
          cases hsame
          have hcurrent : config.scopes.current = config.scopes.global := by
            simp [Scope.Stack.current, hlocals]
          simp only [Goal.finish] at h
          split at h
          · cases h
          · rename_i hopening
            rw [bindName_eq, hcurrent] at h
            split at h
            · cases h
            · rename_i previous hprevious
              cases h
              rw [← config.kind?_ahead] at hopening
              exact .inr ⟨name, ty, previous, fieldsIn_field haccess htype hname hopening, rfl,
                hprevious⟩

/--
Where a run ends, all fields read are bound but at most one, which has a duplicate name.
-/
theorem Config.Ends.layered (h : config.Ends outcome)
    (hlayered : Layered config.goals config.scopes.locals seen) :
    fieldsIn config.rest seen = [] ∨ ∃ (name : Token) (ty previous : Ty),
      fieldsIn config.rest seen = [(name.lexeme, ty)] ∧
      outcome.fault? = some (.duplicate name previous) ∧
      config.scopes.global.entries.lookup name.lexeme = some previous := by
  generalize hgoals : config.goals = goals at hlayered
  generalize hlocals : config.scopes.locals = locals at hlayered
  cases hlayered with
  | header hheader _ => exact hheader.fields_of_ends hgoals hlocals h
  | outside | announced | inside => exact .inl rfl

/-- The outcome has the scopes and the tokens of the configuration in which the run ends. -/
theorem Config.Ends.stays (h : config.Ends outcome) :
    outcome.scopes = config.scopes ∧ outcome.rest = config.rest := by
  cases h <;> exact ⟨rfl, rfl⟩

/-! ## Programs -/

/-- The run is between entering a method and leaving it. -/
def Config.InMethod (config : Config) : Prop :=
  (∃ name, .leave name ∈ config.goals) ∧ ∀ name, .enter name ∉ config.goals

/-- A method scope is open exactly inside a method, and then there is one. -/
theorem Layered.depth (h : Layered config.goals config.scopes.locals seen) :
    (config.InMethod → config.scopes.depth = 1) ∧
      (¬ config.InMethod → config.scopes.depth = 0) := by
  unfold Config.InMethod Scope.Stack.depth
  generalize config.goals = goals at h
  generalize config.scopes.locals = locals at h
  cases h with
  | outside houter =>
      refine ⟨?_, fun _ => rfl⟩
      rintro ⟨⟨name, hleave⟩, _⟩
      exact (houter _ hleave).elim
  | header hheader houter =>
      refine ⟨?_, fun _ => rfl⟩
      rintro ⟨⟨name, hleave⟩, _⟩
      rcases List.mem_cons.mp hleave with rfl | hleave
      · cases hheader
      · exact (houter _ hleave).elim
  | announced name _ _ =>
      refine ⟨?_, fun _ => rfl⟩
      rintro ⟨_, henter⟩
      exact absurd (List.mem_cons_self ..) (henter name)
  | inside name table hinner houter =>
      refine ⟨fun _ => rfl, fun houtside =>
        absurd ⟨⟨name, by simp⟩, fun other henter => ?_⟩ houtside⟩
      rcases List.mem_append.mp henter with henter | henter
      · exact (hinner _ henter).elim
      · rcases List.mem_cons.mp henter with henter | henter
        · cases henter
        · exact (houter _ henter).elim

end Runs

end Classlet.Analysis
