import Classlet.Proofs.Analysis.Headings
import Classlet.Proofs.Analysis.Soundness
import Classlet.Proofs.Expression.Operands

/-!
# The course of a method

What the tokens read since a method began have to do with the goals that are left.
Each goal expects something of the tokens in front of it: that a name declared here
gets its type, or that no declaration goes on.  Goals further behind expect it of all
tokens that may meet the goals in front of them.  So what one goal expects follows
from what the goal expected that it came from.

As in the account of declared names, the token read last comes first.
-/

namespace Classlet

namespace Expression

open Grammar

theorem Waits.inner {known : Bindings} {frames : List Frame} {seen : List Token}
    (h : Waits known frames seen) : ∀ token ∈ seen, token.kind.separates = false := by
  induction h with
  | nil => simp
  | group opening _ ih =>
      exact List.forall_mem_append.mpr ⟨ih, List.forall_mem_singleton.mpr (opening.inner rfl)⟩
  | operation sign left _ _ _ ih =>
      refine List.forall_mem_append.mpr ⟨ih, List.forall_mem_append.mpr ⟨left.inner, ?_⟩⟩
      refine List.forall_mem_singleton.mpr ?_
      rw [sign.kind_eq]
      rfl

theorem Spells.inner {known : Bindings} {state : State} {seen : List Token}
    (h : Spells known state seen) : ∀ token ∈ seen, token.kind.separates = false := by
  cases h with
  | operand hwaits => exact hwaits.inner
  | operator phrase _ _ _ hwaits => exact List.forall_mem_append.mpr ⟨hwaits.inner, phrase.inner⟩

end Expression

namespace Analysis

open Grammar
open Expression (Spells)

/-! ## What goals expect -/

/--
A value is assigned behind the name and the sign, and the name is declared with the type.
-/
def Use.Expects (before : List Token) : Use → Prop
  | discard => True
  | assign target declared sign => ∃ earlier, before = sign :: target :: earlier ∧
      sign.kind = .assign ∧ target.kind = .identifier ∧
      (target.lexeme, declared) ∈ localsOf (target :: earlier)

/-- An expression has been read behind `front`, where no other operand ends. -/
def Follows (state : Expression.State) (use : Use) (before : List Token) : Prop :=
  ∃ seen front, before = seen.reverse ++ front ∧ Spells (localsOf front) state seen ∧
    declared? front = none ∧
    (∃ token ∈ front.head?, ∀ operator, token.kind ≠ .binary operator) ∧ use.Expects front

/-- The name was read last, where the type (or nothing) would be declared. -/
def Named (name : Token) (ty? : Option Ty) (before : List Token) : Prop :=
  ∃ earlier, before = name :: earlier ∧ name.kind = .identifier ∧ declared? earlier = ty?

def Goal.Expects (before : List Token) : Goal → Prop
  | expect kind => kind = .identifier → declared? before = none
  | firstParameter | parameterType | counterType => beginsForeach before = false
  | elementType => beginsForeach before = true
  | parameterName ty | counterName ty => declared? before = some ty
  | variableName ty => declared? before = some ty ∧ listType? before = some ty
  | declare ty name | initializer ty name | assign ty name => Named name (some ty) before
  | target name | known name => Named name none before
  | moreVariables ty => listType? before = some ty
  | moreTargets => listType? before = none
  | targetName | stepName => declared? before = none
  | statements _ => Starts before
  | expression state use => Follows state use before
  | _ => True

/-- Each goal finds what it expects, whatever meets the goals in front of it. -/
def Fits : List Goal → List Token → Prop
  | [], _ => True
  | goal :: goals, before =>
      goal.Expects before ∧ ∀ used, goal.Admits used → Fits goals (used.reverse ++ before)

theorem fits_append {goals more : List Goal} {before : List Token} :
    Fits (goals ++ more) before ↔
      Fits goals before ∧ ∀ used, AdmitsAll goals used → Fits more (used.reverse ++ before) := by
  induction goals generalizing before with
  | nil => simp [Fits]
  | cons goal goals ih =>
      simp only [List.cons_append, Fits, ih]
      constructor
      · rintro ⟨hgoal, hgoals⟩
        refine ⟨⟨hgoal, fun used hused => (hgoals used hused).1⟩, ?_⟩
        rintro _ ⟨front, back, rfl, hfront, hback⟩
        simpa using (hgoals front hfront).2 back hback
      · rintro ⟨⟨hgoal, hgoals⟩, hmore⟩
        refine ⟨hgoal, fun used hused => ⟨hgoals used hused, fun later hlater => ?_⟩⟩
        simpa using hmore _ ⟨used, later, rfl, hused, hlater⟩

section Fits

variable {goals : List Goal} {before : List Token}

theorem fits_expect {kind : Kind} (h : kind = .identifier → declared? before = none)
    (hgoals : ∀ leaf : Leaf kind, Fits goals (leaf.token :: before)) :
    Fits (.expect kind :: goals) before := by
  refine ⟨h, ?_⟩
  rintro _ ⟨leaf, rfl⟩
  exact hgoals leaf

/-- An expression may begin where no other operand has ended. -/
theorem follows_start {use : Use} (h : declared? before = none)
    (hsign : ∃ token ∈ before.head?, ∀ operator, token.kind ≠ .binary operator)
    (huse : use.Expects before) : Follows .start use before :=
  ⟨[], before, rfl, .operand .nil, h, hsign, huse⟩

theorem fits_value {token : Token}
    (htoken : token.kind.separates = false ∨ token.kind = .semicolon)
    (hsign : ∀ operator, token.kind ≠ .binary operator)
    (hgoals : ∀ value : Expression, Fits goals (value.tokens.reverse ++ token :: before)) :
    Fits (Goal.value :: goals) (token :: before) := by
  have hnone : declared? (token :: before) = none := by
    rcases htoken with htoken | htoken
    · exact declared?_of_inner htoken
    · exact (starts_of_stop (.inl htoken)).declared
  refine ⟨follows_start hnone (by simpa using hsign) trivial, fun used hused => ?_⟩
  obtain ⟨value, rfl⟩ := wanting_closing_zero.mp hused
  exact hgoals value

/-- A body begins and ends at places for statements. -/
theorem fits_body (hgoals : ∀ after, Starts after → Fits goals after) :
    Fits (Goal.body ++ goals) before := by
  refine fits_expect (by simp) fun opening => ?_
  have hopening : Starts (opening.token :: before) :=
    starts_of_stop (.inr (.inl opening.kind_eq))
  refine ⟨hopening, ?_⟩
  rintro _ (⟨block, rfl⟩ | ⟨hfalse, _⟩)
  · exact hgoals _ (adds_block block hopening).starts
  · cases hfalse

theorem fits_statements (afterIf : Bool) (h : Starts before) :
    Fits [.statements afterIf] before :=
  ⟨h, fun _ _ => trivial⟩

theorem fits_condition (hgoals : ∀ after, Fits goals after) :
    Fits (Goal.condition ++ goals) before := by
  refine fits_expect (by simp) fun opening => ?_
  refine fits_value (.inl (opening.inner rfl)) (by simp [opening.kind_eq]) fun value => ?_
  exact fits_expect (by simp) fun closing => hgoals _

end Fits

/-! ## Taking a token -/

section Take

variable {scopes : Scope.Stack} {token : Token} {goal : Goal} {next goals : List Goal}
variable {before : List Token}

theorem separates_of_kind {kind : Kind} (hkind : token.kind = kind)
    (h : kind.separates = false) : token.kind.separates = false := by
  rw [hkind, h]

theorem Named.of_identifier {ty? : Option Ty} (hkind : token.kind = .identifier)
    (h : declared? before = ty?) : Named token ty? (token :: before) :=
  ⟨before, rfl, hkind, h⟩

/-- Behind the name and the sign an expression begins. -/
theorem Named.follows {name : Token} {ty : Ty} {ty? : Option Ty} (h : Named name ty? before)
    (hsign : token.kind = .assign) (hbound : (name.lexeme, ty) ∈ localsOf before) :
    Follows .start (.assign name ty token) (token :: before) := by
  obtain ⟨earlier, rfl, hname, _⟩ := h
  refine follows_start (declared?_of_inner (separates_of_kind hsign rfl)) ?_
    ⟨earlier, rfl, hsign, hname, hbound⟩
  simp [hsign]

theorem Named.mem_localsOf {name : Token} {ty : Ty} (h : Named name (some ty) before) :
    (name.lexeme, ty) ∈ localsOf before := by
  obtain ⟨earlier, rfl, hname, hdeclared⟩ := h
  rw [localsOf_name ⟨name, hname⟩ hdeclared]
  simp

theorem fits_forHeader (hkind : token.kind = .word .forWord)
    (hgoals : ∀ after, Fits goals after) : Fits (Goal.forHeader ++ goals) (token :: before) := by
  refine fits_expect (by simp) fun opening => ⟨?_, fun used _ => ?_⟩
  · simp [Goal.Expects, beginsForeach, hkind]
  refine fits_expect (by simp) fun semicolon => ?_
  refine fits_value (.inr semicolon.kind_eq) (by simp [semicolon.kind_eq]) fun value => ?_
  refine fits_expect (by simp) fun semicolon => ⟨?_, fun used _ => ⟨trivial, fun used _ => ?_⟩⟩
  · exact (starts_of_stop (.inl semicolon.kind_eq)).declared
  exact fits_expect (by simp) fun number => fits_expect (by simp) fun closing => hgoals _

theorem fits_foreachHeader (hkind : token.kind = .word .foreachWord)
    (hgoals : ∀ after, Fits goals after) :
    Fits (Goal.foreachHeader ++ goals) (token :: before) := by
  have hforeach (opening : Leaf .leftParen) :
      beginsForeach (opening.token :: token :: before) = true := by
    simp [beginsForeach, hkind, opening.kind_eq]
  refine fits_expect (by simp) fun opening => ⟨hforeach opening, ?_⟩
  rintro _ ⟨type, rfl⟩
  refine fits_expect (fun _ => ?_) fun name => fits_expect (by simp) fun inside => ?_
  · simp [declared?, type.kind_eq, hforeach opening]
  refine fits_value (.inl (inside.inner rfl)) (by simp [inside.kind_eq]) fun value => ?_
  exact fits_expect (by simp) fun closing => hgoals _

/-- A list of variables or of assignments ends at a place for a statement. -/
theorem starts_of_separatedTail {Part : Type} {tokensOf : Part → List Token}
    {used : List Token}
    (h : SeparatedTail tokensOf .semicolon used) (before : List Token) :
    Starts (used.reverse ++ before) := by
  obtain ⟨more, last, rfl⟩ := h
  rw [List.reverse_append]
  exact starts_of_stop (.inl last.kind_eq)

theorem fits_statement? (hstarts : Starts before) (h : Goal.statement? token = some next) :
    Fits next (token :: before) := by
  have hblock (afterIf : Bool) (after : List Token) :
      Fits (Goal.body ++ [.statements afterIf]) after :=
    fits_body fun _ hafter => fits_statements afterIf hafter
  unfold Goal.statement? at h
  split at h
  · rename_i hkind
    cases h
    have hname : token.kind.separates = false := separates_of_kind hkind rfl
    refine ⟨.of_identifier hkind hstarts.declared, ?_⟩
    rintro _ ⟨sign, value, rfl⟩
    have hinert := inert_read (List.forall_mem_cons.mpr ⟨sign.inner rfl, value.inner⟩)
      (declared?_of_inner hname : declared? (token :: before) = none)
    refine ⟨hinert.list.trans ((listType?_of_inner hname).trans hstarts.list), ?_⟩
    exact fun used hused => fits_statements false (starts_of_separatedTail hused _)
  · rename_i ty hkind
    cases h
    let type : Mark Kind.type := ⟨ty, token, hkind⟩
    refine ⟨⟨declared?_type type hstarts.foreach, listType?_type type before⟩, ?_⟩
    rintro _ ⟨parts, closing, rfl⟩
    rw [List.reverse_append]
    exact fits_statements false (starts_of_stop (.inl closing.kind_eq))
  · cases h
    rw [List.append_assoc]
    exact fits_condition (hblock true)
  · cases h
    rw [List.append_assoc]
    exact fits_condition (hblock false)
  · rename_i hkind
    cases h
    rw [List.append_assoc]
    exact fits_forHeader hkind (hblock false)
  · cases h
    simp only [List.append_assoc]
    refine fits_body fun after _ => fits_expect (by simp) fun word => fits_condition fun after => ?_
    exact fits_expect (by simp) fun semicolon =>
      fits_statements false (starts_of_stop (.inl semicolon.kind_eq))
  · rename_i hkind
    cases h
    rw [List.append_assoc]
    exact fits_foreachHeader hkind (hblock false)
  · cases h

/-- The expression goes on with the token. -/
theorem Follows.take {state later : Expression.State} {use : Use}
    (h : Follows state use before)
    (hbound : scopes.current.entries = localsOf before)
    (htake : state.take? scopes token = .ok (some later)) :
    Follows later use (token :: before) := by
  obtain ⟨seen, front, rfl, hspells, hfront, hsign, huse⟩ := h
  have hlocals := (inert_read hspells.inner hfront).locals
  rw [← hlocals, ← hbound] at hspells
  refine ⟨seen ++ [token], front, by simp, ?_, hfront, hsign, huse⟩
  rw [← hlocals, ← hbound]
  exact hspells.take htake

theorem mem_of_lookup {bindings : Bindings} {name : String} {ty : Ty}
    (h : bindings.lookup name = some ty) : (name, ty) ∈ bindings := by
  obtain ⟨front, back, rfl, _⟩ := List.lookup_eq_some_iff.mp h
  simp

theorem fits_statements_take {afterIf : Bool} (hstarts : Starts before)
    (h : (Goal.statements afterIf).take? scopes token = .ok (some next)) :
    Fits next (token :: before) := by
  simp only [Goal.take?, Except.ok.injEq] at h
  split at h
  · cases h
    trivial
  · rename_i style hkind
    cases h
    exact fits_statements false (hstarts.comments [⟨style, token, hkind⟩]).2
  · simp only [Option.ite_none_right_eq_some, Option.some.injEq] at h
    obtain ⟨_, rfl⟩ := h
    exact fits_body fun _ hafter => fits_statements false hafter
  · exact fits_statement? hstarts h

theorem fits_counter {ty : Ty} (hname : token.kind = .identifier)
    (hdeclared : declared? before = some ty) :
    Fits [.declare ty token, .assign ty token] (token :: before) := by
  refine ⟨.of_identifier hname hdeclared, ?_⟩
  rintro _ rfl
  exact ⟨.of_identifier hname hdeclared, fun _ _ => trivial⟩

/-- Behind the name of a variable and its value, the list of its type goes on. -/
theorem fits_variable {ty : Ty} (hname : token.kind = .identifier)
    (hdeclared : declared? before = some ty) (hlist : listType? before = some ty) :
    Fits [.declare ty token, .initializer ty token, .moreVariables ty] (token :: before) := by
  have hinner : token.kind.separates = false := separates_of_kind hname rfl
  have hopen : listType? (token :: before) = some ty :=
    (listType?_of_inner hinner).trans hlist
  refine ⟨.of_identifier hname hdeclared, ?_⟩
  rintro _ rfl
  refine ⟨.of_identifier hname hdeclared, ?_⟩
  rintro _ ⟨initial?, rfl⟩
  have hinert := inert_read (Declarator.inner_initial initial?)
    (declared?_of_inner hinner : declared? (token :: before) = none)
  exact ⟨hinert.list.trans hopen, fun _ _ => trivial⟩

theorem fits_moreTargets (comma : Leaf .comma) (hlist : listType? before = none) :
    Fits [.targetName, .moreTargets] (comma.token :: before) := by
  have hdeclared := (declared?_comma comma before).trans hlist
  have hclosed := (listType?_comma comma before).trans hlist
  refine ⟨hdeclared, ?_⟩
  rintro _ ⟨assignment, rfl⟩
  exact ⟨(inert_read assignment.inner hdeclared).list.trans hclosed, fun _ _ => trivial⟩

/-- What a goal asks for next finds what it expects behind the token. -/
theorem Goal.Expects.take (hexpects : goal.Expects before) (hlocal : goal.Local)
    (hbound : scopes.current.entries = localsOf before)
    (h : goal.take? scopes token = .ok (some next)) : Fits next (token :: before) := by
  cases goal with
  | expect | stepOperator =>
      simp only [Goal.take?, Except.ok.injEq, Option.ite_none_right_eq_some,
        Option.some.injEq] at h
      obtain ⟨_, rfl⟩ := h
      trivial
  | elementType =>
      simp only [Goal.take?, Except.ok.injEq, Option.map_eq_some_iff] at h
      obtain ⟨_, _, rfl⟩ := h
      trivial
  | firstParameter =>
      simp only [Goal.take?, Except.ok.injEq] at h
      split at h
      · cases h
        trivial
      · rename_i ty hkind
        cases h
        exact ⟨declared?_type ⟨ty, token, hkind⟩ hexpects, fun _ _ => ⟨trivial, fun _ _ => trivial⟩⟩
      · cases h
  | parameterType | counterType =>
      simp only [Goal.take?, Except.ok.injEq] at h
      obtain ⟨type, rfl, rfl⟩ := exists_mark_of_type? h
      exact ⟨declared?_type type hexpects, fun _ _ => trivial⟩
  | moreParameters =>
      simp only [Goal.take?, Except.ok.injEq] at h
      split at h
      · rename_i hkind
        cases h
        have hcomma : beginsForeach (token :: before) = false :=
          beginsForeach_of_ne (by simp [hkind])
        exact ⟨hcomma, fun _ _ => ⟨trivial, fun _ _ => trivial⟩⟩
      · cases h
        trivial
      · cases h
  | parameterName | targetName | stepName =>
      simp only [Goal.take?, Except.ok.injEq, Option.ite_none_right_eq_some,
        Option.some.injEq] at h
      obtain ⟨hname, rfl⟩ := h
      exact ⟨.of_identifier hname hexpects, fun _ _ => trivial⟩
  | counterName ty =>
      simp only [Goal.take?, Except.ok.injEq, Option.ite_none_right_eq_some,
        Option.some.injEq] at h
      obtain ⟨hname, rfl⟩ := h
      exact fits_counter hname hexpects
  | variableName ty =>
      simp only [Goal.take?, Except.ok.injEq, Option.ite_none_right_eq_some,
        Option.some.injEq] at h
      obtain ⟨hname, rfl⟩ := h
      exact fits_variable hname hexpects.1 hexpects.2
  | moreVariables ty =>
      simp only [Goal.take?, Except.ok.injEq] at h
      split at h
      · rename_i hkind
        cases h
        let comma : Leaf .comma := ⟨token, hkind⟩
        have hdeclared := (declared?_comma comma before).trans hexpects
        have hlist := (listType?_comma comma before).trans hexpects
        exact ⟨⟨hdeclared, hlist⟩, fun _ _ => trivial⟩
      · cases h
        trivial
      · cases h
  | moreTargets =>
      simp only [Goal.take?, Except.ok.injEq] at h
      split at h
      · rename_i hkind
        cases h
        exact fits_moreTargets ⟨token, hkind⟩ hexpects
      · cases h
        trivial
      · cases h
  | initializer ty name | assign ty name =>
      simp only [Goal.take?, Except.ok.injEq, Option.ite_none_right_eq_some,
        Option.some.injEq] at h
      obtain ⟨hsign, rfl⟩ := h
      exact ⟨Named.follows hexpects hsign (Named.mem_localsOf hexpects), fun _ _ => trivial⟩
  | target name =>
      simp only [Goal.take?] at h
      split at h
      · cases h
      · rename_i ty hlookup
        simp only [Except.ok.injEq, Option.ite_none_right_eq_some, Option.some.injEq] at h
        obtain ⟨hsign, rfl⟩ := h
        have hmem := mem_of_lookup hlookup
        rw [hbound] at hmem
        exact ⟨Named.follows hexpects hsign hmem, fun _ _ => trivial⟩
  | statements => exact fits_statements_take hexpects h
  | expression state use =>
      simp only [Goal.take?] at h
      split at h
      · rename_i htake
        simp only [Except.ok.injEq, Option.map_eq_some_iff] at h
        obtain ⟨later, rfl, rfl⟩ := h
        exact ⟨Follows.take hexpects hbound htake, fun _ _ => trivial⟩
      · cases h
  | declare | known => cases h
  | _ => exact hlocal.elim

/-- What is declared next, if the first goal declares a name that has just been read. -/
def pending : List Goal → Bindings
  | .declare ty name :: _ => [(name.lexeme, ty)]
  | _ => []

theorem pending_of_head (h : ∀ ty name, goals.head? ≠ some (.declare ty name)) :
    pending goals = [] := by
  unfold pending
  split
  · exact absurd rfl (h _ _)
  · rfl

theorem Follows.declared {state : Expression.State} {use : Use}
    (h : Follows state use before) :
    declared? before = none := by
  obtain ⟨seen, front, rfl, hspells, hfront, _⟩ := h
  exact (inert_read hspells.inner hfront).declared

/-- A name that is taken where a declaration goes on is declared next. -/
theorem Goal.Expects.declares (hexpects : goal.Expects before) (hlocal : goal.Local)
    (h : goal.take? scopes token = .ok (some next)) (hname : token.kind = .identifier) :
    declared? before = none ∨ ∃ ty name more, next = .declare ty name :: more := by
  cases goal with
  | expect kind =>
      simp only [Goal.take?, Except.ok.injEq, Option.ite_none_right_eq_some] at h
      exact .inl (hexpects (h.1.symm.trans hname))
  | targetName | stepName => exact .inl hexpects
  | statements => exact .inl (Starts.declared hexpects)
  | expression => exact .inl (Follows.declared hexpects)
  | parameterName | variableName | counterName =>
      simp only [Goal.take?, Except.ok.injEq, Option.ite_none_right_eq_some,
        Option.some.injEq] at h
      obtain ⟨_, rfl⟩ := h
      exact .inr ⟨_, _, _, rfl⟩
  | target name =>
      simp only [Goal.take?, hname] at h
      split at h <;> simp at h
  | firstParameter | parameterType | moreParameters | initializer | moreVariables | assign
  | moreTargets | counterType | stepOperator | elementType =>
      simp [Goal.take?, hname, Kind.type?, Kind.isStep] at h
  | declare | known => cases h
  | _ => exact hlocal.elim

/-- A name is about to be declared just where the tokens declare one. -/
theorem Goal.Expects.pending (hexpects : goal.Expects before) (hlocal : goal.Local)
    (hhead : ∀ ty name, goals.head? ≠ some (.declare ty name))
    (h : goal.take? scopes token = .ok (some next)) (hfits : Fits next (token :: before)) :
    pending (next ++ goals) = (binding? token before).toList := by
  by_cases hdeclares : ∃ ty name more, next = .declare ty name :: more
  · obtain ⟨ty, name, more, rfl⟩ := hdeclares
    obtain ⟨earlier, hsame, hname, hdeclared⟩ := hfits.1
    cases hsame
    simp [Analysis.pending, binding?, hname, hdeclared]
  · have hnone : Analysis.pending (next ++ goals) = [] := by
      refine pending_of_head fun ty name hfirst => ?_
      cases next with
      | nil => exact hhead ty name hfirst
      | cons first more =>
          cases hfirst
          exact hdeclares ⟨ty, name, more, rfl⟩
    rw [hnone]
    by_cases hname : token.kind = .identifier
    · have hdeclared := (hexpects.declares hlocal h hname).resolve_right hdeclares
      simp [binding?, hdeclared]
    · simp [binding?, hname]

end Take

/-! ## Finishing a goal -/

section Finish

variable {scopes after : Scope.Stack} {ahead : Lookahead} {goal : Goal}

theorem distinct_append_singleton {bindings : Bindings} {name : String} {ty : Ty}
    (h : Bindings.Distinct bindings) (hnew : bindings.lookup name = none) :
    Bindings.Distinct (bindings ++ [(name, ty)]) := by
  rw [← fresh_nil_left, fresh_append, fresh_nil_left]
  exact ⟨h, (fresh_singleton _ (name, ty)).mpr hnew⟩

/-- A local goal that is finished binds the name that it declares, which was not bound. -/
theorem Goal.entries_of_finish (goals : List Goal) (hlocal : goal.Local)
    (h : goal.finish scopes ahead = .ok after) :
    after.current.entries = scopes.current.entries ++ pending (goal :: goals) ∧
      (Bindings.Distinct scopes.current.entries → Bindings.Distinct after.current.entries) := by
  have hsame (heq : after = scopes) (hnone : pending (goal :: goals) = []) :
      after.current.entries = scopes.current.entries ++ pending (goal :: goals) ∧
        (Bindings.Distinct scopes.current.entries → Bindings.Distinct after.current.entries) := by
    rw [heq, hnone, List.append_nil]
    exact ⟨rfl, id⟩
  cases goal with
  | declare ty name =>
      rw [finish, bindName_eq] at h
      split at h
      · rename_i hnew
        cases h
        rw [Scope.Stack.entries_extend]
        exact ⟨rfl, fun hdistinct => distinct_append_singleton hdistinct hnew⟩
      · cases h
  | known name =>
      rw [finish, resolveName_eq] at h
      split at h <;> cases h
      exact hsame rfl rfl
  | initializer ty name =>
      cases h
      exact hsame rfl rfl
  | target name =>
      simp only [finish] at h
      split at h <;> cases h
  | expression state use =>
      simp only [finish] at h
      split at h
      · split at h <;> cases h
        exact hsame rfl rfl
      · cases h
  | expect | firstParameter | parameterType | parameterName | moreParameters | statements
  | variableName | moreVariables | targetName | assign | moreTargets | counterType
  | counterName | stepName | stepOperator | elementType => cases h
  | _ => exact hlocal.elim

end Finish

/-! ## Bodies -/

/-- The statements of a body are the last that is asked for. -/
def Unclosed (goals : List Goal) : Prop :=
  ∀ goal ∈ goals.getLast?, ∃ afterIf, goal = .statements afterIf

section Unclosed

variable {scopes : Scope.Stack} {token : Token} {goal : Goal} {next goals : List Goal}

theorem Unclosed.tail (h : Unclosed (goal :: goals)) : Unclosed goals := by
  cases goals with
  | nil => simp [Unclosed]
  | cons second goals => exact h

theorem Unclosed.take (h : Unclosed (goal :: goals))
    (htake : goal.take? scopes token = .ok (some next)) : Unclosed (next ++ goals) := by
  cases goals with
  | cons second goals =>
      intro last hlast
      exact h last (by simpa using hlast)
  | nil =>
      obtain ⟨afterIf, rfl⟩ := h goal rfl
      rw [List.append_nil]
      simp only [Goal.take?, Except.ok.injEq] at htake
      split at htake
      · cases htake
        simp [Unclosed]
      · cases htake
        simp [Unclosed]
      · simp only [Option.ite_none_right_eq_some, Option.some.injEq] at htake
        obtain ⟨_, rfl⟩ := htake
        simp [Unclosed]
      · unfold Goal.statement? at htake
        split at htake <;> cases htake <;> simp [Unclosed, Goal.condition, Goal.body]

/-- A body that is not closed has its closing brace to come. -/
theorem Unclosed.ne_nil {tokens : List Token} (h : Unclosed (goal :: goals))
    (htokens : AdmitsAll (goal :: goals) tokens) : tokens ≠ [] := by
  obtain hnil | ⟨front, last, hgoals⟩ := (goal :: goals).eq_nil_or_concat
  · cases hnil
  rw [hgoals, List.concat_eq_append] at h htokens
  obtain ⟨afterIf, rfl⟩ := h last (by simp)
  obtain ⟨read, back, rfl, _, hback⟩ := admitsAll_append.mp htokens
  rcases admitsAll_singleton.mp hback with ⟨block, rfl⟩ | ⟨_, otherwise, opening, other, block, rfl⟩
  · simp [block.tokens_ne_nil]
  · simp

end Unclosed

/-! ## Runs -/

/-- Where a run inside of a method stands behind the tokens that it has read there. -/
structure Course (config : Config) (before : List Token) : Prop where
  orderly : Orderly config.goals
  locals : LocalGoals config.goals
  unclosed : Unclosed config.goals
  fits : Fits config.goals before
  bound : config.scopes.current.entries ++ pending config.goals = localsOf before
  distinct : Bindings.Distinct config.scopes.current.entries

section Runs

variable {before after config : Config} {earlier : List Token}

theorem course_start {outer : Scope.Stack}
    (hgoals : config.goals = .firstParameter :: Goal.body)
    (hscopes : config.scopes = outer.opened .empty) : Course config [] := by
  have hentries : config.scopes.current.entries = [] := by
    rw [hscopes]
    rfl
  refine ⟨?_, hgoals ▸ localGoals_method, ?_, ?_, ?_, ?_⟩
  · rw [hgoals]
    simp [Orderly, Goal.Leads, Goal.body, Kind.isComment]
  · rw [hgoals]
    simp [Unclosed, Goal.body]
  · rw [hgoals]
    refine ⟨rfl, fun used _ => ?_⟩
    exact fits_expect (by simp) fun opening =>
      fits_statements false (starts_of_stop (.inr (.inl opening.kind_eq)))
  · rw [hgoals, hentries]
    rfl
  · rw [hentries]
    exact List.nodup_nil

theorem Course.step (hcourse : Course before earlier) (h : Step before after) :
    ∃ read, before.rest = read ++ after.rest ∧ Course after (read.reverse ++ earlier) := by
  obtain ⟨horderly, hlocals, hunclosed, hfits, hbound, hdistinct⟩ := hcourse
  have horderly' := h.orderly horderly
  cases h with
  | @take goal goals next scopes last token rest h =>
      obtain ⟨_, hhead, _⟩ := horderly
      obtain ⟨hlocal, hgoals⟩ := List.forall_mem_cons.mp hlocals
      obtain ⟨hexpects, hmore⟩ := hfits
      -- Only a goal that takes no token declares a name.
      have hnone : pending (goal :: goals) = [] := by
        unfold pending
        split
        · rename_i heq
          cases heq
          cases h
        · rfl
      simp only [hnone, List.append_nil] at hbound
      have hnext := hexpects.take hlocal hbound h
      refine ⟨[token], rfl, horderly', ?_, hunclosed.take h, ?_, ?_, hdistinct⟩
      · exact List.forall_mem_append.mpr ⟨Goal.local_of_take hlocal h, hgoals⟩
      · refine fits_append.mpr ⟨hnext, fun used hused => ?_⟩
        have hmore := hmore (token :: used) (Goal.admits_of_take h hused)
        simpa using hmore
      · simp only [hbound, hexpects.pending hlocal hhead h hnext]
        rfl
  | @finish _ goal goals scopes hgoals hpasses h =>
      rw [hgoals] at horderly hlocals hunclosed hfits hbound
      obtain ⟨_, hhead, _⟩ := horderly
      obtain ⟨hlocal, hlater⟩ := List.forall_mem_cons.mp hlocals
      obtain ⟨hentries, hkeeps⟩ := Goal.entries_of_finish goals hlocal h
      refine ⟨[], rfl, horderly', hlater, hunclosed.tail, ?_, ?_, hkeeps hdistinct⟩
      · simpa using hfits.2 [] (Goal.admits_of_finish h)
      · simp only [pending_of_head hhead, List.append_nil, hentries]
        exact hbound

theorem Course.exists_steps (hcourse : Course before earlier) (h : Steps before after) :
    ∃ read, before.rest = read ++ after.rest ∧ Course after (read.reverse ++ earlier) := by
  induction h generalizing earlier with
  | refl config => exact ⟨[], rfl, hcourse⟩
  | next first _ ih =>
      obtain ⟨front, hfront, hmiddle⟩ := hcourse.step first
      obtain ⟨back, hback, hafter⟩ := ih hmiddle
      refine ⟨front ++ back, by rw [hfront, hback, List.append_assoc], ?_⟩
      rw [List.reverse_append, List.append_assoc]
      exact hafter

theorem Course.steps {read : List Token} (hcourse : Course before earlier)
    (h : Steps before after) (hread : before.rest = read ++ after.rest) :
    Course after (read.reverse ++ earlier) := by
  obtain ⟨taken, htaken, hafter⟩ := hcourse.exists_steps h
  obtain rfl := List.append_cancel_right (htaken.symm.trans hread)
  exact hafter

theorem Step.admits (h : Step before after) :
    ∃ read, before.rest = read ++ after.rest ∧
      ∀ more, AdmitsAll after.goals more → AdmitsAll before.goals (read ++ more) := by
  cases h with
  | @take goal goals next scopes last token rest h =>
      refine ⟨[token], rfl, fun more hmore => ?_⟩
      obtain ⟨front, back, rfl, hfront, hback⟩ := admitsAll_append.mp hmore
      exact ⟨token :: front, back, rfl, Goal.admits_of_take h hfront, hback⟩
  | finish hgoals hpasses h =>
      refine ⟨[], rfl, fun more hmore => ?_⟩
      rw [hgoals]
      exact admitsAll_cons_of_admits_nil (Goal.admits_of_finish h) hmore

theorem Steps.exists_admits (h : Steps before after) :
    ∃ read, before.rest = read ++ after.rest ∧
      ∀ more, AdmitsAll after.goals more → AdmitsAll before.goals (read ++ more) := by
  induction h with
  | refl config => exact ⟨[], rfl, fun more hmore => hmore⟩
  | next first _ ih =>
      obtain ⟨front, hfront, hfirst⟩ := first.admits
      obtain ⟨back, hback, hlater⟩ := ih
      refine ⟨front ++ back, by rw [hfront, hback, List.append_assoc], fun more hmore => ?_⟩
      rw [List.append_assoc]
      exact hfirst _ (hlater more hmore)

/-- What meets the goals that are left, behind the tokens read, meets the goals before. -/
theorem Steps.admits {read more : List Token} (h : Steps before after)
    (hread : before.rest = read ++ after.rest) (hmore : AdmitsAll after.goals more) :
    AdmitsAll before.goals (read ++ more) := by
  obtain ⟨taken, htaken, hadmits⟩ := h.exists_admits
  obtain rfl := List.append_cancel_right (htaken.symm.trans hread)
  exact hadmits more hmore

end Runs

end Analysis

end Classlet
