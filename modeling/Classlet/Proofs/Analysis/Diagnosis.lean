import Classlet.Proofs.Analysis.Course
import Classlet.Proofs.Analysis.Fields
import Classlet.Proofs.Analysis.Viability

/-!
# Diagnoses

A fault stands at a token of the text, and what it says is so.  What was read is the
beginning of a program.  A fault about names or types inside of a method speaks of the
names that are declared between the opening parenthesis of the method and the token;
one about a field, of the fields in front of it.
-/

namespace Classlet

/-- The token a fault is about, in a text with the given tokens. -/
def Fault.blamed? (tokens : List Token) : Fault → Option Token
  | unexpected _ (.token found) => some found
  | unexpected _ (.ending _) => tokens.getLast?
  | duplicate name _ => some name
  | undeclared name => some name
  | assignment _ _ _ sign => some sign
  | operands sign _ _ => some sign
  | nonBoolean sign _ _ => some sign

namespace Analysis

open Grammar
open Expression (Barred EndsExpression Misfit Spells Waits)

/-! ## What faults say -/

/--
What is read ends inside of a method, whose tokens behind the opening parenthesis are
`seen` so far: with more tokens they are a method, and that stands in a program.  The
names declared so far are the first of its parameters and locals.
-/
inductive Within : List Token → List Token → Prop where
  | intro (front back : List Token) (title : Title) (method : Method) {seen more : List Token}
      (htokens : method.tokens = method.opening.token :: (seen ++ more)) (hmore : more ≠ [])
      (hsentence : Sentence (front ++ title.tokens ++ (method.tokens ++ back)))
      (hlocals : localsOf seen.reverse <+: method.parameters ++ method.body.locals) :
      Within (front ++ title.tokens ++ method.opening.token :: seen) seen

/--
Behind the name of a field: with more tokens this is a field of a program.  One of the
fields of that program in front of it has the name as well.
-/
def RepeatsField (read rest : List Token) (name : Token) (previous : Ty) : Prop :=
  ∃ (front back : List Token) (title : Title) (closing : Leaf .semicolon) (program : Program)
    (earlier : Bindings), read = front ++ title.tokens ∧ title.name.token = name ∧
    rest.head?.map Token.kind ≠ some .leftParen ∧
    program.tokens = read ++ closing.token :: back ∧
    earlier = fieldsIn [title.access.token] front ∧
    earlier ++ [(name.lexeme, title.type.value)] <+: program.fields ∧
    earlier.lookup name.lexeme = some previous

/-- Behind a name that is declared in a method, and has been declared in it before. -/
def RepeatsLocal (read : List Token) (name : Token) (previous : Ty) : Prop :=
  ∃ (front seen : List Token) (ty : Ty), read = front ++ [name] ∧ Within read (seen ++ [name]) ∧
    name.kind = .identifier ∧ declared? seen.reverse = some ty ∧
    (localsOf seen.reverse).lookup name.lexeme = some previous

/-- A name is used in a method, and has not been declared in it. -/
def UsesUnknown (tokens : List Token) (name : Token) : Prop :=
  ∃ front seen back : List Token, tokens = front ++ name :: back ∧
    Within (front ++ [name]) (seen ++ [name]) ∧ name.kind = .identifier ∧
    declared? seen.reverse = none ∧ (localsOf seen.reverse).lookup name.lexeme = none

/-- Behind a value of one type that is assigned to a target of another type. -/
def Misassigns (read rest : List Token) (target sign : Token) (declared found : Ty) :
    Prop :=
  ∃ (front seen : List Token) (value : Expression),
    read = front ++ target :: sign :: value.tokens ∧
    Within read (seen ++ target :: sign :: value.tokens) ∧
    target.kind = .identifier ∧ sign.kind = .assign ∧
    (∀ token ∈ rest.head?, EndsExpression token) ∧
    (localsOf (target :: seen.reverse)).lookup target.lexeme = some declared ∧
    value.type? (localsOf (target :: seen.reverse)) = some found ∧ declared ≠ found

/--
Behind both operands of a sign, each as long as the levels of the signs around it
allow, and with the given types.
-/
def Joins (read rest : List Token) (sign : Mark Kind.binary) (leftType rightType : Ty) :
    Prop :=
  ∃ (front seen : List Token) (left : Phrase (sign.value.level + 1))
    (right : Phrase (sign.value.level + 2)),
    read = front ++ (left.tokens ++ sign.token :: right.tokens) ∧
    Within read (seen ++ (left.tokens ++ sign.token :: right.tokens)) ∧
    left.type? (localsOf seen.reverse) = some leftType ∧
    right.type? (localsOf seen.reverse) = some rightType ∧
    (∀ token ∈ front.getLast?, ∀ operator, token.kind = .binary operator →
      operator.level < sign.value.level) ∧
    ∀ token ∈ rest.find? (! ·.kind.isComment), ∀ operator, token.kind = .binary operator →
      operator.level ≤ sign.value.level

/-- What a fault says is so where `read` has been read and `rest` is left. -/
def Justifies (read rest : List Token) (fault : Fault) : Prop :=
  match fault with
  | .unexpected _ _ => Refutes fault read rest ∧
      (rest = [] → ∃ last ∈ read.getLast?, fault.position = last.position)
  | .duplicate name previous =>
      RepeatsField read rest name previous ∨ RepeatsLocal read name previous
  | .undeclared name => UsesUnknown (read ++ rest) name
  | .assignment target declared found sign => Misassigns read rest target sign declared found
  | .operands token left right => ∃ sign : Mark Kind.binary, sign.token = token ∧
      Joins read rest sign left right ∧ left ≠ right
  | .nonBoolean token left right => ∃ sign : Mark Kind.binary, sign.token = token ∧
      (sign.value = .and ∨ sign.value = .or) ∧ Joins read rest sign left right ∧
      ¬ (left = .bool ∧ right = .bool)

/-! ## Names of fields -/

section Fields

variable {tokens rest : List Token} {config : Config} {fault : Fault}

/-- An access modifier is no part of a field that begins in front of it. -/
theorem fieldsIn_append {access : Token} (haccess : access.kind.isAccess)
    (rest front more : List Token) :
    fieldsIn rest (front ++ access :: more) =
      fieldsIn [access] front ++ fieldsIn rest (access :: more) := by
  have hnoType : access.kind.type? = none := by
    cases hkind : access.kind <;> simp_all [Kind.isAccess, Kind.type?]
  have hnoName : access.kind ≠ .identifier := by
    intro hkind
    rw [hkind] at haccess
    cases haccess
  induction front with
  | nil => rfl
  | cons token front ih =>
      have hfield : field? rest (token :: (front ++ access :: more)) =
          field? [access] (token :: front) := by
        cases front with
        | nil => cases more <;> simp [field?, hnoType]
        | cons second front =>
            cases front with
            | nil => simp [field?, hnoName]
            | cons third front => simp [field?]
      simp only [List.cons_append, fieldsIn, hfield, ih, List.append_assoc]

/-- The fields up to one field are those in front of it and that field. -/
theorem fieldsIn_title (title : Title) (front : List Token) {more rest : List Token}
    (hahead : (more ++ rest).head?.map Token.kind ≠ some .leftParen) :
    fieldsIn rest (front ++ title.tokens ++ more) =
      fieldsIn [title.access.token] front ++
        (title.name.token.lexeme, title.type.value) :: fieldsIn rest more := by
  have haccess : title.access.token.kind.isAccess := by
    rw [title.access.kind_eq]
    rfl
  have htype : title.type.token.kind.type? = some title.type.value := by
    rw [title.type.kind_eq]
    rfl
  rw [List.append_assoc]
  exact (fieldsIn_append haccess rest front _).trans
    (congrArg _ (fieldsIn_field haccess htype title.name.kind_eq hahead))

theorem Layered.header_of_field {ty : Ty} {name : Token} {goals : List Goal}
    {locals : List Scope.Table} {seen : List Token}
    (h : Layered (.field ty name :: goals) locals seen) :
    locals = [] ∧ Header (.field ty name) seen := by
  generalize hall : Goal.field ty name :: goals = all at h
  cases h with
  | outside houter => exact (houter (.field ty name) (hall ▸ List.mem_cons_self ..)).elim
  | header hheader _ =>
      cases hall
      exact ⟨rfl, hheader⟩
  | announced => cases hall
  | @inside inner outer _ table hinner houter =>
      cases inner with
      | nil => cases hall
      | cons goal inner =>
          cases hall
          exact (hinner (.field ty name) (List.mem_cons_self ..)).elim

/-- Where the name of a field is to be bound, the fields in front of it are bound. -/
theorem Steps.bound_fields (hsteps : Steps (.initial tokens) config) {title : Title}
    {front : List Token} {goals : List Goal}
    (hgoals : config.goals = .field title.type.value title.name.token :: goals)
    (hread : tokens = front ++ title.tokens ++ config.rest)
    (hahead : config.rest.head?.map Token.kind ≠ some .leftParen) :
    config.scopes.current.entries = fieldsIn [title.access.token] front := by
  have hlayered : Layered (Config.initial tokens).goals (Config.initial tokens).scopes.locals [] :=
    .outside (by simp [Config.initial, Goal.Outer])
  obtain ⟨still, read, declared, hfinal, hrest, hbindings, hfields⟩ :=
    hsteps.layered hlayered
  rw [hgoals] at hfinal
  obtain ⟨hlocals, hheader⟩ := hfinal.header_of_field
  have hcurrent : config.scopes.current.entries = declared := by
    have hglobal : config.scopes.current = config.scopes.global := by
      simp [Scope.Stack.current, hlocals]
    rw [hglobal, hbindings]
    rfl
  obtain rfl : read = front ++ title.tokens :=
    List.append_cancel_right (hrest.symm.trans hread)
  -- Both the title and the header that was noted spell just this field.
  have htitle : fieldsIn config.rest (front ++ title.tokens ++ []) = _ :=
    fieldsIn_title title front hahead
  have hstill : fieldsIn config.rest still =
      [(title.name.token.lexeme, title.type.value)] := by
    cases hheader with
    | field haccess htype hname => exact fieldsIn_field haccess htype hname hahead
  have hfields := hfields [] config.rest rfl
  rw [List.nil_append, htitle, List.append_nil, hstill] at hfields
  rw [hcurrent]
  exact (List.append_cancel_right hfields).symm

/-- Behind the name of a field a semicolon completes it, and the program can go on. -/
theorem Steps.exists_program_of_field (hsteps : Steps (.initial tokens) config)
    {title : Title}
    {front : List Token} {ty : Ty} {name : Token} {goals : List Goal}
    (hgoals : config.goals = .field ty name :: .memberRest name :: goals)
    (hread : tokens = front ++ title.tokens ++ config.rest) :
    ∃ (closing : Leaf .semicolon) (back : List Token) (program : Program),
      program.tokens = front ++ title.tokens ++ closing.token :: back ∧
      fieldsIn [title.access.token] front ++ [(title.name.token.lexeme, title.type.value)] <+:
        program.fields := by
  let closing : Leaf .semicolon := ⟨⟨.semicolon, ";", .start⟩, rfl⟩
  obtain ⟨back, hback⟩ := exists_admitsAll goals
  have hrest : AdmitsAll (.memberRest name :: goals) (closing.token :: back) :=
    ⟨[closing.token], back, rfl, ⟨.field closing, rfl⟩, hback⟩
  have hleft : AdmitsAll config.goals (closing.token :: back) := by
    rw [hgoals]
    exact admitsAll_cons_of_admits_nil rfl hrest
  obtain ⟨program, hprogram⟩ := admitsAll_singleton.mp (hsteps.admits hread hleft)
  have hfields : fieldsIn [] (front ++ title.tokens ++ closing.token :: back) = _ :=
    fieldsIn_title title front (by simp [closing.kind_eq])
  rw [← hprogram, fieldsIn_program] at hfields
  refine ⟨closing, back, program, hprogram, fieldsIn [] (closing.token :: back), ?_⟩
  rw [hfields, List.append_assoc, List.singleton_append]

end Fields

/-! ## Inside of methods -/

theorem localsOf_append (before inner : List Token) :
    localsOf before <+: localsOf (inner ++ before) := by
  induction inner with
  | nil => exact List.prefix_rfl
  | cons token inner ih => exact ih.trans (List.prefix_append _ _)

/--
The names that the first tokens of a method declare are its first parameters and locals.
-/
theorem localsOf_of_tokens {method : Method} {seen more : List Token}
    (h : method.tokens = method.opening.token :: (seen ++ more)) :
    localsOf seen.reverse <+: method.parameters ++ method.body.locals := by
  rw [← localsOf_method, h, List.tail_cons, List.reverse_append]
  exact localsOf_append seen.reverse more.reverse

/--
Whatever meets the goals of the method completes it, and the program can go on behind it.
-/
theorem within_of_steps {tokens front seen used more : List Token} {config start : Config}
    {title : Title} {opening : Leaf .leftParen} {inner plain : List Goal} {name : Token}
    (hsteps : Steps (.initial tokens) config)
    (hread : tokens = front ++ title.tokens ++ opening.token :: seen ++ config.rest)
    (hgoals : config.goals = inner ++ .leave name :: plain)
    (hstart : start.goals = .firstParameter :: Goal.body) (hrest : start.rest = seen ++ config.rest)
    (hinner : Steps start (config.with inner)) (hmore : more ≠ [])
    (hadmits : AdmitsAll inner (used ++ more)) :
    Within (front ++ title.tokens ++ opening.token :: (seen ++ used)) (seen ++ used) := by
  have hmethod : AdmitsAll (.firstParameter :: Goal.body) (seen ++ (used ++ more)) := by
    rw [← hstart]
    exact hinner.admits hrest hadmits
  obtain ⟨method, rfl, hmethod⟩ := exists_method_of_admits opening hmethod
  obtain ⟨back, hback⟩ := exists_admitsAll plain
  have hleft : AdmitsAll config.goals (used ++ more ++ back) := by
    rw [hgoals]
    exact admitsAll_append.mpr
      ⟨used ++ more, back, rfl, hadmits, admitsAll_cons_of_admits_nil rfl hback⟩
  have hsentence : Sentence _ := admitsAll_singleton.mp (hsteps.admits hread hleft)
  have htokens : method.tokens = method.opening.token :: (seen ++ used ++ more) := by
    rw [hmethod, List.append_assoc]
  refine .intro front back title method htokens hmore ?_ (localsOf_of_tokens htokens)
  simpa [hmethod] using hsentence

/--
The run is inside of a method and has read `seen` behind its opening parenthesis, with
`front` up to there; `inner` are the goals of the method.
-/
structure Inside (config : Config) (inner : List Goal) (front seen : List Token) :
    Prop where
  course : Course (config.with inner) seen.reverse
  within : ∀ used more, more ≠ [] → AdmitsAll inner (used ++ more) →
    Within (front ++ (seen ++ used)) (seen ++ used)

/--
A run over a text is outside of members, in the heading of one, or inside of a method.
-/
theorem exists_place {tokens : List Token} {config : Config}
    (hsteps : Steps (.initial tokens) config) :
    ∃ read, tokens = read ++ config.rest ∧
      ((∀ goal ∈ config.goals, goal.Plain) ∨
      (∃ (front seen : List Token) (heading plain : List Goal), read = front ++ seen ∧
        Heading heading seen ∧ config.goals = heading ++ plain) ∨
      ∃ (inner plain : List Goal) (name : Token) (front seen : List Token), read = front ++ seen ∧
        config.goals = inner ++ .leave name :: plain ∧ Inside config inner front seen) := by
  obtain ⟨read, hread, hstage⟩ := exists_stage hsteps
  refine ⟨read, hread, ?_⟩
  cases hstage with
  | outside _ hplain => exact .inl hplain
  | heading front hheading hgoals hplain =>
      exact .inr (.inl ⟨front, _, _, _, rfl, hheading, hgoals⟩)
  | @inside start inner plain _ front seen title opening hgoals _ hstart hopened hrest hinner =>
      have hcourse := (course_start hstart hopened).steps hinner hrest
      rw [List.append_nil] at hcourse
      refine .inr (.inr ⟨inner, plain, title.name.token, front ++ title.tokens ++ [opening.token],
        seen, by simp, hgoals, hcourse, fun used more hmore hadmits => ?_⟩)
      have hwithin := within_of_steps hsteps hread hgoals hstart hrest hinner hmore hadmits
      simpa using hwithin

namespace Inside

variable {config : Config} {goal : Goal} {goals : List Goal} {front seen rest : List Token}
variable {token name : Token} {fault : Fault}

/-- Unless a name is to be declared first, the names that are bound are those declared. -/
theorem entries (h : Inside config (goal :: goals) front seen)
    (hnone : pending (goal :: goals) = []) :
    config.scopes.current.entries = localsOf seen.reverse := by
  have hbound : config.scopes.current.entries ++ pending (goal :: goals) = localsOf seen.reverse :=
    h.course.bound
  rwa [hnone, List.append_nil] at hbound

theorem within_read (h : Inside config (goal :: goals) front seen) :
    Within (front ++ seen) seen := by
  obtain ⟨more, hmore⟩ := exists_admitsAll (goal :: goals)
  have hwithin := h.within [] more (h.course.unclosed.ne_nil hmore) hmore
  simpa using hwithin

theorem usesUnknown (h : Inside config (goal :: goals) front seen)
    (hnamed : Named name none seen.reverse)
    (hlookup : (localsOf seen.reverse).lookup name.lexeme = none) (rest : List Token) :
    UsesUnknown (front ++ seen ++ rest) name := by
  obtain ⟨earlier, hseen, hkind, hdeclared⟩ := hnamed
  have hwithin := h.within_read
  rw [List.reverse_eq_iff.mp hseen, List.reverse_cons] at hwithin ⊢
  rw [hseen, localsOf_cons_of_not_declared hdeclared] at hlookup
  refine ⟨front ++ earlier.reverse, earlier.reverse, rest, by simp, ?_, hkind, ?_, ?_⟩
  · rw [List.append_assoc]
    exact hwithin
  · rw [List.reverse_reverse]
    exact hdeclared
  · rw [List.reverse_reverse]
    exact hlookup

theorem repeatsLocal {ty previous : Ty}
    (h : Inside config (.declare ty name :: goals) front seen)
    (hlookup : config.scopes.current.entries.lookup name.lexeme = some previous) :
    RepeatsLocal (front ++ seen) name previous := by
  obtain ⟨earlier, hseen, hkind, hdeclared⟩ := h.course.fits.1
  have hbound : config.scopes.current.entries ++ [(name.lexeme, ty)] = localsOf seen.reverse :=
    h.course.bound
  rw [hseen, localsOf_name ⟨name, hkind⟩ hdeclared] at hbound
  rw [List.append_cancel_right hbound] at hlookup
  have hwithin := h.within_read
  rw [List.reverse_eq_iff.mp hseen, List.reverse_cons] at hwithin ⊢
  refine ⟨front ++ earlier.reverse, earlier.reverse, ty, by simp, hwithin, hkind, ?_, ?_⟩
  · rw [List.reverse_reverse]
    exact hdeclared
  · rw [List.reverse_reverse]
    exact hlookup

/-- A name at which an expression fails is one that the method could go on with. -/
theorem usesUnknown_next {frames : List Expression.Frame} {use : Use}
    (h : Inside config (.expression (.operand frames) use :: goals) front seen)
    (hkind : token.kind = .identifier)
    (hlookup : (localsOf seen.reverse).lookup token.lexeme = none) (rest : List Token) :
    UsesUnknown (front ++ seen ++ token :: rest) token := by
  obtain ⟨ends, hends⟩ := Expression.State.exists_admits (.operator frames .int)
  obtain ⟨more, hmore⟩ := exists_admitsAll goals
  have hexpression : (Goal.expression (.operand frames) use).Admits (token :: ends) :=
    Wanting.factor [token] (.name ⟨token, hkind⟩) (fun _ => rfl) hends
  have hne : ends ++ more ≠ [] := by
    cases goals with
    | nil =>
        obtain ⟨_, hstatements⟩ := h.course.unclosed _ rfl
        cases hstatements
    | cons goal goals =>
        exact List.append_ne_nil_of_right_ne_nil _ (h.course.unclosed.tail.ne_nil hmore)
  have hwithin :=
    h.within [token] (ends ++ more) hne ⟨token :: ends, more, rfl, hexpression, hmore⟩
  refine ⟨front ++ seen, seen, rest, rfl, ?_, hkind, Follows.declared h.course.fits.1, hlookup⟩
  simpa using hwithin

end Inside

/-! ## Expressions inside of methods -/

section Expressions

variable {config : Config} {goals : List Goal} {front seen rest before : List Token}
variable {state : Expression.State} {use : Use} {fault : Fault} {level : Nat}

/-- In front of the operands that are joined first stands no sign of as high a level. -/
theorem level_lt_of_waits {known : Bindings} {frames : List Expression.Frame}
    (hwaits : Waits known frames seen) (hbarred : Barred level frames)
    (hbefore : ∀ token ∈ before.getLast?, ∀ operator, token.kind ≠ .binary operator) :
    ∀ token ∈ (before ++ seen).getLast?, ∀ operator, token.kind = .binary operator →
      operator.level < level := by
  cases hwaits with
  | nil =>
      intro token htoken operator hkind
      rw [List.append_nil] at htoken
      exact absurd hkind (hbefore token htoken operator)
  | group opening _ =>
      simp [opening.kind_eq]
  | operation sign left _ _ _ =>
      have hlevel : sign.value.level < level := hbarred
      simp [sign.kind_eq, hlevel]

theorem typing_error {operator : Operator} {sign : Token} {left right : Ty}
    (h : operator.typing sign left right = .error fault) :
    (fault = .nonBoolean sign left right ∧ (operator = .and ∨ operator = .or) ∧
      ¬ (left = .bool ∧ right = .bool)) ∨
    fault = .operands sign left right ∧ left ≠ right := by
  cases operator <;> simp only [Operator.typing] at h <;> split at h <;> cases h <;> simp_all

/--
If no higher operator comes next, none comes behind comments, which complete operations.
-/
theorem level_le_of_ahead
    (h : ∀ token ∈ rest.head?, ∀ operator, token.kind.isComment ∨ token.kind = .binary operator →
      operator.level ≤ level) :
    ∀ token ∈ rest.find? (! ·.kind.isComment), ∀ operator, token.kind = .binary operator →
      operator.level ≤ level := by
  cases rest with
  | nil => simp
  | cons first rest =>
      intro token htoken operator hkind
      cases hcomment : first.kind.isComment with
      | true => exact h first rfl operator (.inl hcomment)
      | false =>
          rw [List.find?_cons_of_pos (by simp [hcomment])] at htoken
          cases htoken
          exact h first rfl operator (.inr hkind)

/-- The tokens of an expression that have been read, and those in front of it. -/
structure Spelled (config : Config) (state : Expression.State) (use : Use)
    (seen inner context : List Token) : Prop where
  seen_eq : seen = context.reverse ++ inner
  inert : Inert context seen.reverse
  declared : declared? context = none
  sign : ∃ token ∈ context.head?, ∀ operator, token.kind ≠ .binary operator
  use : use.Expects context
  spells : Spells config.scopes.current.entries state inner

theorem Inside.exists_spelled
    (h : Inside config (.expression state use :: goals) front seen) :
    ∃ inner context, Spelled config state use seen inner context := by
  obtain ⟨inner, context, hseen, hspells, hcontext, hsign, huse⟩ := h.course.fits.1
  have hinert := inert_read hspells.inner hcontext
  rw [← hseen] at hinert
  rw [← hinert.locals, ← h.entries rfl] at hspells
  have hread : seen = context.reverse ++ inner := by
    rw [List.reverse_eq_iff.mp hseen]
    simp
  exact ⟨inner, context, hread, hinert, hcontext, hsign, huse, hspells⟩

/-- The operands of the operation that fails, each between signs of a lower level. -/
theorem Inside.justifies_misfit
    (h : Inside config (.expression state use :: goals) front seen)
    {inner context : List Token} (hspelled : Spelled config state use seen inner context)
    (misfit : Misfit config.scopes.current.entries level inner fault)
    (hahead : ∀ token ∈ rest.head?, ∀ operator,
      token.kind.isComment ∨ token.kind = .binary operator → operator.level ≤ level) :
    Justifies (front ++ seen) rest fault := by
  obtain ⟨start, frames, sign, left, right, leftType, rightType, hinner, hwaits, hbarred, hlevel,
    hleft, hright, htyping⟩ := misfit
  have hread : seen = context.reverse ++ start ++ (left.tokens ++ sign.token :: right.tokens) := by
    rw [hspelled.seen_eq, hinner]
    simp
  have hlocals : localsOf (context.reverse ++ start).reverse = config.scopes.current.entries := by
    rw [List.reverse_append, List.reverse_reverse, h.entries rfl, hspelled.inert.locals]
    exact (inert_read hwaits.inner hspelled.declared).locals
  have hbefore : ∀ token ∈ (front ++ context.reverse).getLast?, ∀ operator,
      token.kind ≠ .binary operator := by
    obtain ⟨token, htoken, hnot⟩ := hspelled.sign
    obtain ⟨earlier, rfl⟩ := List.head?_eq_some_iff.mp htoken
    simpa using hnot
  have hjoins : Joins (front ++ seen) rest sign leftType rightType := by
    refine ⟨front ++ context.reverse ++ start, context.reverse ++ start, left, right,
      by simp [hread], hread ▸ h.within_read, ?_, ?_, level_lt_of_waits hwaits hbarred hbefore, ?_⟩
    · rw [hlocals]
      exact hleft
    · rw [hlocals]
      exact hright
    · intro token htoken operator hkind
      exact Nat.le_trans (level_le_of_ahead hahead token htoken operator hkind) hlevel
  rcases typing_error htyping with ⟨rfl, hoperator, hnot⟩ | ⟨rfl, hne⟩
  · exact ⟨sign, rfl, hoperator, hjoins, hnot⟩
  · exact ⟨sign, rfl, hjoins, hne⟩

theorem endsExpression_of_passes {frames : List Expression.Frame} {ty : Ty}
    (h : (Goal.expression (.operator frames ty) use).Passes config) :
    ∀ token ∈ config.rest.head?, EndsExpression token := by
  intro token htoken
  have htake := h token htoken
  simp only [Goal.take?] at htake
  split at htake
  · rename_i next? hnext
    simp only [Except.ok.injEq, Option.map_eq_none_iff] at htake
    rw [htake] at hnext
    exact Expression.endsExpression_of_take? hnext
  · cases htake

theorem lookup_of_mem {bindings : Bindings} {name : String} {ty : Ty}
    (hdistinct : Bindings.Distinct bindings) (h : (name, ty) ∈ bindings) :
    bindings.lookup name = some ty := by
  obtain ⟨front, back, rfl⟩ := List.append_of_mem h
  refine List.lookup_eq_some_iff.mpr ⟨front, back, rfl, fun other hother => ?_⟩
  simp only [Bindings.Distinct, List.map_append, List.map_cons, List.nodup_append] at hdistinct
  have hne := hdistinct.2.2 other.1 (List.mem_map_of_mem hother) name (by simp)
  exact bne_iff_ne.mpr hne.symm

theorem Inside.misassigns {target sign : Token} {declared found : Ty}
    (h : Inside config (.expression state (.assign target declared sign) :: goals) front seen)
    (hpasses : (Goal.expression state (.assign target declared sign)).Passes config)
    (hfinish : state.finish config.ahead = .ok found) (hne : declared ≠ found) :
    Misassigns (front ++ seen) config.rest target sign declared found := by
  obtain ⟨inner, context, hseen, hinert, _, _, ⟨earlier, rfl, hsign, htarget, hbound⟩, hspells⟩ :=
    h.exists_spelled
  obtain ⟨value, rfl, htype⟩ := hspells.finish hfinish
  have hends : ∀ token ∈ config.rest.head?, EndsExpression token := by
    cases state with
    | operand frames => cases hfinish
    | operator frames ty => exact endsExpression_of_passes hpasses
  have hnoName : sign.kind ≠ .identifier := by
    rw [hsign]
    simp
  have hlocals : localsOf (target :: earlier) = config.scopes.current.entries := by
    rw [h.entries rfl, hinert.locals, localsOf_cons_of_not_name hnoName]
  have hread : seen = earlier.reverse ++ target :: sign :: value.tokens := by
    simpa using hseen
  refine ⟨front ++ earlier.reverse, earlier.reverse, value, by simp [hread],
    hread ▸ h.within_read, htarget, hsign, hends, ?_, ?_, hne⟩
  · rw [List.reverse_reverse]
    rw [hlocals] at hbound ⊢
    exact lookup_of_mem h.course.distinct hbound
  · rw [List.reverse_reverse, hlocals]
    exact htype

end Expressions

/-! ## Where a run fails -/

section Fails

variable {config : Config} {goal : Goal} {goals : List Goal} {front seen rest : List Token}
variable {token : Token} {fault : Fault}

theorem Inside.refuse (h : Inside config (goal :: goals) front seen)
    (hrest : config.rest = token :: rest) (htake : goal.take? config.scopes token = .error fault) :
    Justifies (front ++ seen) config.rest fault := by
  cases goal with
  | target name =>
      simp only [Goal.take?] at htake
      split at htake
      · rename_i hlookup
        cases htake
        exact h.usesUnknown h.course.fits.1 (h.entries rfl ▸ hlookup) config.rest
      · cases htake
  | expression state use =>
      simp only [Goal.take?] at htake
      split at htake
      · cases htake
      · rename_i hstate
        cases htake
        obtain ⟨inner, context, hspelled⟩ := h.exists_spelled
        rcases hspelled.spells.refuse hstate with
          ⟨rfl, hkind, hlookup, frames, rfl⟩ | ⟨level, ⟨misfit⟩, hlevel⟩
        · rw [hrest]
          exact h.usesUnknown_next hkind (h.entries rfl ▸ hlookup) rest
        · refine h.justifies_misfit hspelled misfit ?_
          rw [hrest]
          simpa using hlevel
  | _ => cases htake

theorem Inside.fail_expression {state : Expression.State} {use : Use}
    (h : Inside config (.expression state use :: goals) front seen)
    (hpasses : (Goal.expression state use).Passes config)
    (hfinish : (Goal.expression state use).finish config.scopes config.ahead = .error fault)
    (hkind : fault.kind ≠ .syntactic) : Justifies (front ++ seen) config.rest fault := by
  simp only [Goal.finish] at hfinish
  split at hfinish
  · rename_i found hstate
    split at hfinish
    · cases hfinish
    · rename_i hcheck
      cases hfinish
      cases use with
      | discard => cases hcheck
      | assign target declared sign =>
          simp only [Use.check] at hcheck
          split at hcheck
          · cases hcheck
          · rename_i hne
            cases hcheck
            exact h.misassigns hpasses hstate hne
  · rename_i hstate
    cases hfinish
    obtain ⟨inner, context, hspelled⟩ := h.exists_spelled
    obtain ⟨misfit⟩ := hspelled.spells.fail hstate hkind
    refine h.justifies_misfit hspelled misfit fun token htoken operator hoperator => ?_
    cases state with
    | operand frames =>
        cases hstate
        exact absurd rfl hkind
    | operator frames ty =>
        obtain ⟨hcomment, hbinary⟩ := endsExpression_of_passes hpasses token htoken
        rcases hoperator with hoperator | hoperator
        · rw [hcomment] at hoperator
          cases hoperator
        · exact absurd hoperator (hbinary operator)

theorem Inside.fail (h : Inside config (goal :: goals) front seen)
    (hpasses : goal.Passes config)
    (hfinish : goal.finish config.scopes config.ahead = .error fault)
    (hkind : fault.kind ≠ .syntactic) : Justifies (front ++ seen) config.rest fault := by
  cases goal with
  | declare ty name =>
      rw [Goal.finish, bindName_eq] at hfinish
      split at hfinish
      · cases hfinish
      · rename_i previous hprevious
        cases hfinish
        exact .inr (h.repeatsLocal hprevious)
  | known name =>
      rw [Goal.finish, resolveName_eq] at hfinish
      split at hfinish
      · rename_i hlookup
        cases hfinish
        exact h.usesUnknown h.course.fits.1 (h.entries rfl ▸ hlookup) config.rest
      · cases hfinish
  | target name =>
      simp only [Goal.finish, resolveName_eq] at hfinish
      split at hfinish
      · cases hfinish
        exact absurd rfl hkind
      · rename_i hresolve
        split at hresolve
        · rename_i hlookup
          cases hfinish
          cases hresolve
          exact h.usesUnknown h.course.fits.1 (h.entries rfl ▸ hlookup) config.rest
        · cases hresolve
  | expression state use => exact h.fail_expression hpasses hfinish hkind
  | enter | leave | initializer => cases hfinish
  | field => exact (h.course.locals (.field _ _) (List.mem_cons_self ..)).elim
  | program => exact (h.course.locals .program (List.mem_cons_self ..)).elim
  | _ =>
      cases hfinish
      exact absurd rfl hkind

/-- Inside of a method a run ends at a fault of one of the goals of the method. -/
theorem Inside.justifies {inner plain : List Goal} {name : Token} {outcome : Outcome}
    (h : Inside config inner front seen) (hgoals : config.goals = inner ++ .leave name :: plain)
    (hends : config.Ends outcome) (hfault : outcome.fault? = some fault)
    (hkind : fault.kind ≠ .syntactic) : Justifies (front ++ seen) config.rest fault := by
  cases hends with
  | met hnone =>
      rw [hgoals] at hnone
      cases inner <;> cases hnone
  | refuse hsame hrest htake =>
      cases hfault
      rw [hgoals] at hsame
      cases inner with
      | nil =>
          cases hsame
          cases htake
      | cons goal inner =>
          cases hsame
          exact h.refuse hrest htake
  | fail hsame hpasses hfinish =>
      cases hfault
      rw [hgoals] at hsame
      cases inner with
      | nil =>
          cases hsame
          cases hfinish
      | cons goal inner =>
          cases hsame
          exact h.fail hpasses hfinish hkind

/-- Outside of methods and headings only what comes next can be wrong. -/
theorem kind_of_plain (hplain : ∀ goal ∈ config.goals, goal.Plain) {outcome : Outcome}
    (hends : config.Ends outcome) (hfault : outcome.fault? = some fault) :
    fault.kind = .syntactic := by
  cases hends with
  | met => cases hfault
  | @refuse goal _ _ _ _ hgoals _ htake =>
      have hgoal := hplain goal (hgoals ▸ List.mem_cons_self ..)
      cases goal with
      | expect | program | namespaceName | className | classes | members => cases htake
      | _ => exact hgoal.elim
  | @fail goal _ _ hgoals _ hfinish =>
      cases hfault
      have hgoal := hplain goal (hgoals ▸ List.mem_cons_self ..)
      cases goal with
      | program =>
          simp only [Goal.finish] at hfinish
          split at hfinish <;> cases hfinish
          rfl
      | expect | namespaceName | className | classes | members =>
          cases hfinish
          rfl
      | _ => exact hgoal.elim

/-- In a heading only the name of a field can be wrong, if not what comes next. -/
theorem repeatsField {tokens : List Token} (hsteps : Steps (.initial tokens) config)
    {heading plain : List Goal} (hheading : Heading heading seen)
    (hgoals : config.goals = heading ++ plain) (hread : tokens = front ++ seen ++ config.rest)
    {outcome : Outcome} (hends : config.Ends outcome) (hfault : outcome.fault? = some fault)
    (hkind : fault.kind ≠ .syntactic) :
    ∃ name previous, fault = .duplicate name previous ∧
      RepeatsField (front ++ seen) config.rest name previous := by
  cases hends with
  | met => cases hfault
  | refuse hsame _ htake =>
      rw [hgoals] at hsame
      cases hheading <;> cases hsame <;> cases htake
  | fail hsame hpasses hfinish =>
      cases hfault
      rw [hgoals] at hsame
      cases hheading with
      | memberType | memberName | memberRest =>
          cases hsame
          cases hfinish
          exact absurd rfl hkind
      | enter =>
          cases hsame
          cases hfinish
      | field title =>
          cases hsame
          simp only [Goal.finish] at hfinish
          split at hfinish
          · cases hfinish
          · rename_i hopening
            rw [← config.kind?_ahead] at hopening
            rw [bindName_eq, hsteps.bound_fields hgoals hread hopening] at hfinish
            split at hfinish
            · cases hfinish
            · rename_i previous hprevious
              cases hfinish
              obtain ⟨closing, back, program, hprogram, hfields⟩ :=
                hsteps.exists_program_of_field hgoals hread
              exact ⟨_, _, rfl, front, back, title, closing, program, _, rfl, rfl, hopening,
                hprogram, rfl, hfields, hprevious⟩

end Fails

/-! ## Texts -/

/-- The token that a justified fault blames is one of the text and stands at its place. -/
theorem Justifies.exists_blamed {read rest : List Token} {fault : Fault}
    (h : Justifies read rest fault) :
    ∃ token ∈ read ++ rest,
      fault.blamed? (read ++ rest) = some token ∧ token.position = fault.position := by
  cases fault with
  | unexpected wanted ahead =>
      obtain ⟨hrefutes, hlast⟩ := h
      cases rest with
      | nil =>
          obtain ⟨⟨_, hending⟩, _⟩ := hrefutes
          cases hending
          obtain ⟨last, hmem, hposition⟩ := hlast rfl
          rw [List.append_nil]
          exact ⟨last, List.mem_of_getLast? hmem, hmem, hposition.symm⟩
      | cons token rest =>
          obtain ⟨⟨_, hfound⟩, _⟩ := hrefutes
          cases hfound
          exact ⟨token, by simp, rfl, rfl⟩
  | duplicate name previous =>
      rcases h with ⟨front, _, title, _, _, _, rfl, rfl, _⟩ | ⟨front, _, _, rfl, _⟩
      · exact ⟨title.name.token, by simp [Title.tokens], rfl, rfl⟩
      · exact ⟨name, by simp, rfl, rfl⟩
  | undeclared name =>
      obtain ⟨front, _, back, htokens, _⟩ := h
      exact ⟨name, by simp [htokens], rfl, rfl⟩
  | assignment target declared found sign =>
      obtain ⟨front, _, value, rfl, _⟩ := h
      exact ⟨sign, by simp, rfl, rfl⟩
  | operands token left right =>
      obtain ⟨sign, rfl, ⟨front, _, _, _, rfl, _⟩, _⟩ := h
      exact ⟨sign.token, by simp, rfl, rfl⟩
  | nonBoolean token left right =>
      obtain ⟨sign, rfl, _, ⟨front, _, _, _, rfl, _⟩, _⟩ := h
      exact ⟨sign.token, by simp, rfl, rfl⟩

theorem Justifies.exists_token {read rest : List Token} {fault : Fault}
    (h : Justifies read rest fault) :
    ∃ token ∈ read ++ rest, token.position = fault.position := by
  obtain ⟨token, hmem, _, hposition⟩ := h.exists_blamed
  exact ⟨token, hmem, hposition⟩

/-- A text that ends too early has a last token, since no tokens at all are a program. -/
theorem lastPlace_of_not_sentence {read : List Token} (h : ¬ Sentence read) :
    ∃ last ∈ read.getLast?, lastPlace .start read = last.position := by
  obtain rfl | ⟨front, last, rfl⟩ := read.eq_nil_or_concat
  · exact absurd ⟨⟨[]⟩, rfl⟩ h
  · exact ⟨last, by simp, by simp⟩

theorem justifies_syntax {tokens read rest : List Token} {outcome : Outcome} {fault : Fault}
    (houtcome : run [.program] .empty .start tokens = outcome) (hread : tokens = read ++ rest)
    (hrest : outcome.rest = rest) (hfault : outcome.fault? = some fault)
    (hkind : fault.kind = .syntactic) : Justifies read rest fault := by
  obtain ⟨front, left, after, hreads, htokens, hends⟩ :=
    exists_reads_program .empty .start tokens
  rw [houtcome, hrest] at htokens hends
  obtain rfl := List.append_cancel_right (htokens.symm.trans hread)
  have hrefutes := refutes_of_endsAt hkind hfault hreads hends
  cases fault with
  | unexpected wanted ahead =>
      refine ⟨hrefutes, fun hnone => ?_⟩
      rw [hnone] at hrefutes
      obtain ⟨⟨_, hending⟩, hnot⟩ := hrefutes
      cases hending
      exact lastPlace_of_not_sentence hnot
  | _ => cases hkind

/--
Where an analysis fails, what has been read is the beginning of a program, the fault
stands at a token of the text, and what it says is so.
-/
theorem analyze_diagnoses {tokens : List Token} {fault : Fault}
    (h : analyze tokens = .error fault) :
    (∃ token ∈ tokens, token.position = fault.position) ∧
      ∃ read rest : List Token, tokens = read ++ rest ∧ (∃ more, Sentence (read ++ more)) ∧
        Justifies read rest fault := by
  obtain ⟨config, hsteps, hends⟩ := (Config.initial tokens).exists_steps
  have hfault := fault?_of_analyze_error h
  obtain ⟨read, hread, hplace⟩ := exists_place hsteps
  have hviable : ∃ more, Sentence (read ++ more) := by
    obtain ⟨more, hmore⟩ := exists_admitsAll config.goals
    exact ⟨more, admitsAll_singleton.mp (hsteps.admits hread hmore)⟩
  have hjustifies : Justifies read config.rest fault := by
    by_cases hkind : fault.kind = .syntactic
    · exact justifies_syntax rfl hread hends.stays.2 hfault hkind
    · rcases hplace with hplain | ⟨front, seen, heading, plain, rfl, hheading, hgoals⟩ |
        ⟨inner, plain, name, front, seen, rfl, hgoals, hinside⟩
      · exact absurd (kind_of_plain hplain hends hfault) hkind
      · obtain ⟨name, previous, rfl, hrepeats⟩ :=
          repeatsField hsteps hheading hgoals hread hends hfault hkind
        exact .inl hrepeats
      · exact hinside.justifies hgoals hends hfault hkind
  exact ⟨hread ▸ hjustifies.exists_token, read, config.rest, hread, hviable, hjustifies⟩

/--
In `a = a + "x"`, where `a` is an integer, the fault is about the two operands of the sum.
-/
theorem analyze_diagnoses_sum :
    let sign : Token := ⟨.binary .plus, "+", ⟨4, 7⟩⟩
    let tokens : List Token :=
      [⟨.word .namespaceWord, "namespace", ⟨1, 1⟩⟩, ⟨.identifier, "N", ⟨1, 11⟩⟩,
        ⟨.leftBrace, "\x7b", ⟨1, 13⟩⟩, ⟨.access .publicAccess, "public", ⟨2, 1⟩⟩,
        ⟨.word .classWord, "class", ⟨2, 8⟩⟩, ⟨.identifier, "C", ⟨2, 14⟩⟩,
        ⟨.leftBrace, "\x7b", ⟨2, 16⟩⟩, ⟨.access .publicAccess, "public", ⟨3, 1⟩⟩,
        ⟨.type .int, "int", ⟨3, 8⟩⟩, ⟨.identifier, "m", ⟨3, 12⟩⟩, ⟨.leftParen, "(", ⟨3, 13⟩⟩,
        ⟨.type .int, "int", ⟨3, 14⟩⟩, ⟨.identifier, "a", ⟨3, 18⟩⟩, ⟨.rightParen, ")", ⟨3, 19⟩⟩,
        ⟨.leftBrace, "\x7b", ⟨3, 21⟩⟩, ⟨.identifier, "a", ⟨4, 1⟩⟩, ⟨.assign, "=", ⟨4, 3⟩⟩,
        ⟨.identifier, "a", ⟨4, 5⟩⟩, sign, ⟨.stringLiteral, "x", ⟨4, 9⟩⟩,
        ⟨.semicolon, ";", ⟨4, 12⟩⟩]
    let fault : Fault := .operands sign .int .string
    analyze tokens = .error fault ∧ (∃ token ∈ tokens, token.position = fault.position) ∧
      ∃ read rest : List Token, tokens = read ++ rest ∧ (∃ more, Sentence (read ++ more)) ∧
        Justifies read rest fault := by
  intro sign tokens fault
  have hfault : analyze tokens = .error fault := by rfl
  exact ⟨hfault, analyze_diagnoses hfault⟩

end Analysis

end Classlet
