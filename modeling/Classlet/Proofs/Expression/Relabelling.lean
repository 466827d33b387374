import Classlet.Expression.State
import Mathlib.Data.List.Forall2
import Mathlib.Data.Set.Function

/-!
# Relabelled expressions

Two lists of tokens that agree in their kinds and spell the same pattern of names
are typed alike.  The texts of all other tokens but numbers do not matter, nor does
any place.  The relations below say which data correspond when tokens do.
-/

namespace Classlet

open Expression (Frame State)

/--
`other` is `token` at another place.  An identifier is renamed, a number keeps
whether it ends in `f`, and the text of any other token is arbitrary.
-/
structure Token.Relabels (names : String → String) (places : Position → Position)
    (token other : Token) : Prop where
  kind : other.kind = token.kind
  position : other.position = places token.position
  name : token.kind = .identifier → other.lexeme = names token.lexeme
  suffix : token.kind = .number →
    (other.lexeme.toList.getLast? = some 'f' ↔ token.lexeme.toList.getLast? = some 'f')

/-- Other names for the known ones, each its own, and other places. -/
structure Relabelling where
  known : Set String
  names : String → String
  injOn : Set.InjOn names known
  places : Position → Position

namespace Relabelling

variable (r : Relabelling)

/-! ## Tokens, names and faults -/

/-- A token for which another one may stand, where only known names occur. -/
structure OnToken (token other : Token) : Prop
    extends Token.Relabels r.names r.places token other where
  known : token.kind = .identifier → token.lexeme ∈ r.known

structure OnName (name other : Token) : Prop where
  known : name.lexeme ∈ r.known
  lexeme : other.lexeme = r.names name.lexeme
  position : other.position = r.places name.position

inductive OnLookahead : Lookahead → Lookahead → Prop where
  | token {token other : Token} (h : r.OnToken token other) :
      OnLookahead (.token token) (.token other)
  | ending (last : Position) : OnLookahead (.ending last) (.ending (r.places last))

structure OnFault (fault other : Fault) : Prop where
  kind : other.kind = fault.kind
  position : other.position = r.places fault.position

inductive OnResult {α : Type} (related : α → α → Prop) :
    Except Fault α → Except Fault α → Prop where
  | ok {value other : α} (h : related value other) : OnResult related (.ok value) (.ok other)
  | error {fault other : Fault} (h : r.OnFault fault other) :
      OnResult related (.error fault) (.error other)

variable {r}

section Results

variable {α : Type} {related : α → α → Prop} {result other : Except Fault α}

/-- Functions that go on with a value, and pass a fault on, are compared value by value. -/
@[elab_as_elim]
theorem OnResult.elim {motive : Except Fault α → Except Fault α → Prop}
    (h : r.OnResult related result other)
    (error : ∀ fault shown, r.OnFault fault shown → motive (.error fault) (.error shown))
    (ok : ∀ value renamed, related value renamed → motive (.ok value) (.ok renamed)) :
    motive result other := by
  cases h with
  | ok h => exact ok _ _ h
  | error h => exact error _ _ h

theorem OnResult.exists_ok {value : α} (h : r.OnResult related result other)
    (hresult : result = .ok value) : ∃ renamed, other = .ok renamed ∧ related value renamed := by
  cases h with
  | ok h =>
      cases hresult
      exact ⟨_, rfl, h⟩
  | error h => cases hresult

theorem OnResult.exists_error {fault : Fault} (h : r.OnResult related result other)
    (hresult : result = .error fault) : ∃ shown, other = .error shown ∧ r.OnFault fault shown := by
  cases h with
  | ok h => cases hresult
  | error h =>
      cases hresult
      exact ⟨_, rfl, h⟩

end Results

theorem OnToken.onName {token other : Token} (h : r.OnToken token other)
    (hkind : token.kind = .identifier) : r.OnName token other :=
  ⟨h.known hkind, h.name hkind, h.position⟩

theorem OnLookahead.position {ahead other : Lookahead} (h : r.OnLookahead ahead other) :
    other.position = r.places ahead.position := by
  cases h with
  | token h => exact h.position
  | ending last => rfl

theorem OnLookahead.kind? {ahead other : Lookahead} (h : r.OnLookahead ahead other) :
    other.kind? = ahead.kind? := by
  cases h with
  | token h => exact congrArg some h.kind
  | ending last => rfl

/-! ## Scopes -/

def entry (r : Relabelling) (binding : String × Ty) : String × Ty :=
  (r.names binding.1, binding.2)

structure OnTable (r : Relabelling) (table other : Scope.Table) : Prop where
  known : ∀ binding ∈ table.entries, binding.1 ∈ r.known
  entries : other.entries = table.entries.map r.entry

structure OnScopes (r : Relabelling) (scopes other : Scope.Stack) : Prop where
  global : r.OnTable scopes.global other.global
  locals : List.Forall₂ r.OnTable scopes.locals other.locals

section Scopes

variable {scopes other : Scope.Stack} {table renamed : Scope.Table}

theorem OnTable.empty : r.OnTable .empty .empty := ⟨by simp [Scope.Table.empty], rfl⟩

/-- Here injectivity is used: another name of a known one is found where that is. -/
theorem lookup_map_entry {bindings : List (String × Ty)}
    (hbindings : ∀ binding ∈ bindings, binding.1 ∈ r.known) {name : String}
    (hname : name ∈ r.known) :
    (bindings.map r.entry).lookup (r.names name) = bindings.lookup name := by
  induction bindings with
  | nil => rfl
  | cons binding bindings ih =>
      obtain ⟨hbinding, hmore⟩ := List.forall_mem_cons.mp hbindings
      have hsame : (r.names name == r.names binding.1) = (name == binding.1) := by
        rw [Bool.eq_iff_iff, beq_iff_eq, beq_iff_eq]
        exact ⟨fun heq => r.injOn hname hbinding heq, congrArg r.names⟩
      obtain ⟨bound, ty⟩ := binding
      simp only [List.map_cons, entry, List.lookup_cons, hsame, ih hmore]

theorem OnTable.get? (h : r.OnTable table renamed) {name : String}
    (hname : name ∈ r.known) :
    renamed.get? (r.names name) = table.get? name := by
  unfold Scope.Table.get?
  rw [h.entries]
  exact lookup_map_entry h.known hname

theorem OnScopes.current (h : r.OnScopes scopes other) :
    r.OnTable scopes.current other.current := by
  obtain ⟨global, locals⟩ := scopes
  obtain ⟨otherGlobal, otherLocals⟩ := other
  cases h.locals with
  | nil => exact h.global
  | cons htable _ => exact htable

theorem OnScopes.lookup (h : r.OnScopes scopes other) {name otherName : Token}
    (hname : r.OnName name otherName) :
    other.lookup otherName.lexeme = scopes.lookup name.lexeme := by
  rw [hname.lexeme]
  exact h.current.get? hname.known

theorem OnScopes.push (h : r.OnScopes scopes other) : r.OnScopes scopes.push other.push :=
  ⟨h.global, .cons .empty h.locals⟩

theorem OnScopes.pop (h : r.OnScopes scopes other) :
    r.OnScopes scopes.pop.2 other.pop.2 := by
  obtain ⟨global, locals⟩ := scopes
  obtain ⟨otherGlobal, otherLocals⟩ := other
  cases h.locals with
  | nil => exact h
  | cons _ hlocals => exact ⟨h.global, hlocals⟩

theorem OnScopes.withCurrent (h : r.OnScopes scopes other)
    (htable : r.OnTable table renamed) :
    r.OnScopes (scopes.withCurrent table) (other.withCurrent renamed) := by
  obtain ⟨global, locals⟩ := scopes
  obtain ⟨otherGlobal, otherLocals⟩ := other
  cases h.locals with
  | nil => exact ⟨htable, .nil⟩
  | cons _ hlocals => exact ⟨h.global, .cons htable hlocals⟩

theorem OnTable.append (h : r.OnTable table renamed) {name other : Token}
    (hname : r.OnName name other) (ty : Ty) :
    r.OnTable ⟨table.entries ++ [(name.lexeme, ty)]⟩ ⟨renamed.entries ++ [(other.lexeme, ty)]⟩ := by
  constructor
  · intro binding hbinding
    rw [List.mem_append, List.mem_singleton] at hbinding
    rcases hbinding with hbinding | rfl
    · exact h.known binding hbinding
    · exact hname.known
  · simp [h.entries, entry, hname.lexeme]

end Scopes

/-! ## Expressions -/

inductive OnFrame (r : Relabelling) : Frame → Frame → Prop where
  | operation (left : Ty) (operator : Operator) {sign other : Token}
      (h : other.position = r.places sign.position) :
      OnFrame r (.operation left operator sign) (.operation left operator other)
  | group : OnFrame r .group .group

abbrev OnFrames (r : Relabelling) : List Frame → List Frame → Prop :=
  List.Forall₂ r.OnFrame

inductive OnState (r : Relabelling) : State → State → Prop where
  | operand {frames others : List Frame} (h : r.OnFrames frames others) :
      OnState r (.operand frames) (.operand others)
  | operator {frames others : List Frame} (h : r.OnFrames frames others) (ty : Ty) :
      OnState r (.operator frames ty) (.operator others ty)

section Expressions

variable {sign token other : Token} {frames others : List Frame}

theorem onResult_typing (operator : Operator) (h : other.position = r.places sign.position)
    (left right : Ty) :
    r.OnResult Eq (operator.typing sign left right) (operator.typing other left right) := by
  cases operator with
  | or | and =>
      simp only [Operator.typing]
      split
      · exact .ok rfl
      · exact .error ⟨rfl, h⟩
  | _ =>
      simp only [Operator.typing]
      split
      · exact .ok rfl
      · exact .error ⟨rfl, h⟩

/-- Frames and a type that correspond. -/
def OnOperand (r : Relabelling) (operand other : List Frame × Ty) : Prop :=
  r.OnFrames operand.1 other.1 ∧ operand.2 = other.2

theorem onResult_reduce (level : Nat) (h : r.OnFrames frames others) (ty : Ty) :
    r.OnResult r.OnOperand (Expression.reduce level frames ty)
      (Expression.reduce level others ty) := by
  induction h generalizing ty with
  | nil => exact .ok ⟨.nil, rfl⟩
  | cons hframe hframes ih =>
      cases hframe with
      | group => exact .ok ⟨.cons .group hframes, rfl⟩
      | operation left operator hsign =>
          simp only [Expression.reduce]
          split
          · refine (onResult_typing operator hsign left ty).elim (fun _ _ => .error) ?_
            rintro whole _ rfl
            exact ih whole
          · exact .ok ⟨.cons (.operation left operator hsign) hframes, rfl⟩

theorem onResult_operandType? {scopes renamed : Scope.Stack}
    (hscopes : r.OnScopes scopes renamed)
    (htoken : r.OnToken token other) :
    r.OnResult Eq (Expression.operandType? scopes token)
      (Expression.operandType? renamed other) := by
  unfold Expression.operandType?
  rw [htoken.kind]
  cases hkind : token.kind with
  | identifier =>
      simp only [hscopes.lookup (htoken.onName hkind)]
      cases scopes.lookup token.lexeme with
      | none => exact .error ⟨rfl, htoken.position⟩
      | some ty => exact .ok rfl
  | number =>
      simp only [htoken.suffix hkind]
      split
      · exact .ok rfl
      · exact .ok rfl
  | _ => exact .ok rfl

theorem onResult_stateTake? {scopes renamed : Scope.Stack}
    (hscopes : r.OnScopes scopes renamed)
    (htoken : r.OnToken token other) {state continued : State}
    (hstate : r.OnState state continued) :
    r.OnResult (Option.Rel r.OnState) (state.take? scopes token)
      (continued.take? renamed other) := by
  cases hstate with
  | operand hframes =>
      simp only [State.take?, htoken.kind]
      split
      · exact .ok (.some (.operand (.cons .group hframes)))
      · refine (onResult_operandType? hscopes htoken).elim (fun _ _ => .error) ?_
        rintro ty? _ rfl
        cases ty? with
        | none => exact .ok .none
        | some ty => exact .ok (.some (.operator hframes ty))
  | operator hframes ty =>
      simp only [State.take?, htoken.kind]
      split
      · refine (onResult_reduce Operator.tightest hframes ty).elim (fun _ _ => .error) ?_
        rintro ⟨waiting, left⟩ ⟨others, _⟩ ⟨hwaiting, rfl⟩
        exact .ok (.some (.operator hwaiting left))
      · rename_i next _
        refine (onResult_reduce next.level hframes ty).elim (fun _ _ => .error) ?_
        rintro ⟨waiting, left⟩ ⟨others, _⟩ ⟨hwaiting, rfl⟩
        exact .ok (.some (.operand (.cons (.operation left next htoken.position) hwaiting)))
      · refine (onResult_reduce 0 hframes ty).elim (fun _ _ => .error) ?_
        rintro ⟨waiting, inner⟩ ⟨others, _⟩ ⟨hwaiting, rfl⟩
        cases hwaiting with
        | nil => exact .ok .none
        | cons hframe houter =>
            cases hframe with
            | group => exact .ok (.some (.operator houter inner))
            | operation left operator hsign => exact .ok .none
      · exact .ok .none

theorem onResult_stateFinish {ahead shown : Lookahead} (hahead : r.OnLookahead ahead shown)
    {state continued : State} (hstate : r.OnState state continued) :
    r.OnResult Eq (state.finish ahead) (continued.finish shown) := by
  cases hstate with
  | operand hframes => exact .error ⟨rfl, hahead.position⟩
  | operator hframes ty =>
      simp only [State.finish]
      refine (onResult_reduce 0 hframes ty).elim (fun _ _ => .error) ?_
      rintro ⟨waiting, whole⟩ ⟨others, _⟩ ⟨hwaiting, rfl⟩
      cases hwaiting with
      | nil => exact .ok rfl
      | cons hframe hframes => exact .error ⟨rfl, hahead.position⟩

end Expressions

end Relabelling

end Classlet
