import Classlet.Proofs.Expression.Reading
import Classlet.Proofs.Grammar.Locals

/-!
# Operands

Which phrases the tokens of an expression spell that have been read up to some
state.  Each operation that waits has its left operand as a phrase in front of its
sign, and an operand that has just ended is a phrase at the end.  Completing an
operation joins the two, so a fault about an operation names the types of the phrases
on both sides of its sign.
-/

namespace Classlet

namespace Grammar

/-! ## Other forms of a phrase -/

/-- A phrase is a phrase of every outer layer. -/
theorem exists_lowered {low high : Nat} (h : low ≤ high) (phrase : Phrase high) :
    ∃ lowered : Phrase low, lowered.tokens = phrase.tokens ∧
      ∀ known, lowered.type? known = phrase.type? known := by
  induction h with
  | refl => exact ⟨phrase, rfl, fun _ => rfl⟩
  | step _ ih => exact ih (.lift phrase)

theorem exists_commented {layer : Nat} (phrase : Phrase layer)
    (comment : Mark Kind.comment) :
    ∃ commented : Phrase layer, commented.tokens = phrase.tokens ++ [comment.token] ∧
      ∀ known, commented.type? known = phrase.type? known := by
  induction phrase with
  | name leaf after =>
      exact ⟨.name leaf (after ++ [comment]), by simp [Phrase.tokens], fun _ => rfl⟩
  | number leaf after =>
      exact ⟨.number leaf (after ++ [comment]), by simp [Phrase.tokens], fun _ => rfl⟩
  | text leaf after =>
      exact ⟨.text leaf (after ++ [comment]), by simp [Phrase.tokens], fun _ => rfl⟩
  | group opening inner closing after _ =>
      exact ⟨.group opening inner closing (after ++ [comment]), by simp [Phrase.tokens],
        fun _ => rfl⟩
  | lift phrase ih =>
      obtain ⟨commented, htokens, htype⟩ := ih
      exact ⟨.lift commented, htokens, htype⟩
  | operation left sign fits right _ ih =>
      obtain ⟨commented, htokens, htype⟩ := ih
      refine ⟨.operation left sign fits commented, by simp [Phrase.tokens, htokens], ?_⟩
      intro known
      simp [Phrase.type?, htype]

end Grammar

namespace Expression

open Grammar

/-! ## Waiting operations -/

/-- The frames that wait behind the tokens of an expression. -/
inductive Waits (known : Bindings) : List Frame → List Token → Prop where
  | nil : Waits known [] []
  | group {frames : List Frame} {seen : List Token} (opening : Leaf .leftParen)
      (h : Waits known frames seen) : Waits known (.group :: frames) (seen ++ [opening.token])
  | operation {frames : List Frame} {seen : List Token} {ty : Ty} (sign : Mark Kind.binary)
      (left : Phrase (sign.value.level + 1)) (htype : left.type? known = some ty)
      (hbarred : Barred sign.value.level frames) (h : Waits known frames seen) :
      Waits known (.operation ty sign.value sign.token :: frames)
        (seen ++ (left.tokens ++ [sign.token]))

/-- The tokens of an expression that lead to a state, and what they spell. -/
inductive Spells (known : Bindings) : State → List Token → Prop where
  | operand {frames : List Frame} {seen : List Token} (h : Waits known frames seen) :
      Spells known (.operand frames) seen
  | operator {frames : List Frame} {seen : List Token} {ty : Ty} {layer : Nat}
      (phrase : Phrase layer) (hlayer : Operator.tightest < layer)
      (htype : phrase.type? known = some ty) (hbarred : Barred (layer - 1) frames)
      (h : Waits known frames seen) : Spells known (.operator frames ty) (seen ++ phrase.tokens)

/--
The tokens end in an operation of at least the given level whose operands, which wait
in front of it and have just ended, do not fit.
-/
structure Misfit (known : Bindings) (level : Nat) (seen : List Token) (fault : Fault) where
  front : List Token
  frames : List Frame
  sign : Mark Kind.binary
  left : Phrase (sign.value.level + 1)
  right : Phrase (sign.value.level + 2)
  leftType : Ty
  rightType : Ty
  tokens : seen = front ++ (left.tokens ++ sign.token :: right.tokens)
  waits : Waits known frames front
  barred : Barred sign.value.level frames
  level_le : level ≤ sign.value.level
  type_left : left.type? known = some leftType
  type_right : right.type? known = some rightType
  typing : sign.value.typing sign.token leftType rightType = .error fault

/-- What completing operations leaves: frames, and one phrase for all that was completed. -/
structure Joined (known : Bindings) (level : Nat) (waiting : List Frame) (ty : Ty)
    (seen : List Token) where
  front : List Token
  layer : Nat
  phrase : Phrase layer
  tokens : seen = front ++ phrase.tokens
  waits : Waits known waiting front
  level_lt : level < layer
  barred : Barred (layer - 1) waiting
  complete : Barred level waiting
  type_phrase : phrase.type? known = some ty

section Completing

variable {known : Bindings} {frames waiting : List Frame} {seen : List Token}
  {layer level : Nat}
variable {ty whole : Ty} {fault : Fault}

theorem result?_of_typing {operator : Operator} {sign : Token} {left right result : Ty}
    (h : operator.typing sign left right = .ok result) :
    result? operator left right = some result := by
  rw [← typing_eq operator sign, h]
  rfl

/-- An operation whose operands fit is one phrase. -/
theorem exists_operation (sign : Mark Kind.binary) (left : Phrase (sign.value.level + 1))
    (right : Phrase (sign.value.level + 2)) {leftType rightType : Ty}
    (hleft : left.type? known = some leftType) (hright : right.type? known = some rightType)
    (h : sign.value.typing sign.token leftType rightType = .ok whole) :
    ∃ phrase : Phrase (sign.value.level + 1),
      phrase.tokens = left.tokens ++ sign.token :: right.tokens ∧
      phrase.type? known = some whole := by
  refine ⟨.operation left sign (mem_operatorsAt.mpr (.inl rfl)) right, rfl, ?_⟩
  simp [Phrase.type?, hleft, hright, result?_of_typing h]

theorem reduce_spells (hwaits : Waits known frames seen) (phrase : Phrase layer)
    (hbarred : Barred (layer - 1) frames) (hlevel : level < layer)
    (htype : phrase.type? known = some ty) :
    (∀ waiting whole, reduce level frames ty = .ok (waiting, whole) →
      Nonempty (Joined known level waiting whole (seen ++ phrase.tokens))) ∧
    ∀ fault, reduce level frames ty = .error fault →
      Nonempty (Misfit known level (seen ++ phrase.tokens) fault) := by
  induction hwaits generalizing layer ty with
  | nil =>
      refine ⟨fun waiting whole h => ?_, fun _ hfault => nomatch hfault⟩
      cases h
      exact ⟨⟨[], layer, phrase, rfl, .nil, hlevel, hbarred, trivial, htype⟩⟩
  | group opening h =>
      refine ⟨fun waiting whole h => ?_, fun _ hfault => nomatch hfault⟩
      cases h
      exact ⟨⟨_, layer, phrase, rfl, .group opening h, hlevel, hbarred, trivial, htype⟩⟩
  | @operation frames seen leftType sign left hleft hbelow h ih =>
      by_cases hle : level ≤ sign.value.level
      · have hfits : sign.value.level + 2 ≤ layer := by
          have hlt : sign.value.level < layer - 1 := hbarred
          omega
        obtain ⟨right, hright, hsame⟩ := exists_lowered hfits phrase
        have hrightType := (hsame known).trans htype
        have htokens : seen ++ (left.tokens ++ [sign.token]) ++ phrase.tokens =
            seen ++ (left.tokens ++ sign.token :: right.tokens) := by
          simp [hright]
        rw [reduce_operation hle, htokens]
        cases htyping : sign.value.typing sign.token leftType ty with
        | error first =>
            refine ⟨fun _ _ hdone => (nomatch hdone), fun fault hfault => ?_⟩
            cases hfault
            exact ⟨⟨seen, frames, sign, left, right, leftType, ty, rfl, h, hbelow, hle, hleft,
              hrightType, htyping⟩⟩
        | ok result =>
            obtain ⟨joined, hjoined, hresult⟩ :=
              exists_operation sign left right hleft hrightType htyping
            rw [← hjoined]
            exact ih joined hbelow (Nat.lt_succ_of_le hle) hresult
      · have hcomplete : Barred level (.operation leftType sign.value sign.token :: frames) :=
          Nat.not_le.mp hle
        rw [reduce_eq_self hcomplete]
        refine ⟨fun waiting whole heq => ?_, fun _ hfault => nomatch hfault⟩
        cases heq
        exact ⟨⟨_, layer, phrase, rfl, .operation sign left hleft hbelow h, hlevel, hbarred,
          hcomplete, htype⟩⟩

end Completing

/-! ## Taking a token -/

section States

variable {scopes : Scope.Stack} {token : Token} {state next : State} {seen : List Token}
variable {fault : Fault} {ty : Ty} {ahead : Lookahead}

theorem barred_tightest_succ (frames : List Frame) :
    Barred (Operator.tightest + 1) frames := by
  unfold Barred
  split
  · rename_i operator _ _
    exact Nat.lt_succ_of_le (level_le_tightest operator)
  · trivial

/-- A factor has no operator that an operation could compete for. -/
theorem Spells.factor {known : Bindings} {frames : List Frame}
    (hwaits : Waits known frames seen)
    (phrase : Phrase 7) (htype : phrase.type? known = some ty) :
    Spells known (.operator frames ty) (seen ++ phrase.tokens) :=
  .operator phrase (by decide) htype (barred_tightest_succ frames) hwaits

theorem spells_of_operandType? {frames : List Frame}
    (hwaits : Waits scopes.current.entries frames seen)
    (h : operandType? scopes token = .ok (some ty)) :
    Spells scopes.current.entries (.operator frames ty) (seen ++ [token]) := by
  unfold operandType? at h
  split at h
  · rename_i hkind
    split at h
    · rename_i found hlookup
      cases h
      exact .factor hwaits (.name ⟨token, hkind⟩ []) hlookup
    · cases h
  · rename_i hkind
    refine .factor hwaits (.number ⟨token, hkind⟩ []) ?_
    simp only [Phrase.type?]
    split at h <;> cases h
    · rename_i hmark
      rw [if_pos hmark]
    · rename_i hmark
      rw [if_neg hmark]
  · rename_i hkind
    cases h
    exact .factor hwaits (.text ⟨token, hkind⟩ []) rfl
  · cases h

/-! What has been joined goes on with a comment, with a sign, or with the end of its group. -/

theorem Joined.comment {known : Bindings} {waiting : List Frame}
    (joined : Joined known Operator.tightest waiting ty seen) (comment : Mark Kind.comment) :
    Spells known (.operator waiting ty) (seen ++ [comment.token]) := by
  obtain ⟨commented, htokens, hsame⟩ := exists_commented joined.phrase comment
  rw [joined.tokens, List.append_assoc, ← htokens]
  exact .operator commented joined.level_lt ((hsame known).trans joined.type_phrase) joined.barred
    joined.waits

theorem Joined.sign {known : Bindings} {waiting : List Frame} (sign : Mark Kind.binary)
    (joined : Joined known sign.value.level waiting ty seen) :
    Spells known (.operand (.operation ty sign.value sign.token :: waiting))
      (seen ++ [sign.token]) := by
  obtain ⟨left, htokens, hsame⟩ := exists_lowered joined.level_lt joined.phrase
  rw [joined.tokens, List.append_assoc, ← htokens]
  exact .operand (.operation sign left ((hsame known).trans joined.type_phrase) joined.complete
    joined.waits)

theorem Joined.closing {known : Bindings} {outer : List Frame}
    (joined : Joined known 0 (.group :: outer) ty seen) (closing : Leaf .rightParen) :
    Spells known (.operator outer ty) (seen ++ [closing.token]) := by
  obtain ⟨front, layer, phrase, rfl, hwaits, _, _, _, htype⟩ := joined
  obtain ⟨inner, hinner, hsame⟩ := exists_lowered (Nat.zero_le layer) phrase
  cases hwaits with
  | @group _ front opening hwaits =>
      let group : Phrase 7 := .group opening inner closing []
      have htokens : front ++ [opening.token] ++ phrase.tokens ++ [closing.token] =
          front ++ group.tokens := by
        simp [group, Phrase.tokens, hinner]
      rw [htokens]
      exact .factor hwaits group ((hsame known).trans htype)

theorem Spells.take (h : Spells scopes.current.entries state seen)
    (htake : state.take? scopes token = .ok (some next)) :
    Spells scopes.current.entries next (seen ++ [token]) := by
  cases h with
  | @operand frames _ hwaits =>
      simp only [State.take?] at htake
      split at htake
      · rename_i hkind
        cases htake
        exact .operand (.group ⟨token, hkind⟩ hwaits)
      · split at htake
        · rename_i ty? htype
          cases ty? with
          | none => cases htake
          | some ty =>
              cases htake
              exact spells_of_operandType? hwaits htype
        · cases htake
  | @operator frames seen ty layer phrase hlayer htype hbarred hwaits =>
      have hjoins {level : Nat} (hlevel : level ≤ Operator.tightest) :=
        (reduce_spells hwaits phrase hbarred (Nat.lt_of_le_of_lt hlevel hlayer) htype).1
      simp only [State.take?] at htake
      split at htake
      · rename_i style hkind
        split at htake
        · rename_i hreduce
          cases htake
          obtain ⟨joined⟩ := hjoins (Nat.le_refl _) _ _ hreduce
          exact joined.comment ⟨style, token, hkind⟩
        · cases htake
      · rename_i operator hkind
        split at htake
        · rename_i hreduce
          cases htake
          obtain ⟨joined⟩ := hjoins (level_le_tightest operator) _ _ hreduce
          exact joined.sign ⟨operator, token, hkind⟩
        · cases htake
      · rename_i hkind
        split at htake
        · rename_i hreduce
          cases htake
          obtain ⟨joined⟩ := hjoins (Nat.zero_le _) _ _ hreduce
          exact joined.closing ⟨token, hkind⟩
        · cases htake
        · cases htake
      · cases htake

/-- Behind an operand only an operation can fail, and no higher operator is in its way. -/
theorem exists_reduce_error {frames : List Frame}
    (h : (State.operator frames ty).take? scopes token = .error fault) :
    ∃ level ≤ Operator.tightest, reduce level frames ty = .error fault ∧
      ∀ operator, token.kind.isComment ∨ token.kind = .binary operator →
        operator.level ≤ level := by
  simp only [State.take?] at h
  split at h
  · split at h <;> cases h
    exact ⟨_, Nat.le_refl _, ‹_›, fun operator _ => level_le_tightest operator⟩
  · rename_i operator hkind
    split at h <;> cases h
    exact ⟨_, level_le_tightest operator, ‹_›, by simp [hkind, Kind.isComment]⟩
  · rename_i hkind
    split at h <;> cases h
    exact ⟨_, Nat.zero_le _, ‹_›, by simp [hkind, Kind.isComment]⟩
  · cases h

/--
A token at which an expression fails: an undeclared name, or the end of a right
operand, behind which no operator of a higher level comes.
-/
theorem Spells.refuse (h : Spells scopes.current.entries state seen)
    (htake : state.take? scopes token = .error fault) :
    (fault = .undeclared token ∧ token.kind = .identifier ∧
      scopes.current.entries.lookup token.lexeme = none ∧ ∃ frames, state = .operand frames) ∨
    ∃ level, Nonempty (Misfit scopes.current.entries level seen fault) ∧
      ∀ operator, token.kind.isComment ∨ token.kind = .binary operator →
        operator.level ≤ level := by
  cases h with
  | @operand frames _ hwaits =>
      simp only [State.take?] at htake
      split at htake
      · cases htake
      · split at htake
        · cases htake
        · rename_i hoperand
          cases htake
          unfold operandType? at hoperand
          split at hoperand
          · rename_i hkind
            split at hoperand
            · cases hoperand
            · rename_i hlookup
              cases hoperand
              exact .inl ⟨rfl, hkind, hlookup, frames, rfl⟩
          · split at hoperand <;> cases hoperand
          · cases hoperand
          · cases hoperand
  | @operator frames seen ty layer phrase hlayer htype hbarred hwaits =>
      obtain ⟨level, hle, hreduce, hahead⟩ := exists_reduce_error htake
      have hlevel : level < layer := Nat.lt_of_le_of_lt hle hlayer
      exact .inr ⟨level, (reduce_spells hwaits phrase hbarred hlevel htype).2 _ hreduce, hahead⟩

/-! ## Ending -/

theorem endsExpression_of_take? {frames : List Frame}
    (h : (State.operator frames ty).take? scopes token = .ok none) : EndsExpression token := by
  simp only [State.take?] at h
  split at h
  · split at h <;> cases h
  · split at h <;> cases h
  · rename_i hkind
    simp [EndsExpression, hkind, Kind.isComment]
  · rename_i hcomment hbinary _
    refine ⟨?_, hbinary⟩
    unfold Kind.isComment
    split
    · exact absurd ‹_› (hcomment _)
    · rfl

/-- A finished expression is a phrase of the type it was found to have. -/
theorem Spells.finish (h : Spells scopes.current.entries state seen)
    (hfinish : state.finish ahead = .ok ty) :
    ∃ expression : Expression, expression.tokens = seen ∧
      expression.type? scopes.current.entries = some ty := by
  cases h with
  | operand hwaits => cases hfinish
  | @operator frames seen left layer phrase hlayer htype hbarred hwaits =>
      simp only [State.finish] at hfinish
      split at hfinish
      · rename_i whole hreduce
        cases hfinish
        have hlevel : 0 < layer := Nat.lt_of_le_of_lt (Nat.zero_le _) hlayer
        obtain ⟨joined⟩ := (reduce_spells hwaits phrase hbarred hlevel htype).1 _ _ hreduce
        obtain ⟨front, depth, last, htokens, hfront, _, _, _, hlast⟩ := joined
        obtain ⟨expression, hexpression, hsame⟩ := exists_lowered (Nat.zero_le depth) last
        cases hfront
        exact ⟨expression, by rw [hexpression, htokens]; rfl, (hsame _).trans hlast⟩
      · cases hfinish
      · cases hfinish

theorem Spells.fail (h : Spells scopes.current.entries state seen)
    (hfinish : state.finish ahead = .error fault) (hkind : fault.kind ≠ .syntactic) :
    Nonempty (Misfit scopes.current.entries 0 seen fault) := by
  cases h with
  | operand hwaits =>
      cases hfinish
      exact absurd rfl hkind
  | @operator frames seen left layer phrase hlayer htype hbarred hwaits =>
      simp only [State.finish] at hfinish
      split at hfinish
      · cases hfinish
      · cases hfinish
        exact absurd rfl hkind
      · rename_i hreduce
        cases hfinish
        have hlevel : 0 < layer := Nat.lt_of_le_of_lt (Nat.zero_le _) hlayer
        exact (reduce_spells hwaits phrase hbarred hlevel htype).2 _ hreduce

end States

end Expression

end Classlet
