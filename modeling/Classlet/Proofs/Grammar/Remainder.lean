import Classlet.Proofs.Grammar.Reassociation

/-!
# Remainders of expressions

What may follow in an expression that is read from the left, once some groups
are open: an operand is wanted (`Wanting`), an operand has just ended
(`Resuming`), or the innermost group ends now (`Closing`).  Each remainder can
be put behind any token that leads to its state, and no state is a dead end.
-/

namespace Classlet.Grammar

/-! ## Joining expressions -/

theorem exists_lifted (factor : Phrase 7) {layer steps : Nat} (h : layer + steps = 7) :
    ∃ phrase : Phrase layer, phrase.tokens = factor.tokens := by
  induction steps generalizing layer with
  | zero =>
      obtain rfl : layer = 7 := h
      exact ⟨factor, rfl⟩
  | succ steps ih =>
      have hnext : layer + 1 + steps = 7 := by omega
      obtain ⟨phrase, htokens⟩ := ih hnext
      exact ⟨.lift phrase, htokens⟩

theorem exists_joined_factor (left : Expression) (sign : Mark Kind.binary)
    (factor : Phrase 7) :
    ∃ joined : Expression, joined.tokens = left.tokens ++ sign.token :: factor.tokens := by
  have hlayer : sign.value.level + 2 + (5 - sign.value.level) = 7 := by
    cases sign.value <;> simp [Operator.level]
  obtain ⟨right, hright⟩ := exists_lifted factor hlayer
  obtain ⟨joined, hjoined, _⟩ := exists_extend left sign (Nat.zero_le _) right
  exact ⟨joined, by rw [hjoined, hright]⟩

/-- Whatever their operators are, two phrases joined by one more are an expression. -/
theorem exists_joined {layer : Nat} (right : Phrase layer) (left : Expression)
    (sign : Mark Kind.binary) :
    ∃ joined : Expression, joined.tokens = left.tokens ++ sign.token :: right.tokens := by
  induction right generalizing left sign with
  | name leaf after => exact exists_joined_factor left sign (.name leaf after)
  | number leaf after => exact exists_joined_factor left sign (.number leaf after)
  | text leaf after => exact exists_joined_factor left sign (.text leaf after)
  | group opening inner closing after _ =>
      exact exists_joined_factor left sign (.group opening inner closing after)
  | lift phrase ih => exact ih left sign
  | operation front next fits back ihFront ihBack =>
      obtain ⟨middle, hmiddle⟩ := ihFront left sign
      obtain ⟨joined, hjoined⟩ := ihBack middle next
      refine ⟨joined, ?_⟩
      rw [hjoined, hmiddle]
      simp [Phrase.tokens]

/-! ## Remainders -/

/-- An operand, and then the ends of the open groups. -/
def Wanting (ends : List Token → Prop) (tokens : List Token) : Prop :=
  ∃ expression : Expression, ∃ back, tokens = expression.tokens ++ back ∧ ends back

/-- Comments, more operations, and then the ends of the open groups. -/
def Resuming (ends : List Token → Prop) (tokens : List Token) : Prop :=
  ∃ (comments : Comments) (back : List Token), tokens = comments.tokens ++ back ∧
    (ends back ∨ ∃ (sign : Mark Kind.binary) (more : List Token),
      back = sign.token :: more ∧ Wanting ends more)

/-- The ends of a number of open groups, each with what follows in the group around it. -/
def Closing : Nat → List Token → Prop
  | 0, tokens => tokens = []
  | depth + 1, tokens => ∃ (closing : Leaf .rightParen) (more : List Token),
      tokens = closing.token :: more ∧ Resuming (Closing depth) more

theorem wanting_closing_zero {tokens : List Token} :
    Wanting (Closing 0) tokens ↔ ∃ expression : Expression, expression.tokens = tokens := by
  constructor
  · rintro ⟨expression, back, rfl, rfl⟩
    exact ⟨expression, by simp⟩
  · rintro ⟨expression, rfl⟩
    exact ⟨expression, [], by simp, rfl⟩

section Steps

variable {ends : List Token → Prop} {tokens : List Token}

theorem Resuming.finish (h : ends tokens) : Resuming ends tokens :=
  ⟨[], tokens, rfl, .inl h⟩

theorem Resuming.comment (comment : Mark Kind.comment) (h : Resuming ends tokens) :
    Resuming ends (comment.token :: tokens) := by
  obtain ⟨comments, back, rfl, hback⟩ := h
  exact ⟨comment :: comments, back, rfl, hback⟩

theorem Resuming.operator (sign : Mark Kind.binary) (h : Wanting ends tokens) :
    Resuming ends (sign.token :: tokens) :=
  ⟨[], _, rfl, .inr ⟨sign, tokens, rfl, h⟩⟩

/-- A factor that comments may still be added to begins an expression. -/
theorem Wanting.factor (front : List Token) (factor : Comments → Phrase 7)
    (hfactor : ∀ comments, (factor comments).tokens = front ++ comments.tokens)
    (h : Resuming ends tokens) : Wanting ends (front ++ tokens) := by
  obtain ⟨comments, back, rfl, hback⟩ := h
  obtain ⟨first, hfirst⟩ := exists_lifted (factor comments) (Nat.zero_add 7)
  rw [hfactor] at hfirst
  rcases hback with hends | ⟨sign, more, rfl, right, after, rfl, hends⟩
  · exact ⟨first, back, by simp [hfirst], hends⟩
  · obtain ⟨joined, hjoined⟩ := exists_joined right first sign
    exact ⟨joined, after, by simp [hjoined, hfirst], hends⟩

theorem Wanting.opening {depth : Nat} (opening : Leaf .leftParen)
    (h : Wanting (Closing (depth + 1)) tokens) :
    Wanting (Closing depth) (opening.token :: tokens) := by
  obtain ⟨inner, back, rfl, closing, more, rfl, hmore⟩ := h
  have hfactor := Wanting.factor (opening.token :: (inner.tokens ++ [closing.token]))
    (fun comments => .group opening inner closing comments)
    (fun comments => by simp [Phrase.tokens]) hmore
  simpa using hfactor

end Steps

/-! ## Completions -/

theorem exists_closing (depth : Nat) : ∃ tokens, Closing depth tokens := by
  induction depth with
  | zero => exact ⟨[], rfl⟩
  | succ depth ih =>
      obtain ⟨tokens, htokens⟩ := ih
      let closing : Leaf .rightParen := .blank .rightParen
      exact ⟨closing.token :: tokens, closing, tokens, rfl, .finish htokens⟩

end Classlet.Grammar
