import Classlet.Proofs.Grammar.Phrase

/-!
# Reassociation

The outermost layer lets one phrase be read in several ways.  All readings spell
the same tokens and have the same type, and one of them joins nothing in the
outermost layer: the canonical one.
-/

namespace Classlet.Grammar

/-- Nothing is joined in the outermost layer, not even inside groups. -/
def Phrase.Canonical {layer : Nat} : Phrase layer → Prop
  | name _ _ | number _ _ | text _ _ => True
  | group _ inner _ _ => inner.Canonical
  | lift phrase => phrase.Canonical
  | operation left _ _ right => layer ≠ 0 ∧ left.Canonical ∧ right.Canonical

/-! ## Logical operations -/

def logical? (left right : Option Ty) : Option Ty :=
  if left = some .bool ∧ right = some .bool then some .bool else none

theorem logical?_assoc (first second third : Option Ty) :
    logical? (logical? first second) third = logical? first (logical? second third) := by
  unfold logical?
  by_cases hfirst : first = some .bool <;> by_cases hsecond : second = some .bool <;>
    by_cases hthird : third = some .bool <;> simp [hfirst, hsecond, hthird]

theorem type?_operation_of_logical {layer : Nat} (left : Phrase layer)
    (sign : Mark Kind.binary) (fits : sign.value ∈ operatorsAt layer)
    (right : Phrase (layer + 1)) (hlogical : sign.value.level ≤ 1)
    (known : List (String × Ty)) :
    (Phrase.operation left sign fits right).type? known =
      logical? (left.type? known) (right.type? known) := by
  have hoperator : sign.value = .or ∨ sign.value = .and := by
    cases hvalue : sign.value <;> simp_all [Operator.level]
  simp only [Phrase.type?, logical?]
  cases left.type? known <;> cases right.type? known <;>
    rcases hoperator with h | h <;> simp [h, result?]

/-! ## Joining at the right edge -/

private theorem exists_extend_here {layer : Nat} (phrase : Phrase layer)
    (sign : Mark Kind.binary) (hlayer : layer = sign.value.level + 1)
    (right : Phrase (sign.value.level + 2)) :
    ∃ extended : Phrase layer,
      extended.tokens = phrase.tokens ++ sign.token :: right.tokens ∧
      (phrase.Canonical → right.Canonical → extended.Canonical) ∧
      (sign.value.level ≤ 1 → ∀ known : List (String × Ty),
        extended.type? known = logical? (phrase.type? known) (right.type? known)) := by
  subst hlayer
  have fits : sign.value ∈ operatorsAt (sign.value.level + 1) :=
    mem_operatorsAt.mpr (.inl rfl)
  refine ⟨.operation phrase sign fits right, rfl, ?_, ?_⟩
  · intro hphrase hright
    exact ⟨Nat.succ_ne_zero _, hphrase, hright⟩
  · intro hlogical known
    exact type?_operation_of_logical phrase sign fits right hlogical known

/--
An operation can be added at the right edge of a phrase, in the layer of its
operator.  Operands of looser operators stay where they are.
-/
theorem exists_extend {layer : Nat} (phrase : Phrase layer) (sign : Mark Kind.binary)
    (hlayer : layer ≤ sign.value.level + 1) (right : Phrase (sign.value.level + 2)) :
    ∃ extended : Phrase layer,
      extended.tokens = phrase.tokens ++ sign.token :: right.tokens ∧
      (phrase.Canonical → right.Canonical → extended.Canonical) ∧
      (sign.value.level ≤ 1 → ∀ known : List (String × Ty),
        extended.type? known = logical? (phrase.type? known) (right.type? known)) := by
  have hbound : sign.value.level ≤ 5 := by cases sign.value <;> simp [Operator.level]
  induction phrase with
  | name leaf after => omega
  | number leaf after => omega
  | text leaf after => omega
  | group opening inner closing after => omega
  | lift phrase ih =>
      rcases Nat.eq_or_lt_of_le hlayer with heq | hlt
      · exact exists_extend_here (.lift phrase) sign heq right
      obtain ⟨extended, htokens, hcanonical, htype⟩ := ih hlt
      exact ⟨.lift extended, htokens, hcanonical, htype⟩
  | @operation layer left first fits inner _ ih =>
      rcases Nat.eq_or_lt_of_le hlayer with heq | hlt
      · exact exists_extend_here (.operation left first fits inner) sign heq right
      obtain ⟨extended, htokens, hcanonical, htype⟩ := ih hlt
      refine ⟨.operation left first fits extended, ?_, ?_, ?_⟩
      · simp [Phrase.tokens, htokens]
      · rintro ⟨hne, hleft, hinner⟩ hright
        exact ⟨hne, hleft, hcanonical hinner hright⟩
      · intro hlogical known
        have hfirst : first.value.level ≤ 1 := by
          have := mem_operatorsAt.mp fits
          omega
        rw [type?_operation_of_logical _ _ _ _ hfirst,
          type?_operation_of_logical _ _ _ _ hfirst, htype hlogical, logical?_assoc]

/--
A logical operation joins a phrase with one of a layer that its operator does
not reach: the operands of the right phrase are added one after another.
-/
theorem exists_join {layer : Nat} (right : Phrase layer) (left : Expression)
    (sign : Mark Kind.binary) (hlogical : sign.value.level ≤ 1) (hpositive : 1 ≤ layer)
    (hlayer : layer ≤ sign.value.level + 2) (hleft : left.Canonical)
    (hright : right.Canonical) :
    ∃ joined : Expression, joined.Canonical ∧
      joined.tokens = left.tokens ++ sign.token :: right.tokens ∧
      ∀ known : List (String × Ty),
        joined.type? known = logical? (left.type? known) (right.type? known) := by
  have join_here : ∀ {layer : Nat} (right : Phrase layer), layer = sign.value.level + 2 →
      right.Canonical →
      ∃ joined : Expression, joined.Canonical ∧
        joined.tokens = left.tokens ++ sign.token :: right.tokens ∧
        ∀ known : List (String × Ty),
          joined.type? known = logical? (left.type? known) (right.type? known) := by
    rintro _ right rfl hright
    obtain ⟨joined, htokens, hcanonical, htype⟩ :=
      exists_extend left sign (Nat.zero_le _) right
    exact ⟨joined, hcanonical hleft hright, htokens, htype hlogical⟩
  induction right with
  | name leaf after => omega
  | number leaf after => omega
  | text leaf after => omega
  | group opening inner closing after => omega
  | lift phrase ih =>
      rcases Nat.eq_or_lt_of_le hlayer with heq | hlt
      · exact join_here (.lift phrase) heq hright
      obtain ⟨joined, hcanonical, htokens, htype⟩ := ih (Nat.succ_pos _) hlt hright
      exact ⟨joined, hcanonical, htokens, htype⟩
  | @operation layer front next fits back ihFront _ =>
      rcases Nat.eq_or_lt_of_le hlayer with heq | hlt
      · exact join_here (.operation front next fits back) heq hright
      have hnext : layer = next.value.level + 1 := by
        have := mem_operatorsAt.mp fits
        omega
      subst hnext
      have hnextLogical : next.value.level ≤ 1 := by omega
      obtain ⟨_, hfront, hback⟩ := hright
      obtain ⟨joined, hcanonical, htokens, htype⟩ := ihFront hpositive hlayer hfront
      obtain ⟨extended, htokens', hcanonical', htype'⟩ :=
        exists_extend joined next (Nat.zero_le _) back
      refine ⟨extended, hcanonical' hcanonical hback, ?_, ?_⟩
      · simp [htokens', htokens, Phrase.tokens]
      · intro known
        rw [htype' hnextLogical, htype, type?_operation_of_logical _ _ _ _ hnextLogical,
          logical?_assoc]

/-! ## The canonical reading -/

theorem exists_canonical {layer : Nat} (phrase : Phrase layer) :
    ∃ canonical : Phrase layer, canonical.Canonical ∧ canonical.tokens = phrase.tokens ∧
      ∀ known : List (String × Ty), canonical.type? known = phrase.type? known := by
  induction phrase with
  | name leaf after => exact ⟨.name leaf after, trivial, rfl, fun _ => rfl⟩
  | number leaf after => exact ⟨.number leaf after, trivial, rfl, fun _ => rfl⟩
  | text leaf after => exact ⟨.text leaf after, trivial, rfl, fun _ => rfl⟩
  | group opening inner closing after ih =>
      obtain ⟨canonical, hcanonical, htokens, htype⟩ := ih
      refine ⟨.group opening canonical closing after, hcanonical, ?_, htype⟩
      simp only [Phrase.tokens, htokens]
  | lift phrase ih =>
      obtain ⟨canonical, hcanonical, htokens, htype⟩ := ih
      exact ⟨.lift canonical, hcanonical, htokens, htype⟩
  | @operation layer left sign fits right ihLeft ihRight =>
      obtain ⟨front, hfront, hfrontTokens, hfrontType⟩ := ihLeft
      obtain ⟨back, hback, hbackTokens, hbackType⟩ := ihRight
      cases layer with
      | succ layer =>
          refine ⟨.operation front sign fits back, ⟨Nat.succ_ne_zero _, hfront, hback⟩, ?_, ?_⟩
          · simp only [Phrase.tokens, hfrontTokens, hbackTokens]
          · intro known
            simp only [Phrase.type?, hfrontType, hbackType]
      | zero =>
          have hlogical : sign.value.level ≤ 1 := by
            have := mem_operatorsAt.mp fits
            omega
          obtain ⟨joined, hjoined, htokens, htype⟩ :=
            exists_join back front sign hlogical (Nat.le_refl _) (by omega) hfront hback
          refine ⟨joined, hjoined, ?_, ?_⟩
          · simp only [htokens, Phrase.tokens, hfrontTokens, hbackTokens]
          · intro known
            rw [htype, type?_operation_of_logical _ _ _ _ hlogical, hfrontType, hbackType]

end Classlet.Grammar
