import Classlet.Expression.Operator

/-!
# Phrases

Concrete syntax trees for expressions.  A tree keeps every token it stands for,
so a sentence is what the tokens of a tree spell.

    0  expression     : 1 ((`&&` | `||`) 1)*
    1  logicalOr      : 2 (`||` 2)*
    2  logicalAnd     : 3 (`&&` 3)*
    3  equality       : 4 ((`==` | `!=`) 4)*
    4  relational     : 5 ((`<` | `>` | `<=` | `>=`) 5)*
    5  additive       : 6 ((`+` | `-`) 6)*
    6  multiplicative : 7 ((`*` | `/`) 7)*
    7  factor         : (NAME | NUMBER | STRING | `(` 0 `)`) comment*

A repetition is read from the left.  The outermost layer makes the grammar
ambiguous: `a && b || c` is a phrase of it in two ways.
-/

namespace Classlet.Grammar

/-! ## Leaves -/

structure Leaf (kind : Kind) where
  token : Token
  kind_eq : token.kind = kind

/-- A token of a family of kinds, and which member of the family it is. -/
structure Mark {α : Type} (family : α → Kind) where
  value : α
  token : Token
  kind_eq : token.kind = family value

def Leaf.blank (kind : Kind) : Leaf kind :=
  ⟨⟨kind, "", .start⟩, rfl⟩

def Mark.blank {α : Type} (family : α → Kind) (value : α) : Mark family :=
  ⟨value, ⟨family value, "", .start⟩, rfl⟩

abbrev Comments := List (Mark Kind.comment)

def Comments.tokens (comments : Comments) : List Token :=
  comments.map Mark.token

@[simp] theorem Comments.tokens_nil : Comments.tokens [] = [] := rfl

@[simp] theorem Comments.tokens_cons (comment : Mark Kind.comment) (comments : Comments) :
    Comments.tokens (comment :: comments) = comment.token :: Comments.tokens comments := rfl

@[simp] theorem Comments.tokens_append (front back : Comments) :
    Comments.tokens (front ++ back) = Comments.tokens front ++ Comments.tokens back :=
  List.map_append

/-! ## Layers -/

/-- The operators that join the phrases of a layer. -/
def operatorsAt : Nat → List Operator
  | 0 => [.and, .or]
  | 1 => [.or]
  | 2 => [.and]
  | 3 => [.equal, .notEqual]
  | 4 => [.less, .greater, .lessEqual, .greaterEqual]
  | 5 => [.plus, .minus]
  | 6 => [.times, .divide]
  | _ => []

theorem mem_operatorsAt {operator : Operator} {layer : Nat} :
    operator ∈ operatorsAt layer ↔
      layer = operator.level + 1 ∨ layer = 0 ∧ operator.level ≤ 1 := by
  match layer with
  | 0 | 1 | 2 | 3 | 4 | 5 | 6 | _ + 7 =>
      cases operator <;> simp [operatorsAt, Operator.level]

theorem level_of_mem_operatorsAt_succ {operator : Operator} {layer : Nat}
    (h : operator ∈ operatorsAt (layer + 1)) : operator.level = layer := by
  rw [mem_operatorsAt] at h
  omega

inductive Phrase : Nat → Type where
  | name (leaf : Leaf .identifier) (after : Comments) : Phrase 7
  | number (leaf : Leaf .number) (after : Comments) : Phrase 7
  | text (leaf : Leaf .stringLiteral) (after : Comments) : Phrase 7
  | group (opening : Leaf .leftParen) (inner : Phrase 0) (closing : Leaf .rightParen)
      (after : Comments) : Phrase 7
  | lift {layer : Nat} (phrase : Phrase (layer + 1)) : Phrase layer
  | operation {layer : Nat} (left : Phrase layer) (sign : Mark Kind.binary)
      (fits : sign.value ∈ operatorsAt layer) (right : Phrase (layer + 1)) : Phrase layer

abbrev Expression := Phrase 0

namespace Phrase

def tokens {layer : Nat} : Phrase layer → List Token
  | name leaf after => leaf.token :: after.tokens
  | number leaf after => leaf.token :: after.tokens
  | text leaf after => leaf.token :: after.tokens
  | group opening inner closing after =>
      opening.token :: (inner.tokens ++ closing.token :: after.tokens)
  | lift phrase => phrase.tokens
  | operation left sign _ right => left.tokens ++ sign.token :: right.tokens

end Phrase

/-! ## Types -/

/--
The type of an operation; `none` if the operands do not fit.  Logical operators
join two booleans, all others two operands of one type.
-/
def result? (operator : Operator) (left right : Ty) : Option Ty :=
  match operator with
  | .or | .and => if left = .bool ∧ right = .bool then some .bool else none
  | .equal | .notEqual | .less | .greater | .lessEqual | .greaterEqual =>
      if left = right then some .bool else none
  | .plus | .minus | .times | .divide => if left = right then some left else none

namespace Phrase

/-- The type of a phrase where `known` names are bound; `none` if it has none. -/
def type? (known : List (String × Ty)) {layer : Nat} : Phrase layer → Option Ty
  | name leaf _ => known.lookup leaf.token.lexeme
  | number leaf _ =>
      if leaf.token.lexeme.toList.getLast? = some 'f' then some .float else some .int
  | text _ _ => some .string
  | group _ inner _ _ => inner.type? known
  | lift phrase => phrase.type? known
  | operation left sign _ right =>
      (left.type? known).bind fun leftType =>
        (right.type? known).bind fun rightType => result? sign.value leftType rightType

end Phrase

end Classlet.Grammar
