import Classlet.Proofs.Grammar.Program

/-!
# Nested brackets

The brackets among the tokens of a program are nested: each one is closed by its own
kind before the one around it.  A block ends in the closing brace of an opening one in
front of it, so what is said of a block is that its brackets are nested up to that one.
-/

namespace Classlet

namespace Grammar

/-! ## Brackets -/

inductive Bracket where
  | paren
  | brace
  deriving DecidableEq, Repr

namespace Bracket

def opening : Bracket → Kind
  | paren => .leftParen
  | brace => .leftBrace

def closing : Bracket → Kind
  | paren => .rightParen
  | brace => .rightBrace

@[simp] theorem opening_paren : paren.opening = .leftParen := rfl

@[simp] theorem closing_paren : paren.closing = .rightParen := rfl

@[simp] theorem opening_brace : brace.opening = .leftBrace := rfl

@[simp] theorem closing_brace : brace.closing = .rightBrace := rfl

variable (bracket other : Bracket)

@[simp] theorem opening_inj : other.opening = bracket.opening ↔ other = bracket := by
  cases other <;> cases bracket <;> decide

@[simp] theorem closing_inj : other.closing = bracket.closing ↔ other = bracket := by
  cases other <;> cases bracket <;> decide

@[simp] theorem opening_ne_closing : other.opening ≠ bracket.closing := by
  cases other <;> cases bracket <;> decide

@[simp] theorem closing_ne_opening : other.closing ≠ bracket.opening := by
  cases other <;> cases bracket <;> decide

end Bracket

def isBracket : Kind → Bool
  | .leftParen | .rightParen | .leftBrace | .rightBrace => true
  | _ => false

@[simp] theorem Bracket.isBracket_opening (bracket : Bracket) :
    isBracket bracket.opening = true := by
  cases bracket <;> rfl

@[simp] theorem Bracket.isBracket_closing (bracket : Bracket) :
    isBracket bracket.closing = true := by
  cases bracket <;> rfl

/-- The brackets among some tokens, in their order. -/
def brackets (tokens : List Token) : List Kind :=
  (tokens.map Token.kind).filter isBracket

/-- Each bracket is closed by its own kind, and what stands in between is nested too. -/
inductive Nested : List Kind → Prop where
  | nil : Nested []
  | pair (bracket : Bracket) {inner back : List Kind} (hinner : Nested inner)
      (hback : Nested back) : Nested (bracket.opening :: (inner ++ bracket.closing :: back))

section Brackets

variable {token : Token} {tokens front back kinds : List Token}

@[simp] theorem brackets_nil : brackets [] = [] := rfl

@[simp] theorem brackets_cons (token : Token) (tokens : List Token) :
    brackets (token :: tokens) =
      if isBracket token.kind then token.kind :: brackets tokens else brackets tokens := by
  simp only [brackets, List.map_cons, List.filter_cons]

@[simp] theorem brackets_append (front back : List Token) :
    brackets (front ++ back) = brackets front ++ brackets back := by
  simp [brackets]

end Brackets

/-! ## Nested lists -/

section Nested

variable {front back kinds : List Kind}

theorem Nested.append (hfront : Nested front) (hback : Nested back) :
    Nested (front ++ back) := by
  induction hfront with
  | nil => exact hback
  | @pair bracket inner more hinner _ _ ihMore =>
      have hpair := Nested.pair bracket hinner ihMore
      simpa using hpair

theorem Nested.count_eq (h : Nested kinds) (bracket : Bracket) :
    kinds.count bracket.closing = kinds.count bracket.opening := by
  induction h with
  | nil => rfl
  | pair other _ _ ihInner ihBack =>
      simp [List.count_cons, ihInner, ihBack]
      omega

/-- In no beginning of a nested list are more brackets closed than opened. -/
theorem Nested.count_le (h : Nested kinds) (bracket : Bracket) (hfront : front <+: kinds) :
    front.count bracket.closing ≤ front.count bracket.opening := by
  induction h generalizing front with
  | nil =>
      rw [List.prefix_nil.mp hfront]
      exact Nat.le_refl _
  | @pair other inner back hinner _ ihInner ihBack =>
      rcases List.prefix_cons_iff.mp hfront with rfl | ⟨more, rfl, hmore⟩
      · exact Nat.le_refl _
      rcases List.prefix_or_prefix_of_prefix hmore (List.prefix_append inner _) with
        hwithin | ⟨behind, rfl⟩
      · -- The bracket is still open.
        have hmoreLe := ihInner hwithin
        simp [List.count_cons]
        omega
      have hinnerEq := hinner.count_eq bracket
      rcases List.prefix_cons_iff.mp ((List.prefix_append_right_inj inner).mp hmore) with
        rfl | ⟨last, rfl, hlast⟩
      · simp [List.count_cons, hinnerEq]
      · have hlastLe := ihBack hlast
        simp [List.count_cons, hinnerEq]
        omega

/-- The list is nested but for its last bracket, which closes a brace in front of it. -/
def Closes (kinds : List Kind) : Prop :=
  ∃ inner, Nested inner ∧ kinds = inner ++ [.rightBrace]

theorem Closes.nested (h : Closes kinds) (hback : Nested back) :
    Nested (.leftBrace :: (kinds ++ back)) := by
  obtain ⟨inner, hinner, rfl⟩ := h
  have hpair := Nested.pair .brace hinner hback
  simpa using hpair

theorem Closes.append (hfront : Nested front) (h : Closes kinds) :
    Closes (front ++ kinds) := by
  obtain ⟨inner, hinner, rfl⟩ := h
  exact ⟨front ++ inner, hfront.append hinner, by simp⟩

theorem nested_flatMap {Part : Type} {tokensOf : Part → List Token}
    (h : ∀ part, Nested (brackets (tokensOf part))) (parts : List Part) :
    Nested (brackets (parts.flatMap tokensOf)) := by
  induction parts with
  | nil => exact .nil
  | cons part parts ih =>
      rw [List.flatMap_cons, brackets_append]
      exact (h part).append ih

end Nested

/-! ## Expressions -/

@[simp] theorem Comments.brackets_eq (comments : Comments) :
    brackets comments.tokens = [] := by
  induction comments with
  | nil => rfl
  | cons comment comments ih => simp [comment.kind_eq, isBracket, ih]

theorem Phrase.nested {layer : Nat} (phrase : Phrase layer) :
    Nested (brackets phrase.tokens) := by
  induction phrase with
  | name leaf after | number leaf after | text leaf after =>
      simp [Phrase.tokens, leaf.kind_eq, isBracket, Nested.nil]
  | group opening inner closing after ih =>
      have hpair := Nested.pair .paren ih .nil
      simpa [Phrase.tokens, Leaf.kind_eq, isBracket] using hpair
  | lift phrase ih => exact ih
  | operation left sign fits right ihLeft ihRight =>
      simpa [Phrase.tokens, sign.kind_eq, isBracket] using ihLeft.append ihRight

theorem Condition.nested (condition : Condition) : Nested (brackets condition.tokens) := by
  have hpair := Nested.pair .paren condition.value.nested .nil
  simpa [Condition.tokens, Leaf.kind_eq, isBracket] using hpair

/-! ## Statements -/

theorem Separated.nested {Part : Type} {tokensOf : Part → List Token}
    (h : ∀ part, Nested (brackets (tokensOf part))) (parts : Separated Part) :
    Nested (brackets (parts.tokens tokensOf)) := by
  rw [Separated.tokens, brackets_append, Separated.tokensOfMore]
  refine (h parts.first).append (nested_flatMap (fun part => ?_) parts.more)
  simpa [part.1.kind_eq, isBracket] using h part.2

theorem Declarator.nested (declarator : Declarator) :
    Nested (brackets declarator.tokens) := by
  obtain ⟨name, initial?⟩ := declarator
  cases initial? with
  | none => simp [Declarator.tokens, tokensOfInitial, Leaf.kind_eq, isBracket, Nested.nil]
  | some initial =>
      simpa [Declarator.tokens, tokensOfInitial, Leaf.kind_eq, isBracket] using initial.2.nested

theorem Assignment.nested (assignment : Assignment) :
    Nested (brackets assignment.tokens) := by
  simpa [Assignment.tokens, Leaf.kind_eq, isBracket] using assignment.value.nested

theorem ForHeader.nested (header : ForHeader) : Nested (brackets header.tokens) := by
  have hinner := header.initial.nested.append header.condition.nested
  have hpair := Nested.pair .paren hinner .nil
  simpa [ForHeader.tokens, Leaf.kind_eq, Mark.kind_eq, isBracket] using hpair

theorem ForeachHeader.nested (header : ForeachHeader) :
    Nested (brackets header.tokens) := by
  have hpair := Nested.pair .paren header.collection.nested .nil
  simpa [ForeachHeader.tokens, Leaf.kind_eq, Mark.kind_eq, isBracket] using hpair

mutual

theorem Statement.nested (statement : Statement) : Nested (brackets statement.tokens) := by
  match statement with
  | .variables type parts closing =>
      simpa [Statement.tokens, Leaf.kind_eq, Mark.kind_eq, isBracket] using
        Separated.nested Declarator.nested parts
  | .assignments parts closing =>
      simpa [Statement.tokens, Leaf.kind_eq, isBracket] using
        Separated.nested Assignment.nested parts
  | .conditional word condition opening body =>
      have hbody := (Block.closes body).nested .nil
      simpa [Statement.tokens, Leaf.kind_eq, isBracket] using condition.nested.append hbody
  | .alternative word condition opening body otherwise opening' other =>
      have hother := (Block.closes other).nested .nil
      have hbody := (Block.closes body).nested hother
      simpa [Statement.tokens, Leaf.kind_eq, isBracket] using condition.nested.append hbody
  | .whileLoop word condition opening body =>
      have hbody := (Block.closes body).nested .nil
      simpa [Statement.tokens, Leaf.kind_eq, isBracket] using condition.nested.append hbody
  | .forLoop header opening body =>
      have hbody := (Block.closes body).nested .nil
      simpa [Statement.tokens, Leaf.kind_eq, isBracket] using header.nested.append hbody
  | .doLoop word opening body word' condition closing =>
      have hbody := (Block.closes body).nested condition.nested
      simpa [Statement.tokens, Leaf.kind_eq, isBracket] using hbody
  | .foreachLoop header opening body =>
      have hbody := (Block.closes body).nested .nil
      simpa [Statement.tokens, Leaf.kind_eq, isBracket] using header.nested.append hbody

theorem Block.closes (block : Block) : Closes (brackets block.tokens) := by
  match block with
  | .done comments closing =>
      exact ⟨[], .nil, by simp [Block.tokens, closing.kind_eq, isBracket]⟩
  | .next comments statement rest =>
      simpa [Block.tokens] using (Block.closes rest).append (Statement.nested statement)

end

/-! ## Programs -/

theorem Method.nested (method : Method) : Nested (brackets method.tokens) := by
  have hparameter (parameter : Parameter) : Nested (brackets parameter.tokens) := by
    simp [Parameter.tokens, Leaf.kind_eq, Mark.kind_eq, isBracket, Nested.nil]
  have hparameters : Nested (brackets (Method.tokensOfParameters method.parameters?)) := by
    cases method.parameters? with
    | none => exact .nil
    | some parameters => exact parameters.nested hparameter
  have hbody := method.body.closes.nested .nil
  have hpair := Nested.pair .paren hparameters hbody
  simpa [Method.tokens, Leaf.kind_eq, isBracket] using hpair

theorem Member.nested (member : Member) : Nested (brackets member.tokens) := by
  obtain ⟨comments, access, type, name, rest⟩ := member
  have hrest : Nested (brackets rest.tokens) := by
    cases rest with
    | field closing => simp [MemberRest.tokens, closing.kind_eq, isBracket, Nested.nil]
    | method definition => exact definition.nested
  simpa [Member.tokens, Leaf.kind_eq, Mark.kind_eq, isBracket] using hrest

theorem ClassDeclaration.nested (declaration : ClassDeclaration) :
    Nested (brackets declaration.tokens) := by
  have hpair := Nested.pair .brace (nested_flatMap Member.nested declaration.members) .nil
  simpa [ClassDeclaration.tokens, Leaf.kind_eq, Mark.kind_eq, isBracket] using hpair

theorem Declaration.nested (declaration : Declaration) :
    Nested (brackets declaration.tokens) := by
  cases declaration with
  | ofUsing word name closing =>
      simp [Declaration.tokens, Leaf.kind_eq, isBracket, Nested.nil]
  | ofNamespace word name opening classes closing =>
      have hpair := Nested.pair .brace (nested_flatMap ClassDeclaration.nested classes) .nil
      simpa [Declaration.tokens, Leaf.kind_eq, isBracket] using hpair

theorem Program.nested (program : Program) : Nested (brackets program.tokens) :=
  nested_flatMap Declaration.nested program.declarations

end Grammar

end Classlet
