import Classlet.Analysis.Analyzer
import Classlet.Proofs.Expression.Reading

/-!
# Printed expressions

A tree of operations can be printed in many ways.  An operation needs parentheses where
its place asks for one that binds tighter; parentheses may stand around anything else as
well, and comments behind every complete factor.  However a tree is printed, reading
gives what a check of its nodes gives, operands before operators and the left ones first.
-/

namespace Classlet

namespace Grammar

/-- An expression without parentheses and comments. -/
inductive Tree where
  | name (leaf : Leaf .identifier)
  | number (leaf : Leaf .number)
  | text (leaf : Leaf .stringLiteral)
  | operation (left : Tree) (sign : Mark Kind.binary) (right : Tree)

namespace Tree

/-! ## Printing -/

/--
The tokens print a tree where an operation of a lower level than `level` has to stand in
parentheses.  All operators associate to the left, so a right operand that is an
operation of the same level needs them too.
-/
inductive Prints : Tree → (level : Nat) → List Token → Prop where
  | name {level : Nat} (leaf : Leaf .identifier) (after : Comments) :
      Prints (.name leaf) level (leaf.token :: after.tokens)
  | number {level : Nat} (leaf : Leaf .number) (after : Comments) :
      Prints (.number leaf) level (leaf.token :: after.tokens)
  | text {level : Nat} (leaf : Leaf .stringLiteral) (after : Comments) :
      Prints (.text leaf) level (leaf.token :: after.tokens)
  | operation {level : Nat} {left right : Tree} {front back : List Token}
      (sign : Mark Kind.binary) (hlevel : level ≤ sign.value.level)
      (hleft : Prints left sign.value.level front)
      (hright : Prints right (sign.value.level + 1) back) :
      Prints (.operation left sign right) level (front ++ sign.token :: back)
  | group {level : Nat} {tree : Tree} {inner : List Token} (opening : Leaf .leftParen)
      (h : Prints tree 0 inner) (closing : Leaf .rightParen) (after : Comments) :
      Prints tree level (opening.token :: (inner ++ closing.token :: after.tokens))

/-! ## Types -/

section Types

variable (known : List (String × Ty))

/-- The type of a tree where `known` names are bound; `none` if it has none. -/
def type? : Tree → Option Ty
  | name leaf => known.lookup leaf.token.lexeme
  | number leaf =>
      if leaf.token.lexeme.toList.getLast? = some 'f' then some .float else some .int
  | text _ => some .string
  | operation left sign right =>
      left.type?.bind fun leftType =>
        right.type?.bind fun rightType => result? sign.value leftType rightType

end Types

/-- All nodes of a tree, operands before operators. -/
def nodes : Tree → List Tree
  | operation left sign right => left.nodes ++ right.nodes ++ [operation left sign right]
  | leaf => [leaf]

def firstUntyped? (known : List (String × Ty)) (tree : Tree) : Option Tree :=
  tree.nodes.find? fun node => (node.type? known).isNone

/-- What is wrong with a node whose operands have types while it has none itself. -/
inductive Fails (known : List (String × Ty)) : Tree → Fault → Prop where
  | undeclared {leaf : Leaf .identifier} (h : known.lookup leaf.token.lexeme = none) :
      Fails known (.name leaf) (.undeclared leaf.token)
  | nonBoolean {left right : Tree} {sign : Mark Kind.binary} {leftType rightType : Ty}
      (hleft : left.type? known = some leftType) (hright : right.type? known = some rightType)
      (hlogical : sign.value = .and ∨ sign.value = .or)
      (h : ¬ (leftType = .bool ∧ rightType = .bool)) :
      Fails known (.operation left sign right) (.nonBoolean sign.token leftType rightType)
  | operands {left right : Tree} {sign : Mark Kind.binary} {leftType rightType : Ty}
      (hleft : left.type? known = some leftType) (hright : right.type? known = some rightType)
      (hlogical : ¬ (sign.value = .and ∨ sign.value = .or)) (h : leftType ≠ rightType) :
      Fails known (.operation left sign right) (.operands sign.token leftType rightType)

variable {known : List (String × Ty)} {tree : Tree} {ty : Ty} {fault : Fault}

theorem Fails.unique {node : Tree} {other : Fault} (h : Fails known node fault)
    (hother : Fails known node other) : fault = other := by
  cases h with
  | undeclared => cases hother with | undeclared => rfl
  | nonBoolean hleft hright hlogical =>
      cases hother with
      | nonBoolean hleft' hright' =>
          cases hleft.symm.trans hleft'
          cases hright.symm.trans hright'
          rfl
      | operands _ _ hlogical' => exact absurd hlogical hlogical'
  | operands hleft hright hlogical =>
      cases hother with
      | nonBoolean _ _ hlogical' => exact absurd hlogical' hlogical
      | operands hleft' hright' =>
          cases hleft.symm.trans hleft'
          cases hright.symm.trans hright'
          rfl

/-! ## Checking -/

/-- Check a tree from left to right, operands before operators. -/
def check (known : List (String × Ty)) : Tree → Except Fault Ty
  | name leaf =>
      match known.lookup leaf.token.lexeme with
      | some ty => .ok ty
      | none => .error (.undeclared leaf.token)
  | number leaf =>
      .ok (if leaf.token.lexeme.toList.getLast? = some 'f' then .float else .int)
  | text _ => .ok .string
  | operation left sign right =>
      (left.check known).bind fun leftType =>
        (right.check known).bind fun rightType =>
          sign.value.typing sign.token leftType rightType

theorem check_eq_ok_iff : tree.check known = .ok ty ↔ tree.type? known = some ty := by
  induction tree generalizing ty with
  | name leaf => cases h : known.lookup leaf.token.lexeme <;> simp [check, type?, h]
  | number leaf =>
      simp only [check, type?]
      split <;> simp
  | text leaf => simp [check, type?]
  | operation left sign right ihLeft ihRight =>
      have htyping (leftType rightType : Ty) :
          sign.value.typing sign.token leftType rightType = .ok ty ↔
            result? sign.value leftType rightType = some ty := by
        rw [← typing_eq sign.value sign.token]
        cases sign.value.typing sign.token leftType rightType <;> simp [Except.toOption]
      simp only [type?, Option.bind_eq_some_iff, ← ihLeft, ← ihRight, ← htyping, check]
      cases left.check known with
      | error fault => simp [Except.bind]
      | ok leftType =>
          cases right.check known with
          | error fault => simp [Except.bind]
          | ok rightType => simp [Except.bind]

/-- A tree that has a type is made of nodes that have types. -/
theorem firstUntyped?_eq_none (h : tree.type? known = some ty) :
    tree.firstUntyped? known = none := by
  induction tree generalizing ty with
  | name leaf | number leaf | text leaf => simp [firstUntyped?, nodes, h]
  | operation left sign right ihLeft ihRight =>
      obtain ⟨leftType, hleft, hrest⟩ := Option.bind_eq_some_iff.mp h
      obtain ⟨rightType, hright, _⟩ := Option.bind_eq_some_iff.mp hrest
      have hfirst := ihLeft hleft
      have hsecond := ihRight hright
      unfold firstUntyped? at hfirst hsecond ⊢
      simp [nodes, List.find?_append, hfirst, hsecond, h]

theorem fails_of_typing {left right : Tree} {sign : Mark Kind.binary}
    {leftType rightType : Ty}
    (hleft : left.type? known = some leftType) (hright : right.type? known = some rightType)
    (h : sign.value.typing sign.token leftType rightType = .error fault) :
    Fails known (.operation left sign right) fault := by
  cases hsign : sign.value <;> simp only [hsign, Operator.typing] at h <;> split at h <;> cases h
  case or | and => exact .nonBoolean hleft hright (by simp [hsign]) ‹_›
  all_goals exact .operands hleft hright (by simp [hsign]) ‹_›

/-- A check that fails does so at the first node without a type. -/
theorem exists_fails_of_check (h : tree.check known = .error fault) :
    ∃ node, tree.firstUntyped? known = some node ∧ Fails known node fault := by
  induction tree with
  | name leaf =>
      cases hlookup : known.lookup leaf.token.lexeme with
      | some ty => simp [check, hlookup] at h
      | none =>
          simp only [check, hlookup, Except.error.injEq] at h
          refine ⟨.name leaf, by simp [firstUntyped?, nodes, type?, hlookup], ?_⟩
          exact h ▸ .undeclared hlookup
  | number leaf | text leaf => cases h
  | operation left sign right ihLeft ihRight =>
      simp only [firstUntyped?, nodes, List.find?_append] at ihLeft ihRight ⊢
      cases hleft : left.check known with
      | error first =>
          simp only [check, hleft, Except.bind, Except.error.injEq] at h
          obtain ⟨node, hnode, hfails⟩ := ihLeft (h ▸ hleft)
          exact ⟨node, by simp [hnode], hfails⟩
      | ok leftType =>
          have hleftNone := firstUntyped?_eq_none (check_eq_ok_iff.mp hleft)
          rw [firstUntyped?] at hleftNone
          cases hright : right.check known with
          | error second =>
              simp only [check, hleft, hright, Except.bind, Except.error.injEq] at h
              obtain ⟨node, hnode, hfails⟩ := ihRight (h ▸ hright)
              exact ⟨node, by simp [hleftNone, hnode], hfails⟩
          | ok rightType =>
              have hrightNone := firstUntyped?_eq_none (check_eq_ok_iff.mp hright)
              rw [firstUntyped?] at hrightNone
              have huntyped : (operation left sign right).type? known = none := by
                cases htype : (operation left sign right).type? known with
                | none => rfl
                | some ty => cases h.symm.trans (check_eq_ok_iff.mpr htype)
              simp only [check, hleft, hright, Except.bind] at h
              refine ⟨operation left sign right, ?_, ?_⟩
              · simp [hleftNone, hrightNone, huntyped]
              · exact fails_of_typing (check_eq_ok_iff.mp hleft) (check_eq_ok_iff.mp hright) h

theorem check_eq_error_iff :
    tree.check known = .error fault ↔
      ∃ node, tree.firstUntyped? known = some node ∧ Fails known node fault := by
  refine ⟨exists_fails_of_check, ?_⟩
  rintro ⟨node, hnode, hfails⟩
  cases hcheck : tree.check known with
  | ok ty => cases (firstUntyped?_eq_none (check_eq_ok_iff.mp hcheck)).symm.trans hnode
  | error other =>
      obtain ⟨first, hfirst, hother⟩ := exists_fails_of_check hcheck
      cases hfirst.symm.trans hnode
      rw [hother.unique hfails]

end Tree

end Grammar

namespace Expression

open Grammar

/-! ## Reading -/

/-- The induction is on the printed form; parentheses begin again at the lowest level. -/
theorem delivers_prints (scopes : Scope.Stack) {tree : Tree} {level : Nat}
    {tokens : List Token}
    (h : tree.Prints level tokens) (frames : List Frame) (hbarred : Barred level frames) :
    Delivers scopes frames tokens level (tree.check scopes.current.entries) := by
  induction h generalizing frames with
  | name leaf after =>
      refine delivers_leaf (by simp [leaf.kind_eq]) ?_ frames _ after
      simp only [operandType?, leaf.kind_eq, Tree.check, Scope.Stack.lookup, Scope.Table.get?]
      cases scopes.current.entries.lookup leaf.token.lexeme <;> rfl
  | number leaf after =>
      refine delivers_leaf (by simp [leaf.kind_eq]) ?_ frames _ after
      simp only [operandType?, leaf.kind_eq, Tree.check]
      split <;> rfl
  | text leaf after =>
      refine delivers_leaf (by simp [leaf.kind_eq]) ?_ frames _ after
      simp only [operandType?, leaf.kind_eq, Tree.check]
      rfl
  | operation sign hlevel hleft hright ihLeft ihRight =>
      have hsign : Barred sign.value.level frames := hbarred.mono hlevel
      have hboth := delivers_operation sign hsign (ihLeft frames hsign) fun ty =>
        ihRight (.operation ty sign.value sign.token :: frames) (Nat.lt_succ_self _)
      exact hboth.mono hlevel
  | group opening h closing after ih =>
      exact delivers_group opening.kind_eq closing.kind_eq (ih _ trivial) _ after

end Expression

namespace Analysis

open Expression Grammar

/--
In front of a printed tree a request for an expression gives the type of the tree and
stops behind its last token; if the tree has no type, it gives what is wrong with the
first node that has none.
-/
theorem printed_expression_checked {tree : Tree} {tokens rest : List Token}
    (hprints : tree.Prints 0 tokens) {analyzer : Analyzer}
    (hrest : analyzer.rest = tokens ++ rest) (hends : EndsBefore rest) :
    (∀ ty, analyzer.expression =
        (.ok ty, ⟨lastPlace analyzer.last tokens, rest, analyzer.scopes⟩) ↔
      tree.type? analyzer.scopes.current.entries = some ty) ∧
    ∀ fault, analyzer.expression.1 = .error fault ↔
      ∃ node, tree.firstUntyped? analyzer.scopes.current.entries = some node ∧
        Tree.Fails analyzer.scopes.current.entries node fault := by
  have hdelivers := delivers_prints analyzer.scopes hprints [] trivial
  obtain ⟨haccepted, hrejected⟩ := read_of_delivers hdelivers hends analyzer.last
  rw [← hrest] at haccepted hrejected
  simp only [← Tree.check_eq_ok_iff, ← Tree.check_eq_error_iff, Analyzer.expression]
  cases hcheck : tree.check analyzer.scopes.current.entries with
  | ok whole =>
      rw [haccepted whole hcheck]
      simp
  | error first =>
      rw [hrejected first hcheck]
      simp

/-- The tree of `1 + 2 * 2.5f < y`, where `y` is not bound, fails at its product. -/
theorem printed_expression_checked_product :
    let one : Leaf .number := ⟨⟨.number, "1", ⟨1, 1⟩⟩, rfl⟩
    let two : Leaf .number := ⟨⟨.number, "2", ⟨1, 6⟩⟩, rfl⟩
    let half : Leaf .number := ⟨⟨.number, "2.5f", ⟨1, 18⟩⟩, rfl⟩
    let name : Leaf .identifier := ⟨⟨.identifier, "y", ⟨1, 26⟩⟩, rfl⟩
    let plus : Mark Kind.binary := ⟨.plus, ⟨.binary .plus, "+", ⟨1, 3⟩⟩, rfl⟩
    let times : Mark Kind.binary := ⟨.times, ⟨.binary .times, "*", ⟨1, 16⟩⟩, rfl⟩
    let less : Mark Kind.binary := ⟨.less, ⟨.binary .less, "<", ⟨1, 24⟩⟩, rfl⟩
    let opening : Leaf .leftParen := ⟨⟨.leftParen, "(", ⟨1, 5⟩⟩, rfl⟩
    let comment : Mark Kind.comment := ⟨.block, ⟨.comment .block, "/**/", ⟨1, 8⟩⟩, rfl⟩
    let closing : Leaf .rightParen := ⟨⟨.rightParen, ")", ⟨1, 22⟩⟩, rfl⟩
    let semicolon : Token := ⟨.semicolon, ";", ⟨1, 27⟩⟩
    let product : Tree := .operation (.number two) times (.number half)
    let tree : Tree := .operation (.operation (.number one) plus product) less (.name name)
    let tokens : List Token :=
      [one.token, plus.token, opening.token, two.token, comment.token,
      times.token, half.token, closing.token, less.token, name.token]
    let analyzer : Analyzer := ⟨.start, tokens ++ [semicolon], .empty⟩
    tree.Prints 0 tokens ∧ EndsBefore [semicolon] ∧
      analyzer.expression.1 = .error (.operands times.token .int .float) := by
  intro one two half name plus times less opening comment closing semicolon product tree tokens
    analyzer
  have hproduct : product.Prints 0 [two.token, comment.token, times.token, half.token] :=
    .operation times (by decide) (.number two [comment]) (.number half [])
  have hsum : (Tree.operation (.number one) plus product).Prints 3 (one.token :: plus.token ::
      opening.token :: ([two.token, comment.token, times.token, half.token] ++
        [closing.token])) :=
    .operation plus (by decide) (.number one []) (.group opening hproduct closing [])
  have hprints : tree.Prints 0 tokens := .operation less (by decide) hsum (.name name [])
  have hends : EndsBefore [semicolon] :=
    endsBefore_cons.mpr ⟨rfl, fun _ hkind => Kind.noConfusion hkind⟩
  have hone : (Tree.number one).type? [] = some .int := by decide
  have htwo : (Tree.number two).type? [] = some .int := by decide
  have hhalf : (Tree.number half).type? [] = some .float := by decide
  have hfirst : tree.firstUntyped? [] = some product := by
    have huntyped : (Tree.operation (.number two) times (.number half)).type? [] = none := by
      decide
    simp [Tree.firstUntyped?, tree, product, Tree.nodes, hone, htwo, hhalf, huntyped]
  have hfails : Tree.Fails [] product (.operands times.token .int .float) :=
    .operands htwo hhalf (by decide) (by decide)
  have hchecked :=
    printed_expression_checked hprints (show analyzer.rest = _ from rfl) hends
  exact ⟨hprints, hends, (hchecked.2 _).mpr ⟨product, hfirst, hfails⟩⟩

end Analysis

end Classlet
