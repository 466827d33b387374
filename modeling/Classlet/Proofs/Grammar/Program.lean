import Classlet.Proofs.Grammar.Phrase

/-!
# Programs

Concrete syntax trees for statements, classes and programs.  Comments have a
place of their own in a tree: before an access modifier, before a statement,
before the closing brace of a statement block, and behind a factor.

    program   : (`using` NAME `;` | `namespace` NAME `{` class* `}`)*
    class     : comment* access `class` NAME `{` member* `}`
    member    : comment* access type NAME (`;` | method)
    method    : `(` (type NAME (`,` type NAME)*)? `)` `{` block
    block     : (comment* statement)* comment* `}`
    statement : type NAME (`=` expr)? (`,` NAME (`=` expr)?)* `;`
              | NAME `=` expr (`,` NAME `=` expr)* `;`
              | `if` `(` expr `)` `{` block (`else` `{` block)?
              | `while` `(` expr `)` `{` block
              | `for` `(` type NAME `=` expr `;` expr `;` NAME step NUMBER `)` `{` block
              | `do` `{` block `while` `(` expr `)` `;`
              | `foreach` `(` type NAME `in` expr `)` `{` block
-/

namespace Classlet.Grammar

/-! ## Lists and conditions -/

structure Separated (Part : Type) where
  first : Part
  more : List (Leaf .comma × Part)

namespace Separated

variable {Part : Type}

def toList (parts : Separated Part) : List Part :=
  parts.first :: parts.more.map Prod.snd

def tokensOfMore (tokensOf : Part → List Token) (more : List (Leaf .comma × Part)) :
    List Token :=
  more.flatMap fun part => part.1.token :: tokensOf part.2

def tokens (tokensOf : Part → List Token) (parts : Separated Part) : List Token :=
  tokensOf parts.first ++ tokensOfMore tokensOf parts.more

end Separated

structure Condition where
  opening : Leaf .leftParen
  value : Expression
  closing : Leaf .rightParen

def Condition.tokens (condition : Condition) : List Token :=
  condition.opening.token :: (condition.value.tokens ++ [condition.closing.token])

/-! ## Statements -/

structure Declarator where
  name : Leaf .identifier
  initial? : Option (Leaf .assign × Expression)

namespace Declarator

def tokensOfInitial : Option (Leaf .assign × Expression) → List Token
  | none => []
  | some (sign, value) => sign.token :: value.tokens

def tokens (declarator : Declarator) : List Token :=
  declarator.name.token :: tokensOfInitial declarator.initial?

end Declarator

structure Assignment where
  target : Leaf .identifier
  sign : Leaf .assign
  value : Expression

def Assignment.tokens (assignment : Assignment) : List Token :=
  assignment.target.token :: assignment.sign.token :: assignment.value.tokens

structure ForHeader where
  word : Leaf (.word .forWord)
  opening : Leaf .leftParen
  type : Mark Kind.type
  name : Leaf .identifier
  sign : Leaf .assign
  initial : Expression
  afterInitial : Leaf .semicolon
  condition : Expression
  afterCondition : Leaf .semicolon
  counter : Leaf .identifier
  step : Mark Kind.step
  amount : Leaf .number
  closing : Leaf .rightParen

def ForHeader.tokens (header : ForHeader) : List Token :=
  [header.word.token, header.opening.token, header.type.token, header.name.token,
    header.sign.token] ++ header.initial.tokens ++
  [header.afterInitial.token] ++ header.condition.tokens ++
  [header.afterCondition.token, header.counter.token, header.step.token,
    header.amount.token, header.closing.token]

theorem ForHeader.tokens_eq (header : ForHeader) :
    header.tokens = header.word.token :: header.tokens.tail :=
  rfl

structure ForeachHeader where
  word : Leaf (.word .foreachWord)
  opening : Leaf .leftParen
  type : Mark Kind.type
  name : Leaf .identifier
  inside : Leaf (.word .inWord)
  collection : Expression
  closing : Leaf .rightParen

def ForeachHeader.tokens (header : ForeachHeader) : List Token :=
  [header.word.token, header.opening.token, header.type.token, header.name.token,
    header.inside.token] ++ header.collection.tokens ++ [header.closing.token]

theorem ForeachHeader.tokens_eq (header : ForeachHeader) :
    header.tokens = header.word.token :: header.tokens.tail :=
  rfl

mutual

inductive Statement where
  | variables (type : Mark Kind.type) (parts : Separated Declarator) (closing : Leaf .semicolon)
  | assignments (parts : Separated Assignment) (closing : Leaf .semicolon)
  | conditional (word : Leaf (.word .ifWord)) (condition : Condition)
      (opening : Leaf .leftBrace) (body : Block)
  | alternative (word : Leaf (.word .ifWord)) (condition : Condition)
      (opening : Leaf .leftBrace) (body : Block) (otherwise : Leaf (.word .elseWord))
      (opening' : Leaf .leftBrace) (other : Block)
  | whileLoop (word : Leaf (.word .whileWord)) (condition : Condition)
      (opening : Leaf .leftBrace) (body : Block)
  | forLoop (header : ForHeader) (opening : Leaf .leftBrace) (body : Block)
  | doLoop (word : Leaf (.word .doWord)) (opening : Leaf .leftBrace) (body : Block)
      (word' : Leaf (.word .whileWord)) (condition : Condition) (closing : Leaf .semicolon)
  | foreachLoop (header : ForeachHeader) (opening : Leaf .leftBrace) (body : Block)

/-- The statements behind an opening brace, through the closing one. -/
inductive Block where
  | done (before : Comments) (closing : Leaf .rightBrace)
  | next (before : Comments) (statement : Statement) (rest : Block)

end

mutual

def Statement.tokens : Statement → List Token
  | .variables type parts closing =>
      type.token :: (parts.tokens Declarator.tokens ++ [closing.token])
  | .assignments parts closing => parts.tokens Assignment.tokens ++ [closing.token]
  | .conditional word condition opening body =>
      word.token :: (condition.tokens ++ opening.token :: body.tokens)
  | .alternative word condition opening body otherwise opening' other =>
      word.token :: (condition.tokens ++ opening.token :: (body.tokens ++
        otherwise.token :: opening'.token :: other.tokens))
  | .whileLoop word condition opening body =>
      word.token :: (condition.tokens ++ opening.token :: body.tokens)
  | .forLoop header opening body => header.tokens ++ opening.token :: body.tokens
  | .doLoop word opening body word' condition closing =>
      word.token :: opening.token :: (body.tokens ++
        word'.token :: (condition.tokens ++ [closing.token]))
  | .foreachLoop header opening body => header.tokens ++ opening.token :: body.tokens

def Block.tokens : Block → List Token
  | .done before closing => before.tokens ++ [closing.token]
  | .next before statement rest => before.tokens ++ (statement.tokens ++ rest.tokens)

end

theorem Block.tokens_ne_nil (block : Block) : block.tokens ≠ [] := by
  match block with
  | .done comments closing => simp [Block.tokens]
  | .next comments statement rest => simp [Block.tokens, tokens_ne_nil rest]

/-! ## Classes -/

structure Parameter where
  type : Mark Kind.type
  name : Leaf .identifier

def Parameter.tokens (parameter : Parameter) : List Token :=
  [parameter.type.token, parameter.name.token]

structure Method where
  opening : Leaf .leftParen
  parameters? : Option (Separated Parameter)
  closing : Leaf .rightParen
  brace : Leaf .leftBrace
  body : Block

namespace Method

def tokensOfParameters : Option (Separated Parameter) → List Token
  | none => []
  | some parameters => parameters.tokens Parameter.tokens

def tokens (method : Method) : List Token :=
  method.opening.token :: (tokensOfParameters method.parameters? ++
    method.closing.token :: method.brace.token :: method.body.tokens)

end Method

inductive MemberRest where
  | field (closing : Leaf .semicolon)
  | method (definition : Method)

def MemberRest.tokens : MemberRest → List Token
  | field closing => [closing.token]
  | method definition => definition.tokens

structure Member where
  before : Comments
  access : Mark Kind.access
  type : Mark Kind.type
  name : Leaf .identifier
  rest : MemberRest

def Member.tokens (member : Member) : List Token :=
  member.before.tokens ++
    member.access.token :: member.type.token :: member.name.token :: member.rest.tokens

structure ClassDeclaration where
  before : Comments
  access : Mark Kind.access
  word : Leaf (.word .classWord)
  name : Leaf .identifier
  opening : Leaf .leftBrace
  members : List Member
  closing : Leaf .rightBrace

def ClassDeclaration.tokens (declaration : ClassDeclaration) : List Token :=
  declaration.before.tokens ++
    declaration.access.token :: declaration.word.token :: declaration.name.token ::
      declaration.opening.token ::
        (declaration.members.flatMap Member.tokens ++ [declaration.closing.token])

/-! ## Programs -/

inductive Declaration where
  | ofUsing (word : Leaf (.word .usingWord)) (name : Leaf .identifier)
      (closing : Leaf .semicolon)
  | ofNamespace (word : Leaf (.word .namespaceWord)) (name : Leaf .identifier)
      (opening : Leaf .leftBrace) (classes : List ClassDeclaration)
      (closing : Leaf .rightBrace)

def Declaration.tokens : Declaration → List Token
  | ofUsing word name closing => [word.token, name.token, closing.token]
  | ofNamespace word name opening classes closing =>
      word.token :: name.token :: opening.token ::
        (classes.flatMap ClassDeclaration.tokens ++ [closing.token])

structure Program where
  declarations : List Declaration

def Program.tokens (program : Program) : List Token :=
  program.declarations.flatMap Declaration.tokens

/-- The tokens spell a program, well typed or not. -/
def Sentence (tokens : List Token) : Prop :=
  ∃ program : Program, program.tokens = tokens

end Classlet.Grammar
