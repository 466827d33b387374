import Classlet.Expression.State

/-!
# Goals

An analysis is a list of goals still to be met, the nearest first.  A goal
either takes the next token, and other goals take its place, or is finished
before that token; finishing may bind a name, open or close a method scope, or
fail.  One token of look-ahead decides.

The goals are the unfinished parts of this grammar, where a comment may stand
before an access modifier, before a statement or the closing brace of a
statement list, and after an operand:

    program   : (`using` NAME `;` | `namespace` NAME `{` class* `}`)*
    class     : access `class` NAME `{` member* `}`
    member    : access type NAME (`;` | `(` parameters? `)` body)
    body      : `{` statement* `}`
    statement : type NAME (`=` expr)? (`,` NAME (`=` expr)?)* `;`
              | NAME `=` expr (`,` NAME `=` expr)* `;`
              | `if` `(` expr `)` body (`else` body)?
              | `while` `(` expr `)` body
              | `for` `(` type NAME `=` expr `;` expr `;` NAME step NUMBER `)` body
              | `do` body `while` `(` expr `)` `;`
              | `foreach` `(` type NAME `in` expr `)` body
-/

namespace Classlet.Analysis

open Classlet.Expression (State)

/-- What the type of a finished expression is for. -/
inductive Use where
  | discard
  /-- The value goes to `target`, by the sign at `sign`. -/
  | assign (target : Token) (declared : Ty) (sign : Token)
  deriving DecidableEq, Repr

inductive Goal where
  | program
  | expect (kind : Kind)
  | namespaceName
  | className
  /-- Classes up to the closing brace, which may come now if `closable`. -/
  | classes (closable : Bool)
  /-- Members up to the closing brace, which may come now if `closable`. -/
  | members (closable : Bool)
  | memberType
  | memberName (ty : Ty)
  /-- Bind the member as a field, unless a parameter list follows. -/
  | field (ty : Ty) (name : Token)
  /-- The end of a field, or a parameter list and a body. -/
  | memberRest (name : Token)
  | enter (name : Token)
  | leave (name : Token)
  | firstParameter
  | parameterType
  | parameterName (ty : Ty)
  | moreParameters
  /-- Statements up to the closing brace; directly after an `if` body an `else` may come. -/
  | statements (afterIf : Bool)
  | variableName (ty : Ty)
  | initializer (ty : Ty) (name : Token)
  | moreVariables (ty : Ty)
  | targetName
  /-- An assignment to a name that has to be bound already. -/
  | target (name : Token)
  /-- An assignment to a name of a known type. -/
  | assign (ty : Ty) (name : Token)
  | moreTargets
  | counterType
  | counterName (ty : Ty)
  | stepName
  | stepOperator
  | elementType
  | declare (ty : Ty) (name : Token)
  /-- Require that a name is bound in the current scope. -/
  | known (name : Token)
  | expression (state : State) (use : Use)
  deriving DecidableEq, Repr

namespace Goal

/-! ## Shorthands -/

def word (reserved : Word) : Goal := expect (.word reserved)

def value : Goal := expression .start .discard

def condition : List Goal := [expect .leftParen, value, expect .rightParen]

def body : List Goal := [expect .leftBrace, statements false]

def forHeader : List Goal :=
  [expect .leftParen, counterType, expect .semicolon, value, expect .semicolon, stepName,
    stepOperator, expect .number, expect .rightParen]

def foreachHeader : List Goal :=
  [expect .leftParen, elementType, expect .identifier, word .inWord, value,
    expect .rightParen]

/-- A method from its first parameter on, in a scope of its own. -/
def method (name : Token) : List Goal :=
  [enter name, firstParameter] ++ body ++ [leave name]

/-! ## Taking a token -/

/-- The goals that replace a statement list once `token` has begun a statement. -/
def statement? (token : Token) : Option (List Goal) :=
  match token.kind with
  | .identifier => some [target token, moreTargets, statements false]
  | .type ty => some [variableName ty, statements false]
  | .word .ifWord => some (condition ++ body ++ [statements true])
  | .word .whileWord => some (condition ++ body ++ [statements false])
  | .word .forWord => some (forHeader ++ body ++ [statements false])
  | .word .doWord =>
      some (body ++ [word .whileWord] ++ condition ++ [expect .semicolon, statements false])
  | .word .foreachWord => some (foreachHeader ++ body ++ [statements false])
  | _ => none

/--
The goals that take the place of a goal once it has taken `token`; `none` if it
does not take the token.
-/
def take? (scopes : Scope.Stack) (token : Token) : Goal → Except Fault (Option (List Goal))
  | program => .ok <|
      match token.kind with
      | .word .namespaceWord =>
          some [namespaceName, expect .leftBrace, classes true, program]
      | .word .usingWord => some [expect .identifier, expect .semicolon, program]
      | _ => none
  | expect kind => .ok (if token.kind = kind then some [] else none)
  | namespaceName => .ok (if token.kind = .identifier then some [] else none)
  | className => .ok (if token.kind = .identifier then some [] else none)
  | classes closable => .ok <|
      match token.kind with
      | .rightBrace => if closable then some [] else none
      | .comment _ => some [classes false]
      | .access _ =>
          some [word .classWord, className, expect .leftBrace, members true, classes true]
      | _ => none
  | members closable => .ok <|
      match token.kind with
      | .rightBrace => if closable then some [] else none
      | .comment _ => some [members false]
      | .access _ => some [memberType, members true]
      | _ => none
  | memberType => .ok (token.kind.type?.map fun ty => [memberName ty])
  | memberName ty => .ok <|
      if token.kind = .identifier then some [field ty token, memberRest token] else none
  | memberRest name => .ok <|
      match token.kind with
      | .semicolon => some []
      | .leftParen => some (method name)
      | _ => none
  | firstParameter => .ok <|
      match token.kind with
      | .rightParen => some []
      | .type ty => some [parameterName ty, moreParameters]
      | _ => none
  | parameterType => .ok (token.kind.type?.map fun ty => [parameterName ty])
  | parameterName ty => .ok <|
      if token.kind = .identifier then some [declare ty token] else none
  | moreParameters => .ok <|
      match token.kind with
      | .comma => some [parameterType, moreParameters]
      | .rightParen => some []
      | _ => none
  | statements afterIf => .ok <|
      match token.kind with
      | .rightBrace => some []
      | .comment _ => some [statements false]
      | .word .elseWord => if afterIf then some (body ++ [statements false]) else none
      | _ => statement? token
  | variableName ty => .ok <|
      if token.kind = .identifier then
        some [declare ty token, initializer ty token, moreVariables ty]
      else none
  | initializer ty name => .ok <|
      if token.kind = .assign then some [expression .start (.assign name ty token)] else none
  | moreVariables ty => .ok <|
      match token.kind with
      | .comma => some [variableName ty]
      | .semicolon => some []
      | _ => none
  | targetName => .ok (if token.kind = .identifier then some [target token] else none)
  | target name =>
      match scopes.lookup name.lexeme with
      | none => .error (.undeclared name)
      | some ty => .ok <|
          if token.kind = .assign then some [expression .start (.assign name ty token)]
          else none
  | assign ty name => .ok <|
      if token.kind = .assign then some [expression .start (.assign name ty token)] else none
  | moreTargets => .ok <|
      match token.kind with
      | .comma => some [targetName, moreTargets]
      | .semicolon => some []
      | _ => none
  | counterType => .ok (token.kind.type?.map fun ty => [counterName ty])
  | counterName ty => .ok <|
      if token.kind = .identifier then some [declare ty token, assign ty token] else none
  | stepName => .ok (if token.kind = .identifier then some [known token] else none)
  | stepOperator => .ok (if token.kind.isStep then some [] else none)
  | elementType => .ok (token.kind.type?.map fun _ => [])
  | expression state use =>
      match state.take? scopes token with
      | .ok next? => .ok (next?.map fun next => [expression next use])
      | .error fault => .error fault
  | field _ _ | enter _ | leave _ | declare _ _ | known _ => .ok none

/-! ## Finishing before a token -/

/-- What a goal that has to take a token would have accepted. -/
def wanted (ahead : Lookahead) : Goal → Wanted
  | program => .kind (.word .usingWord)
  | expect kind => .kind kind
  | classes _ | members _ => .access
  | memberType | firstParameter | parameterType | counterType | elementType => .type
  | memberRest _ | moreVariables _ | moreTargets => .kind .semicolon
  | moreParameters => .kind .rightParen
  | statements _ =>
      match ahead with
      | .token _ => .statement
      | .ending _ => .kind .rightBrace
  | target _ | assign _ _ => .kind .assign
  | stepOperator => .stepOperator
  | expression _ _ => .expression
  | _ => .kind .identifier

end Goal

def bindName (scopes : Scope.Stack) (ty : Ty) (name : Token) : Except Fault Scope.Stack :=
  match scopes.declare name.lexeme ty with
  | .ok extended => .ok extended
  | .error previous => .error (.duplicate name previous)

def resolveName (scopes : Scope.Stack) (name : Token) : Except Fault Scope.Stack :=
  match scopes.lookup name.lexeme with
  | some _ => .ok scopes
  | none => .error (.undeclared name)

def Use.check (ty : Ty) : Use → Except Fault Unit
  | discard => .ok ()
  | assign target declared sign =>
      if declared = ty then .ok () else .error (.assignment target declared ty sign)

/-- Finish a goal that does not take what comes next. -/
def Goal.finish (scopes : Scope.Stack) (ahead : Lookahead) : Goal → Except Fault Scope.Stack
  | program =>
      match ahead with
      | .ending _ => .ok scopes
      | .token _ => .error (.unexpected (.kind (.word .usingWord)) ahead)
  | field ty name =>
      if ahead.kind? = some .leftParen then .ok scopes else bindName scopes ty name
  | enter _ => .ok scopes.push
  | leave _ => .ok scopes.pop.2
  | declare ty name => bindName scopes ty name
  | known name => resolveName scopes name
  | initializer _ _ => .ok scopes
  | target name =>
      match resolveName scopes name with
      | .ok _ => .error (.unexpected (.kind .assign) ahead)
      | .error fault => .error fault
  | expression state use =>
      match state.finish ahead with
      | .ok ty =>
          match use.check ty with
          | .ok _ => .ok scopes
          | .error fault => .error fault
      | .error fault => .error fault
  | goal => .error (.unexpected (goal.wanted ahead) ahead)

end Classlet.Analysis
