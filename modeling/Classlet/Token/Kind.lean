import Classlet.Ty

/-!
# Token kinds

The closed set of token categories.  Kinds that the grammar treats alike share
one constructor: the type keywords carry the type they name, the twelve binary
operators and the seven step operators of a `for` header carry which one they
are, and a comment carries how it is delimited.
-/

namespace Classlet

inductive Operator where
  | or
  | and
  | equal
  | notEqual
  | less
  | greater
  | lessEqual
  | greaterEqual
  | plus
  | minus
  | times
  | divide
  deriving DecidableEq, Repr

/-- The operators accepted in the last clause of a `for` header. -/
inductive StepOperator where
  | plus
  | minus
  | times
  | divide
  | modulo
  | increment
  | decrement
  deriving DecidableEq, Repr

inductive Access where
  | publicAccess
  | privateAccess
  | protectedAccess
  deriving DecidableEq, Repr

/-- The reserved words that name neither a type nor an access modifier. -/
inductive Word where
  | ifWord
  | elseWord
  | whileWord
  | forWord
  | foreachWord
  | doWord
  | inWord
  | trueWord
  | falseWord
  | namespaceWord
  | classWord
  | usingWord
  deriving DecidableEq, Repr

inductive CommentStyle where
  | line
  | block
  deriving DecidableEq, Repr

inductive Kind where
  | type (ty : Ty)
  | word (reserved : Word)
  | access (modifier : Access)
  | assign
  | binary (operator : Operator)
  | step (operator : StepOperator)
  | not
  | leftParen
  | rightParen
  | leftBrace
  | rightBrace
  | semicolon
  | dot
  | comma
  | number
  | stringLiteral
  | charLiteral
  | identifier
  | comment (style : CommentStyle)
  deriving DecidableEq, Repr

/-! ## Names -/

def Operator.name : Operator → String
  | or => "OR"
  | and => "AND"
  | equal => "EQUAL"
  | notEqual => "NOT_EQUAL"
  | less => "LESS"
  | greater => "GREATER"
  | lessEqual => "LESS_EQUAL"
  | greaterEqual => "GREATER_EQUAL"
  | plus => "PLUS"
  | minus => "MINUS"
  | times => "MULTIPLY"
  | divide => "DIVIDE"

def StepOperator.name : StepOperator → String
  | plus => "PLUS_ASSIGN"
  | minus => "MINUS_ASSIGN"
  | times => "MULTIPLY_ASSIGN"
  | divide => "DIVIDE_ASSIGN"
  | modulo => "MODULO_ASSIGN"
  | increment => "INCREMENT"
  | decrement => "DECREMENT"

def Access.name : Access → String
  | publicAccess => "PUBLIC"
  | privateAccess => "PRIVATE"
  | protectedAccess => "PROTECTED"

def Word.name : Word → String
  | ifWord => "IF"
  | elseWord => "ELSE"
  | whileWord => "WHILE"
  | forWord => "FOR"
  | foreachWord => "FOREACH"
  | doWord => "DO"
  | inWord => "IN"
  | trueWord => "TRUE"
  | falseWord => "FALSE"
  | namespaceWord => "NAMESPACE"
  | classWord => "CLASS"
  | usingWord => "USING"

def CommentStyle.name : CommentStyle → String
  | line => "COMMENT_SINGLELINE"
  | block => "COMMENT_MULTILINE"

namespace Kind

/-- The upper-case name used in messages, token tables and reports. -/
def name : Kind → String
  | type ty => ty.name
  | word reserved => reserved.name
  | access modifier => modifier.name
  | assign => "ASSIGN"
  | binary operator => operator.name
  | step operator => operator.name
  | not => "NOT"
  | leftParen => "LPAREN"
  | rightParen => "RPAREN"
  | leftBrace => "LBRACE"
  | rightBrace => "RBRACE"
  | semicolon => "SEMICOLON"
  | dot => "DOT"
  | comma => "COMMA"
  | number => "NUMBER"
  | stringLiteral => "STRING_LITERAL"
  | charLiteral => "CHAR_LITERAL"
  | identifier => "IDENTIFIER"
  | comment style => style.name

/-! ## Classes of kinds -/

def type? : Kind → Option Ty
  | type ty => some ty
  | _ => none

def isComment : Kind → Bool
  | comment _ => true
  | _ => false

def isAccess : Kind → Bool
  | access _ => true
  | _ => false

def isStep : Kind → Bool
  | step _ => true
  | _ => false

/-! ## Enumeration -/

def all : List Kind :=
  Ty.all.map type ++
  [.ifWord, .elseWord, .whileWord, .forWord, .foreachWord, .doWord, .inWord,
    .trueWord, .falseWord, .namespaceWord, .classWord, .usingWord].map word ++
  [.publicAccess, .privateAccess, .protectedAccess].map access ++
  [.or, .and, .equal, .notEqual, .less, .greater, .lessEqual, .greaterEqual,
    .plus, .minus, .times, .divide].map binary ++
  [.plus, .minus, .times, .divide, .modulo, .increment, .decrement].map step ++
  [assign, not, leftParen, rightParen, leftBrace, rightBrace, semicolon, dot, comma,
    number, stringLiteral, charLiteral, identifier, comment .line, comment .block]

def ofName? (text : String) : Option Kind :=
  all.find? fun kind => kind.name == text

end Kind

end Classlet
