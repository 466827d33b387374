import Classlet.Token.Kind

/-!
# Vocabulary

The reserved words and the symbols of the language, each as one table from
spelling to kind.  Lookups are exact: `Class` is an ordinary identifier.
-/

namespace Classlet

namespace Kind

def words : List (String × Kind) :=
  [("int", type .int), ("float", type .float), ("string", type .string),
    ("bool", type .bool), ("char", type .char), ("byte", type .byte),
    ("decimal", type .decimal), ("double", type .double), ("long", type .long),
    ("short", type .short),
    ("if", word .ifWord), ("else", word .elseWord), ("while", word .whileWord),
    ("for", word .forWord), ("foreach", word .foreachWord), ("do", word .doWord),
    ("in", word .inWord), ("true", word .trueWord), ("false", word .falseWord),
    ("public", access .publicAccess), ("private", access .privateAccess),
    ("protected", access .protectedAccess),
    ("namespace", word .namespaceWord), ("class", word .classWord),
    ("using", word .usingWord)]

/--
The operators and punctuation marks.  The characters `%`, `&` and `|` occur
only as halves of a two-character symbol.
-/
def symbols : List (String × Kind) :=
  [("==", binary .equal), ("!=", binary .notEqual), ("<=", binary .lessEqual),
    (">=", binary .greaterEqual), ("&&", binary .and), ("||", binary .or),
    ("++", step .increment), ("--", step .decrement), ("+=", step .plus),
    ("-=", step .minus), ("*=", step .times), ("/=", step .divide),
    ("%=", step .modulo),
    ("=", assign), ("+", binary .plus), ("-", binary .minus), ("*", binary .times),
    ("/", binary .divide), ("<", binary .less), (">", binary .greater), ("!", not),
    ("(", leftParen), (")", rightParen), ("\x7b", leftBrace), ("\x7d", rightBrace),
    (";", semicolon), (".", dot), (",", comma)]

/-- The kind of a reserved word; `none` for an ordinary identifier. -/
def ofWord? (lexeme : String) : Option Kind :=
  words.lookup lexeme

def ofSymbol? (lexeme : String) : Option Kind :=
  symbols.lookup lexeme

end Kind

end Classlet
