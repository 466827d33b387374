import Classlet.Token.Vocabulary

/-!
# Lexemes

What a token may look like, as functions that cut a lexeme off the front of a
text.  Each cut takes as much as its form allows, and a literal or a block
comment that is never closed takes the rest of the text.
-/

namespace Classlet.Scan

/-! ## Character classes -/

def isWordStart (char : Char) : Bool :=
  char.isAlpha || char == '_'

def isWordPart (char : Char) : Bool :=
  char.isAlphanum || char == '_'

/-! ## Numbers -/

def digits (text : List Char) : List Char × List Char :=
  (text.takeWhile Char.isDigit, text.dropWhile Char.isDigit)

/-- A point that a digit follows, with all digits after it. -/
def fraction : List Char → List Char × List Char
  | '.' :: digit :: rest =>
      if digit.isDigit then
        ('.' :: (digits (digit :: rest)).1, (digits (digit :: rest)).2)
      else ([], '.' :: digit :: rest)
  | text => ([], text)

def floatMark : List Char → List Char × List Char
  | 'f' :: rest => (['f'], rest)
  | text => ([], text)

/-- Digits, then a fraction and a float mark if they are there. -/
def number (text : List Char) : List Char × List Char :=
  let (whole, afterWhole) := digits text
  let (part, afterPart) := fraction afterWhole
  let (mark, rest) := floatMark afterPart
  (whole ++ part ++ mark, rest)

/-! ## Literals and comments -/

/-- Everything through the first `quote`, or the whole text if there is none. -/
def throughQuote (quote : Char) : List Char → List Char × List Char
  | [] => ([], [])
  | char :: rest =>
      if char = quote then ([char], rest)
      else (char :: (throughQuote quote rest).1, (throughQuote quote rest).2)

/-- Everything through the first `*/`, or the whole text if there is none. -/
def throughClose : List Char → List Char × List Char
  | [] => ([], [])
  | '*' :: '/' :: rest => (['*', '/'], rest)
  | char :: rest => (char :: (throughClose rest).1, (throughClose rest).2)

/-- Everything up to the next newline, which is left in the text. -/
def restOfLine (text : List Char) : List Char × List Char :=
  (text.takeWhile (· ≠ '\n'), text.dropWhile (· ≠ '\n'))

/-! ## Cuts -/

structure Cut where
  kind : Kind
  lexeme : List Char
  rest : List Char
  deriving DecidableEq, Repr

def cutWord (text : List Char) : Cut :=
  let lexeme := text.takeWhile isWordPart
  ⟨(Kind.ofWord? (String.ofList lexeme)).getD .identifier, lexeme,
    text.dropWhile isWordPart⟩

def cutNumber (text : List Char) : Cut :=
  ⟨.number, (number text).1, (number text).2⟩

/-- A literal whose opening quote has already been taken off the text. -/
def cutQuoted (kind : Kind) (quote : Char) (text : List Char) : Cut :=
  ⟨kind, quote :: (throughQuote quote text).1, (throughQuote quote text).2⟩

def cutLineComment (text : List Char) : Cut :=
  ⟨.comment .line, '/' :: '/' :: (restOfLine text).1, (restOfLine text).2⟩

def cutBlockComment (text : List Char) : Cut :=
  ⟨.comment .block, '/' :: '*' :: (throughClose text).1, (throughClose text).2⟩

def cutMark? : List Char → Option Cut
  | first :: rest =>
      (Kind.ofSymbol? (String.ofList [first])).map fun kind => ⟨kind, [first], rest⟩
  | [] => none

/-- A symbol; two characters win over one. -/
def cutSymbol? : List Char → Option Cut
  | first :: second :: rest =>
      match Kind.ofSymbol? (String.ofList [first, second]) with
      | some kind => some ⟨kind, [first, second], rest⟩
      | none => cutMark? (first :: second :: rest)
  | text => cutMark? text

/--
The lexeme at the front of a text that does not begin with a blank; `none` if
its first character begins no token.
-/
def cut? (text : List Char) : Option Cut :=
  match text with
  | [] => none
  | '"' :: rest => some (cutQuoted .stringLiteral '"' rest)
  | '\'' :: char :: rest =>
      if char = '\'' then none
      else some (cutQuoted .charLiteral '\'' (char :: rest))
  | '/' :: '/' :: rest => some (cutLineComment rest)
  | '/' :: '*' :: rest => some (cutBlockComment rest)
  | char :: rest =>
      if isWordStart char then some (cutWord (char :: rest))
      else if char.isDigit then some (cutNumber (char :: rest))
      else cutSymbol? (char :: rest)

end Classlet.Scan
