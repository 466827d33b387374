import Classlet.Scan.Scanner

/-!
# The lexical grammar

What the lexeme at the front of a text is, without saying how it is found.

    word    : [A-Za-z_][A-Za-z0-9_]*                  the longest
    number  : [0-9]+ (`.` [0-9]+)? `f`?               the longest
    string  : from `"` through the next `"`           or to the end of the text
    char    : from `'` through the next `'`           or to the end of the text,
                                                      unless `'` follows at once
    comment : from `//` up to the next newline        or to the end of the text
            | from `/*` through the next `*/`         or to the end of the text
    symbol  : two characters of the table, else one   if none of the above begins

A text is cut at its front again and again.  Blanks in front of an item are
passed over, and a character at which no lexeme begins is an item of its own.
-/

namespace Classlet.Scan

/-! ## Words and numbers -/

def IsLetter (char : Char) : Prop :=
  'A' ≤ char ∧ char ≤ 'Z' ∨ 'a' ≤ char ∧ char ≤ 'z'

def IsDigit (char : Char) : Prop :=
  '0' ≤ char ∧ char ≤ '9'

def BeginsWord (char : Char) : Prop :=
  IsLetter char ∨ char = '_'

def IsWord (lexeme : List Char) : Prop :=
  ∃ first rest, lexeme = first :: rest ∧ BeginsWord first ∧
    ∀ char ∈ rest, BeginsWord char ∨ IsDigit char

def IsDigits (lexeme : List Char) : Prop :=
  lexeme ≠ [] ∧ ∀ char ∈ lexeme, IsDigit char

def IsNumber (lexeme : List Char) : Prop :=
  ∃ whole part mark, lexeme = whole ++ part ++ mark ∧ IsDigits whole ∧
    (part = [] ∨ ∃ decimals, part = '.' :: decimals ∧ IsDigits decimals) ∧
    (mark = [] ∨ mark = ['f'])

/-- Of all beginnings of the text that have the form, `lexeme` is the longest. -/
def Longest (form : List Char → Prop) (text lexeme : List Char) : Prop :=
  (lexeme <+: text ∧ form lexeme) ∧
    ∀ other, other <+: text → form other → other.length ≤ lexeme.length

/-! ## Literals and comments -/

/-- The text through the first `stop` in it, or all of it if there is none. -/
def Through (stop text run : List Char) : Prop :=
  (∃ before after, text = before ++ stop ++ after ∧ run = before ++ stop ∧
    ∀ before' after', text = before' ++ stop ++ after' → before.length ≤ before'.length) ∨
  (¬ stop <:+: text) ∧ run = text

/-- The text up to the first `stop` in it, or all of it if there is none. -/
def UpTo (stop : Char) (text run : List Char) : Prop :=
  stop ∉ run ∧ (run = text ∨ ∃ after, text = run ++ stop :: after)

/-! ## Lexemes -/

/-- The text begins with a word, a number, a literal or a comment. -/
inductive Opens : List Char → Prop where
  | word {first : Char} {rest : List Char} (h : BeginsWord first) : Opens (first :: rest)
  | number {first : Char} {rest : List Char} (h : IsDigit first) : Opens (first :: rest)
  | string {rest : List Char} : Opens ('"' :: rest)
  | char {first : Char} {rest : List Char} (h : first ≠ '\'') : Opens ('\'' :: first :: rest)
  | lineComment {rest : List Char} : Opens ('/' :: '/' :: rest)
  | blockComment {rest : List Char} : Opens ('/' :: '*' :: rest)

/-- The first lexeme of a text that does not begin with a blank. -/
inductive Lexeme : List Char → Kind → List Char → Prop where
  | word {first : Char} {rest lexeme : List Char} (hfirst : BeginsWord first)
      (h : Longest IsWord (first :: rest) lexeme) :
      Lexeme (first :: rest) ((Kind.ofWord? (String.ofList lexeme)).getD .identifier) lexeme
  | number {first : Char} {rest lexeme : List Char} (hfirst : IsDigit first)
      (h : Longest IsNumber (first :: rest) lexeme) : Lexeme (first :: rest) .number lexeme
  | string {rest run : List Char} (h : Through ['"'] rest run) :
      Lexeme ('"' :: rest) .stringLiteral ('"' :: run)
  | char {first : Char} {rest run : List Char} (hfirst : first ≠ '\'')
      (h : Through ['\''] (first :: rest) run) :
      Lexeme ('\'' :: first :: rest) .charLiteral ('\'' :: run)
  | lineComment {rest run : List Char} (h : UpTo '\n' rest run) :
      Lexeme ('/' :: '/' :: rest) (.comment .line) ('/' :: '/' :: run)
  | blockComment {rest run : List Char} (h : Through ['*', '/'] rest run) :
      Lexeme ('/' :: '*' :: rest) (.comment .block) ('/' :: '*' :: run)
  | pair {first second : Char} {rest : List Char} {kind : Kind}
      (hopens : ¬ Opens (first :: second :: rest))
      (h : Kind.ofSymbol? (String.ofList [first, second]) = some kind) :
      Lexeme (first :: second :: rest) kind [first, second]
  | mark {first : Char} {rest : List Char} {kind : Kind} (hopens : ¬ Opens (first :: rest))
      (hpair : ∀ second ∈ rest.head?, Kind.ofSymbol? (String.ofList [first, second]) = none)
      (h : Kind.ofSymbol? (String.ofList [first]) = some kind) :
      Lexeme (first :: rest) kind [first]

/-! ## Texts -/

inductive Lexes : Position → List Char → List Item → Prop where
  | done {position : Position} : Lexes position [] []
  | blank {position : Position} {char : Char} {rest : List Char} {items : List Item}
      (hblank : Text.isBlank char = true) (h : Lexes (position.next char) rest items) :
      Lexes position (char :: rest) items
  | token {position : Position} {char : Char} {text lexeme rest : List Char} {kind : Kind}
      {items : List Item} (hblank : Text.isBlank char = false)
      (hlexeme : Lexeme (char :: text) kind lexeme) (hrest : char :: text = lexeme ++ rest)
      (h : Lexes (position.past lexeme) rest items) :
      Lexes position (char :: text) (.token ⟨kind, String.ofList lexeme, position⟩ :: items)
  | stray {position : Position} {char : Char} {rest : List Char} {items : List Item}
      (hblank : Text.isBlank char = false)
      (hnone : ∀ kind lexeme, ¬ Lexeme (char :: rest) kind lexeme)
      (h : Lexes (position.next char) rest items) :
      Lexes position (char :: rest) (.stray char position :: items)

end Classlet.Scan
