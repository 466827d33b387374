import Classlet.Console.Style
import Classlet.Text.Pad
import Classlet.Token.Basic

/-!
# Token tables

A table with one row per token: its lexeme on one line, its kind and its line
number.  The lexeme column is as wide as the longest lexeme, but at least six
and at most forty characters; a longer lexeme is shown in full and shifts its
own row only.
-/

namespace Classlet.Report

open Console (Line plain bold)

def shownChar : Char → List Char
  | '\r' => []
  | '\n' => ['\\', 'n']
  | '\t' => ['\\', 't']
  | char => [char]

/-- A lexeme on one line. -/
def shownLexeme (lexeme : String) : String :=
  String.ofList (lexeme.toList.flatMap shownChar)

def lexemeWidth (tokens : List Token) : Nat :=
  min 40 (max 6 ((tokens.map fun token => (shownLexeme token.lexeme).length).foldr max 0))

def kindWidth : Nat := 20

def row (width : Nat) (lexeme kind line : String) : String :=
  Text.padRight width lexeme ++ "  " ++ Text.padRight kindWidth kind ++ "  " ++ line

def tokenRow (width : Nat) (token : Token) : String :=
  row width (shownLexeme token.lexeme) token.kind.name (toString token.position.line)

def tokenTable (tokens : List Token) : List Line :=
  let width := lexemeWidth tokens
  [bold (row width "Lexeme" "Kind" "Line")] ::
    tokens.map fun token => [plain (tokenRow width token)]

end Classlet.Report
