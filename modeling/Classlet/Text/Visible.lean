import Classlet.Text.Combining
import Classlet.Text.Unprintable

/-!
# Visible text

How a character or a text is shown inside a one-line message.  Quotes, the
backslash and the common controls are written with a backslash; a character
that would not show by itself is written by its code point.
-/

namespace Classlet.Text

/-- A code point between braces, in lower-case hexadecimal without leading zeros. -/
def codePoint (char : Char) : List Char :=
  ['\\', 'u', '\x7b'] ++ Nat.toDigits 16 char.toNat ++ ['\x7d']

/-- The letter that stands for a character after a backslash, quotes apart. -/
def backslashed? : Char → Option Char
  | '\x00' => some '0'
  | '\t' => some 't'
  | '\r' => some 'r'
  | '\n' => some 'n'
  | '\\' => some '\\'
  | _ => none

/-- A character as it is shown, with a backslash before each of `quotes`. -/
def visible (quotes : List Char) (char : Char) : List Char :=
  match backslashed? char with
  | some letter => ['\\', letter]
  | none =>
      if char ∈ quotes then ['\\', char]
      else if isCombining char || isUnprintable char then codePoint char
      else [char]

def visibleChar (char : Char) : String :=
  String.ofList (visible ['\'', '"'] char)

def quoted (text : String) : String :=
  "\"" ++ String.ofList (text.toList.flatMap (visible ['"'])) ++ "\""

end Classlet.Text
