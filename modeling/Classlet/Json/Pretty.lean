import Classlet.Json.Basic

/-!
# Written JSON

The written form puts every item and every field on a line of its own, indented
by two spaces a level.  An empty list or record stays on one line.  Strings
escape the quote, the backslash and the controls below U+0020, and nothing else.
-/

namespace Classlet.Json

/-! ## Strings -/

def hexDigit (digit : Nat) : Char := Nat.digitChar digit

/-- The letter that stands for a character after a backslash. -/
def shortEscape? : Char → Option Char
  | '"' => some '"'
  | '\\' => some '\\'
  | '\x08' => some 'b'
  | '\t' => some 't'
  | '\n' => some 'n'
  | '\x0c' => some 'f'
  | '\r' => some 'r'
  | _ => none

def escape (char : Char) : List Char :=
  match shortEscape? char with
  | some letter => ['\\', letter]
  | none =>
      if char.toNat < 0x20 then
        ['\\', 'u', '0', '0', hexDigit (char.toNat / 16), hexDigit (char.toNat % 16)]
      else [char]

def writeText (value : String) : List Char :=
  '"' :: value.toList.flatMap escape ++ ['"']

/-! ## Values -/

def writeNumber (value : Nat) : List Char :=
  Nat.toDigits 10 value

def newLine (level : Nat) : List Char :=
  '\n' :: List.replicate (2 * level) ' '

mutual

/-- A value that begins on a line indented by `level`. -/
def write (level : Nat) : Json → List Char
  | text value => writeText value
  | number value => writeNumber value
  | list items =>
      match items with
      | [] => ['[', ']']
      | item :: rest =>
          '[' :: newLine (level + 1) ++ write (level + 1) item ++
            writeItems (level + 1) rest ++ newLine level ++ [']']
  | record fields =>
      match fields with
      | [] => ['\x7b', '\x7d']
      | (key, value) :: rest =>
          '\x7b' :: newLine (level + 1) ++ writeText key ++ [':', ' '] ++
            write (level + 1) value ++ writeFields (level + 1) rest ++
            newLine level ++ ['\x7d']

def writeItems (level : Nat) : List Json → List Char
  | [] => []
  | item :: rest => ',' :: newLine level ++ write level item ++ writeItems level rest

def writeFields (level : Nat) : List (String × Json) → List Char
  | [] => []
  | (key, value) :: rest =>
      ',' :: newLine level ++ writeText key ++ [':', ' '] ++ write level value ++
        writeFields level rest

end

def pretty (document : Json) : String :=
  String.ofList (document.write 0)

end Classlet.Json
