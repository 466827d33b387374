import Classlet.Scan.Lexeme
import Classlet.Text.Blank
import Classlet.Text.Visible
import Classlet.Token.Basic

/-!
# Scanning

Scanning cuts a whole text into items: tokens, and stray characters that begin
no token.  Blanks separate items and belong to none.  Scanning never fails, and
the place of an item is the place of its first character.
-/

namespace Classlet.Scan

inductive Item where
  | token (token : Token)
  | stray (char : Char) (position : Position)
  deriving DecidableEq, Repr

/-- A text that is still to be scanned, and the place where it begins. -/
structure Scanner where
  rest : List Char
  position : Position
  deriving DecidableEq, Repr

/--
Scan a text that begins at `position`, after its first `covered` characters,
which belong to an item found earlier: the items, and what remains at the end.
-/
def scanAfter : (covered : Nat) → Position → List Char → List Item × Scanner
  | _, position, [] => ([], ⟨[], position⟩)
  | covered + 1, position, char :: rest =>
      scanAfter covered (position.next char) rest
  | 0, position, char :: rest =>
      if Text.isBlank char then scanAfter 0 (position.next char) rest
      else
        match cut? (char :: rest) with
        | some cut =>
            let (more, scanner) :=
              scanAfter (cut.lexeme.length - 1) (position.next char) rest
            (.token ⟨cut.kind, String.ofList cut.lexeme, position⟩ :: more, scanner)
        | none =>
            let (more, scanner) := scanAfter 0 (position.next char) rest
            (.stray char position :: more, scanner)

namespace Scanner

def ofText (text : String) : Scanner :=
  ⟨text.toList, .start⟩

def run (scanner : Scanner) : List Item × Scanner :=
  scanAfter 0 scanner.position scanner.rest

end Scanner

def items (text : String) : List Item :=
  (Scanner.ofText text).run.1

namespace Item

def token? : Item → Option Token
  | token found => some found
  | stray _ _ => none

def stray? : Item → Option (Char × Position)
  | token _ => none
  | stray char position => some (char, position)

end Item

def tokensOf (found : List Item) : List Token :=
  found.filterMap Item.token?

def straysOf (found : List Item) : List (Char × Position) :=
  found.filterMap Item.stray?

def tokens (text : String) : List Token :=
  tokensOf (items text)

def strays (text : String) : List (Char × Position) :=
  straysOf (items text)

def strayMessage (char : Char) (position : Position) : String :=
  s!"Invalid character '{Text.visibleChar char}' at {position.line}:{position.column}"

end Classlet.Scan
