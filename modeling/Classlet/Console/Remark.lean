import Classlet.Analysis.Notes
import Classlet.Scan.Scanner

/-!
# Remarks

What the program tells about its own progress.  Each remark has a level and a message.
-/

namespace Classlet.Console

inductive Level where
  | error
  | warn
  | info
  | debug
  | trace
  deriving DecidableEq, Repr

namespace Level

def name : Level → String
  | error => "ERROR"
  | warn => "WARN"
  | info => "INFO"
  | debug => "DEBUG"
  | trace => "TRACE"

def rank : Level → Nat
  | error => 1
  | warn => 2
  | info => 3
  | debug => 4
  | trace => 5

end Level

inductive Remark where
  | scanned (token : Token)
  | skipped (char : Char) (position : Position)
  | counted (tokens strays : Nat)
  | saved (size : Nat) (path : String)
  | noted (note : Analysis.Note)
  deriving DecidableEq, Repr

namespace Remark

def level : Remark → Level
  | scanned _ => .trace
  | skipped _ _ => .warn
  | counted _ _ => .debug
  | saved _ _ => .debug
  | noted _ => .debug

def message : Remark → String
  | scanned token =>
      s!"{token.kind.name} {Text.quoted token.lexeme}" ++
        s!" at {token.position.line}:{token.position.column}"
  | skipped char position => Scan.strayMessage char position
  | counted tokens strays => s!"{tokens} token(s), {strays} skipped character(s)"
  | saved size path => s!"saved {size} bytes to {path}"
  | noted note => note.message

def ofItem : Scan.Item → Remark
  | .token found => scanned found
  | .stray char position => skipped char position

end Remark

end Classlet.Console
