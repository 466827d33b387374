import Classlet.Console.Remark
import Classlet.Console.Style
import Classlet.Text.Pad

/-!
# Loggers

Remarks are handed to a logger, which is no part of the program: it decides which of
them are written and what a log line looks like.  The program tells it a filter and
nothing else.  Whether it styles its lines is between it and the environment.
-/

namespace Classlet.Console

/-- What a logger goes by, besides the remarks. -/
structure Logging where
  /-- Which remarks are asked for. -/
  filter : String
  /-- The environment asks all programs to leave out colors. -/
  noColor : Bool
  deriving DecidableEq, Repr

class Logger where
  /-- What is written about the filter, ahead of any remark. -/
  opening : Logging → List Char
  /-- What is written of a remark: a log line, or nothing. -/
  written : Logging → Remark → List Char

/-! ## A logger for consoles -/

/-- The most talkative level that is shown; `none` shows nothing. -/
abbrev Threshold := Option Level

def Level.shown (threshold : Threshold) (level : Level) : Bool :=
  match threshold with
  | none => false
  | some most => level.rank ≤ most.rank

/--
The threshold of a filter that names it, in upper or lower case; any other filter
shows nothing.
-/
def thresholdNamed (filter : String) : Threshold :=
  match String.ofList (filter.toList.map Char.toLower) with
  | "" => some .error
  | "error" => some .error
  | "warn" => some .warn
  | "info" => some .info
  | "debug" => some .debug
  | "trace" => some .trace
  | _ => none

/-- Styles can be asked for or ruled out; else they are used where they can be seen. -/
def usesStyles (asked? : Option String) (seen : Bool) : Bool :=
  match asked? with
  | some "always" => true
  | some "never" => false
  | _ => seen

def Level.codes : Level → List String
  | error => ["0", "1", "31"]
  | warn => ["0", "33"]
  | info => ["0", "32"]
  | debug => ["0", "34"]
  | trace => ["0", "36"]

def bracketCodes : List String := ["0", "38;5;8"]

def styledText (styles : Bool) (codes : List String) (text : List Char) : List Char :=
  if styles then codes.flatMap sequence ++ text ++ sequence "0" else text

/-- The lines of a longer message continue four columns in. -/
def indented (message : String) : List Char :=
  message.toList.flatMap fun char =>
    if char = '\n' then '\n' :: (Text.spaces 4).toList else [char]

def Remark.line (styles : Bool) (remark : Remark) : List Char :=
  styledText styles bracketCodes ['['] ++
    styledText styles remark.level.codes (Text.padRight 5 remark.level.name).toList ++
    styledText styles bracketCodes [']'] ++
    ' ' :: indented remark.message ++ ['\n']

/-- A logger that writes one log line for each remark that its filter shows. -/
abbrev Logger.console (asked? : Option String) (terminal : Bool) : Logger where
  opening _ := []
  written logging remark :=
    if remark.level.shown (thresholdNamed logging.filter) then
      remark.line (usesStyles asked? (terminal && !logging.noColor))
    else []

/-- Nothing is asked for, and no terminal is there. -/
instance : Logger := .console none false

end Classlet.Console
