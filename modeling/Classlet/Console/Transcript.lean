import Classlet.Console.Logger

/-!
# Transcripts

What a run writes: styled text to standard output, styled text and remarks to
standard error.  The settings of the console decide only how a transcript is
rendered.
-/

namespace Classlet.Console

inductive Notice where
  | span (span : Span)
  | remark (remark : Remark)
  deriving DecidableEq, Repr

structure Transcript where
  out : List Span
  err : List Notice
  deriving DecidableEq, Repr

namespace Transcript

def empty : Transcript := ⟨[], []⟩

def append (first second : Transcript) : Transcript :=
  ⟨first.out ++ second.out, first.err ++ second.err⟩

instance : Append Transcript := ⟨append⟩

def write (spans : List Span) : Transcript := ⟨spans, []⟩

def say (lines : List Line) : Transcript := ⟨spansOf lines, []⟩

def complain (lines : List Line) : Transcript := ⟨[], (spansOf lines).map .span⟩

def log (remarks : List Remark) : Transcript := ⟨[], remarks.map .remark⟩

end Transcript

structure Settings where
  /-- Spans have their styles.  The log lines are not in the program's hands. -/
  color : Bool
  logging : Logging
  deriving DecidableEq, Repr

def Transcript.stdout (settings : Settings) (transcript : Transcript) : String :=
  render settings.color transcript.out

section Errors

variable [Logger]

def Notice.render (settings : Settings) : Notice → List Char
  | span text => text.render settings.color
  | remark told => Logger.written settings.logging told

def Transcript.stderr (settings : Settings) (transcript : Transcript) : String :=
  String.ofList (transcript.err.flatMap (Notice.render settings))

end Errors

end Classlet.Console
