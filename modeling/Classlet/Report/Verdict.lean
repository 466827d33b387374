import Classlet.Console.Transcript
import Classlet.Fault
import Classlet.Report.Advice
import Classlet.Report.Snippet
import Classlet.Scope.Table

/-!
# Verdicts

How the result of an analysis is shown to a reader: a success with the global
bindings, or a failure with its place, its source line and some advice.
-/

namespace Classlet.Report

open Console (Line Transcript plain red redBold greenBold yellow dim)

def symbolLines (globals : Scope.Table) : List Line :=
  if globals.isEmpty then [[dim "<no global symbols>"]]
  else globals.entries.map fun (name, ty) => [yellow name, plain s!": {ty.name}"]

def failureLines (source : String) (failure : Failure) : List Line :=
  [[redBold failure.kind.label, plain ": ", red failure.message],
    [plain s!"  --> line {failure.position.line}, column {failure.position.column}"]] ++
    snippet source failure.position ++ advice failure

def verdict (symbols : Bool) (source : String) :
    Except Fault Scope.Table → Transcript
  | .ok globals =>
      .say ([greenBold "Analysis completed successfully"] ::
        if symbols then symbolLines globals else [])
  | .error fault => .complain (failureLines source fault.failure)

end Classlet.Report
