import Classlet.Command.Options
import Classlet.Console.Transcript
import Classlet.Files.Path
import Classlet.Json.Pretty
import Classlet.Report.Document
import Classlet.Report.TokenTable
import Classlet.Report.Verdict

/-!
# Batch runs

A batch run reads one text, saves it if asked to, analyzes it and reports.  Its
exit code is 0 for a correct program, 1 for a faulty one, and 2 if a file could
not be read or written.
-/

namespace Classlet.Command

open Console (Transcript plain red redBold)

structure Result where
  code : Nat
  transcript : Transcript
  deriving DecidableEq, Repr

def scanLog (source : String) : Transcript :=
  .log ((Scan.items source).map .ofItem)

def noteLog (source : String) : Transcript :=
  .log ((Analysis.notes (Scan.tokens source)).map .noted)

def analyzeText (source : String) : Except Fault Scope.Table :=
  Analysis.analyze (Scan.tokens source)

namespace Batch

/-! ## Reporting -/

def complaint (message : String) : Transcript :=
  .complain [[redBold "error", plain ": ", red message]]

def jsonReport (options : Options) (source : String) : Transcript :=
  .say [[plain (Report.document options.tokens options.symbols (Scan.items source)
    (analyzeText source)).pretty]]

def tableReport (options : Options) (source : String) : Transcript :=
  (if options.tokens then .say (Report.tokenTable (Scan.tokens source) ++ [[]])
    else .empty) ++
    Report.verdict options.symbols source (analyzeText source)

def shown (options : Options) (source : String) : Transcript :=
  match options.format with
  | .table => tableReport options source
  | .json => jsonReport options source

def countLog (source : String) : Transcript :=
  .log [.counted (Scan.tokens source).length (Scan.strays source).length]

def report (options : Options) (source : String) : Result :=
  ⟨if (analyzeText source).isOk then 0 else 1,
    scanLog source ++ countLog source ++ noteLog source ++ shown options source⟩

/-! ## Reading and saving -/

def savedNotice (options : Options) (path source : String) : Transcript :=
  .log [.saved source.utf8ByteSize path] ++
    match options.format with
    | .table => .say [[plain s!"Saved input to {path}"]]
    | .json => .empty

def sourceName (file? : Option String) : String :=
  file?.getD "standard input"

def readFailure (file? : Option String) (fault : Files.FileFault) : Result :=
  ⟨2, complaint s!"Failed to read {sourceName file?}: {fault.message}"⟩

def writeFailure (path : String) (fault : Files.FileFault) : Result :=
  ⟨2, complaint s!"Failed to write {path}: {fault.message}"⟩

variable {m : Type → Type} [Monad m] [Files.Host m]

/-- The text to analyze; without a path it is standard input. -/
def readSource (file? : Option String) : m (Except Files.FileFault String) :=
  match file? with
  | none => Files.Host.readInput
  | some path => if Files.isInput path then Files.Host.readInput else Files.Host.readFile path

def run (options : Options) : m Result := do
  match ← readSource options.file? with
  | .error fault => return readFailure options.file? fault
  | .ok source =>
      match options.save? with
      | none => return report options source
      | some path =>
          match ← Files.Host.writeFile path source with
          | .error fault => return writeFailure path fault
          | .ok () =>
              let reported := report options source
              return ⟨reported.code, savedNotice options path source ++ reported.transcript⟩

end Batch

end Classlet.Command
