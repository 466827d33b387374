import Classlet.Command.Editor

/-!
# The program

The arguments and the environment decide what is done and how the console looks;
the rest is a batch run or a session with the editor.
-/

namespace Classlet.Command

open Console (Logger Logging Settings)

/-- What the program looks at besides its arguments; its logger may look at more. -/
structure Environment where
  /-- All programs are asked to leave out colors. -/
  noColor : Bool
  /-- The filter for remarks that is asked for in place of the usual one. -/
  filter? : Option String
  /-- A person types the standard input. -/
  terminal : Bool
  deriving DecidableEq, Repr

/-! ## Fixed texts -/

def helpText : String :=
  "Tokenize and type-check programs written in a small C#-like language\n" ++
  "\n" ++
  "Usage: sharpcheck [OPTIONS] [FILE]\n" ++
  "\n" ++
  "Arguments:\n" ++
  "  [FILE]  Source file to analyze. Reads standard input when omitted or `-`\n" ++
  "\n" ++
  "Options:\n" ++
  "  -t, --tokens           Print the token stream (lexeme, kind, line)\n" ++
  "  -f, --format <FORMAT>  Output format for tokens, symbols and the analysis result " ++
    "[default: table] [possible values: table, json]\n" ++
  "  -s, --symbols          Print the global symbol table after a successful analysis\n" ++
  "      --save <PATH>      Write the input text to this file before analyzing it\n" ++
  "      --no-color         Disable colored output (also honored: NO_COLOR)\n" ++
  "  -v, --verbose...       Increase log verbosity (-v debug, -vv trace); " ++
    "RUST_LOG overrides\n" ++
  "  -i, --interactive      Start the interactive editor instead of analyzing a file\n" ++
  "  -h, --help             Print help\n" ++
  "  -V, --version          Print version\n"

def versionText : String := "sharpcheck 0.1.0\n"

def usageError (reason : String) : String :=
  s!"error: {reason}\n\nUsage: sharpcheck [OPTIONS] [FILE]\n\n" ++
  "For more information, try '--help'.\n"

/-! ## Settings -/

/-- The filter for remarks where none is asked for. -/
def usualFilter : (verbosity : Nat) → String
  | 0 => "warn"
  | 1 => "debug"
  | _ => "trace"

def logging (environment : Environment) (options : Options) : Logging where
  filter := environment.filter?.getD (usualFilter options.verbosity)
  noColor := environment.noColor

def settings (environment : Environment) (options : Options) : Settings where
  color := !options.noColor && !environment.noColor
  logging := logging environment options

/-! ## Plans -/

inductive Plan where
  /-- Write fixed texts and end. -/
  | answer (code : Nat) (stdout stderr : String)
  | batch (settings : Settings) (options : Options)
  | edit (settings : Settings)
  deriving DecidableEq, Repr

/-- What the options ask for; how they were written as arguments has no part in it. -/
def Options.plan (environment : Environment) (options : Options) : Plan :=
  if options.interactive || (options.file?.isNone && environment.terminal) then
    .edit (settings environment options)
  else .batch (settings environment options) options

def plan (environment : Environment) (arguments : List String) : Plan :=
  match Request.ofArguments arguments with
  | .help => .answer 0 helpText ""
  | .version => .answer 0 versionText ""
  | .refuse reason => .answer 2 "" (usageError reason)
  | .run options => options.plan environment

structure Answer where
  code : Nat
  stdout : String
  stderr : String
  deriving DecidableEq, Repr

variable [Logger]

/-- The logger is set up first: what it says of its filter stands ahead of all else. -/
def Result.render (settings : Settings) (result : Result) : Answer where
  code := result.code
  stdout := result.transcript.stdout settings
  stderr :=
    String.ofList (Logger.opening settings.logging) ++ result.transcript.stderr settings

variable {m : Type → Type} [Monad m] [Files.Host m]

def Plan.carryOut : Plan → m Answer
  | answer code stdout stderr => return ⟨code, stdout, stderr⟩
  | batch settings options => return (← Batch.run options).render settings
  | edit settings => do
      let transcript ← Editor.session (← Files.Host.readLines)
      return Result.render settings ⟨0, transcript⟩

def run (environment : Environment) (arguments : List String) : m Answer :=
  (plan environment arguments).carryOut

end Classlet.Command
