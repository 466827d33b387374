import Classlet.Command.Batch
import Classlet.Text.Blank

/-!
# The editor

The interactive editor collects lines in a buffer.  A line that begins with a
colon, blanks apart, is an order; any other line is added to the buffer.  Before
each line the buffer is scanned, and the prompt shows whether it has an open
brace.
-/

namespace Classlet.Command

open Console (Line Transcript plain bold red greenBold yellow cyan dim)

/-! ## Orders -/

inductive Order where
  | add (line : String)
  | quit
  | help
  | check
  | tokens
  | view
  | clear
  /-- Save the buffer; an empty path is a misuse. -/
  | save (path : String)
  | unknown
  deriving DecidableEq, Repr

namespace Order

def named (name argument : String) : Order :=
  match name with
  | ":quit" | ":q" | ":exit" => quit
  | ":help" | ":h" => help
  | ":check" | ":c" => check
  | ":tokens" | ":t" => tokens
  | ":show" => view
  | ":clear" => clear
  | ":save" => save argument
  | _ => unknown

def ofLine (line : String) : Order :=
  let trimmed := Text.trim line.toList
  if trimmed.head? = some ':' then
    named (String.ofList (trimmed.takeWhile (!Text.isBlank ·)))
      (String.ofList (Text.trim (trimmed.dropWhile (!Text.isBlank ·))))
  else add line

end Order

namespace Editor

/-! ## What the editor says -/

def greeting : Transcript :=
  .say [[greenBold
    "sharpcheck interactive editor. Type :help for help, :quit to exit."]]

/--
Opening braces count one up and closing braces one down.  The count of `n` tokens is
between `-n` and `n`, so a machine integer of 32 bits holds it while `n` is below 2 ^ 31.
-/
def braceStep (depth : Int) (token : Token) : Int :=
  match token.kind with
  | .leftBrace => depth + 1
  | .rightBrace => depth - 1
  | _ => depth

def braceDepth (buffer : String) : Int :=
  (Scan.tokens buffer).foldl braceStep 0

def promptText (buffer : String) : String :=
  if braceDepth buffer > 0 then "... > " else "sharp> "

/-- The prompt, after the remarks made while the buffer is scanned. -/
def prompt (buffer : String) : Transcript :=
  scanLog buffer ++ .write [cyan (promptText buffer)]

def farewell : Transcript := .say [[plain "Goodbye."]]

def helpRow (order explanation : String) : Line :=
  [plain "  ", yellow (Text.padRight 14 order), plain explanation]

def helpText : Transcript :=
  .say [[bold "Commands:"],
    helpRow ":check" "Analyze the current input",
    helpRow ":tokens" "Show the token stream of the current input",
    helpRow ":show" "Print the current input with line numbers",
    helpRow ":clear" "Discard the current input",
    helpRow ":save <path>" "Write the current input to a file",
    helpRow ":quit" "Exit",
    [plain "Any other line is appended to the input."]]

def checkReport (buffer : String) : Transcript :=
  scanLog buffer ++ noteLog buffer ++ Report.verdict true buffer (analyzeText buffer)

def tokenReport (buffer : String) : Transcript :=
  scanLog buffer ++
    .say (Report.tokenTable (Scan.tokens buffer) ++
      (Scan.strays buffer).map fun (char, position) =>
        [yellow (Scan.strayMessage char position)])

def numberedLines (buffer : String) : List Line :=
  (Text.lines buffer).mapIdx fun index text =>
    [dim (Report.gutter (index + 1)), plain text]

def listing (buffer : String) : Transcript :=
  .say (if buffer.isEmpty then [[dim "<empty>"]] else numberedLines buffer)

/-! ## Carrying out orders -/

/-- The buffer to go on with, or none if the session is over; and what is said. -/
structure Reaction where
  buffer? : Option String
  transcript : Transcript
  deriving DecidableEq, Repr

def completed (line : String) : String :=
  if line.toList.getLast? = some '\n' then line else line ++ "\n"

variable {m : Type → Type} [Monad m] [Files.Host m]

def save (buffer path : String) : m Transcript := do
  if path.isEmpty then
    return .say [[red "Usage: :save <path>"]]
  else
    match ← Files.Host.writeFile path buffer with
    | .ok () => return .say [[plain s!"Saved input to {path}"]]
    | .error fault => return Batch.complaint s!"Failed to write {path}: {fault.message}"

def obey (buffer : String) : Order → m Reaction
  | .add line => return ⟨some (buffer ++ completed line), .empty⟩
  | .quit => return ⟨none, farewell⟩
  | .help => return ⟨some buffer, helpText⟩
  | .check => return ⟨some buffer, checkReport buffer⟩
  | .tokens => return ⟨some buffer, tokenReport buffer⟩
  | .view => return ⟨some buffer, listing buffer⟩
  | .clear => return ⟨some "", .say [[yellow "Input cleared."]]⟩
  | .save path => return ⟨some buffer, ← save buffer path⟩
  | .unknown => return ⟨some buffer, .say [[red "Unknown command. Type :help."]]⟩

def react (buffer : String) : Files.InputLine → m Reaction
  | .text line => obey buffer (.ofLine line)
  | .unreadable => return ⟨none, .say [[plain "<input error>"]]⟩

/-! ## Sessions -/

def ending : Transcript := .say [[], [plain "Goodbye."]]

def sessionFrom (buffer : String) : List Files.InputLine → m Transcript
  | [] => return prompt buffer ++ ending
  | line :: rest => do
      let reaction ← react buffer line
      match reaction.buffer? with
      | none => return prompt buffer ++ reaction.transcript
      | some next => return prompt buffer ++ reaction.transcript ++ (← sessionFrom next rest)

def session (lines : List Files.InputLine) : m Transcript := do
  return greeting ++ (← sessionFrom "" lines)

end Editor

end Classlet.Command
