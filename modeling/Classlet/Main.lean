import Classlet.Command.Program

/-!
# The command line

The outer layer: standard input, standard output and real files as a host, and
the loop of an interactive session.
-/

namespace Classlet.CommandLine

open Files (FileFault Host InputLine)

/-! ## Files -/

/-- The number of an operating system error, which some calls report negated. -/
def errorNumber (code : UInt32) : Nat :=
  if code.toNat < 0x80000000 then code.toNat else 0x100000000 - code.toNat

def faultNumbered (code : UInt32) (details : String) : FileFault :=
  match errorNumber code with
  | 2 => .notFound
  | 20 => .notDirectory
  | 21 => .isDirectory
  | 36 => .nameTooLong
  | number => .other s!"{details} (os error {number})"

def faultOf : IO.Error → FileFault
  | .noFileOrDirectory _ code details => faultNumbered code details
  | .inappropriateType _ code details => faultNumbered code details
  | .invalidArgument _ code details => faultNumbered code details
  | .permissionDenied _ code details => faultNumbered code details
  | .resourceExhausted _ code details => faultNumbered code details
  | .otherError code details => faultNumbered code details
  | error => .other (toString error)

def attempt {α : Type} (action : IO α) : IO (Except FileFault α) := do
  try
    return .ok (← action)
  catch error =>
    return .error (faultOf error)

def textOf (bytes : ByteArray) : Except FileFault String :=
  match String.fromUTF8? bytes with
  | some text => .ok text
  | none => .error .notText

/-! ## Standard input -/

/-- The bytes up to the end of the input, after those in `front`. -/
partial def readRest (stream : IO.FS.Stream) (front : ByteArray) : IO ByteArray := do
  let chunk ← stream.read 65536
  if chunk.isEmpty then return front
  else readRest stream (front ++ chunk)

/-- The bytes up to the end of the line, after those in `front`. -/
partial def readLine (stream : IO.FS.Stream) (front : ByteArray) : IO ByteArray := do
  let byte ← stream.read 1
  if byte.isEmpty then return front
  else if byte.get! 0 = 10 then return front ++ byte
  else readLine stream (front ++ byte)

def nextLine? : IO (Option InputLine) := do
  let bytes ← readLine (← IO.getStdin) .empty
  if bytes.isEmpty then return none
  else
    match String.fromUTF8? bytes with
    | some line => return some (.text line)
    | none => return some .unreadable

partial def allLines : IO (List InputLine) := do
  match ← nextLine? with
  | none => return []
  | some line => return line :: (← allLines)

instance : Host IO where
  readInput := do
    let bytes ← attempt (do readRest (← IO.getStdin) .empty)
    return bytes.bind textOf
  readLines := allLines
  readFile path := do
    let bytes ← attempt (IO.FS.readBinFile path)
    return bytes.bind textOf
  writeFile path text := attempt (IO.FS.writeBinFile path text.toUTF8)

/-! ## Output -/

def emit (stdout stderr : String) : IO Unit := do
  let errors ← IO.getStderr
  errors.putStr stderr
  errors.flush
  let output ← IO.getStdout
  output.putStr stdout
  output.flush

def emitTranscript [Console.Logger] (settings : Console.Settings)
    (transcript : Console.Transcript) : IO Unit :=
  emit (transcript.stdout settings) (transcript.stderr settings)

/-! ## Sessions -/

partial def edit [Console.Logger] (settings : Console.Settings) (buffer : String) :
    IO Unit := do
  emitTranscript settings (Command.Editor.prompt buffer)
  match ← nextLine? with
  | none => emitTranscript settings Command.Editor.ending
  | some line =>
      let reaction ← Command.Editor.react buffer line
      emitTranscript settings reaction.transcript
      match reaction.buffer? with
      | none => return
      | some next => edit settings next

/-! ## Logging -/

/-- Standard error is a terminal of which it is known that it can show styles. -/
def showsStyles : IO Bool := do
  let terminal ← (← IO.getStderr).isTty
  return terminal && (← IO.getEnv "TERM").any (· ≠ "dumb")

def logger : IO Console.Logger := do
  return .console (← IO.getEnv "RUST_LOG_STYLE") (← showsStyles)

end Classlet.CommandLine

open Classlet in
def main (arguments : List String) : IO UInt32 := do
  let environment : Command.Environment :=
    ⟨(← IO.getEnv "NO_COLOR").isSome, ← IO.getEnv "RUST_LOG", ← (← IO.getStdin).isTty⟩
  let logger : Console.Logger ← CommandLine.logger
  match Command.plan environment arguments with
  | .edit settings =>
      CommandLine.emit "" (String.ofList (logger.opening settings.logging))
      CommandLine.emitTranscript settings Command.Editor.greeting
      CommandLine.edit settings ""
      return 0
  | plan =>
      let answer ← plan.carryOut
      CommandLine.emit answer.stdout answer.stderr
      return UInt32.ofNat answer.code
