/-!
# Options

The arguments of the command.  They are read from left to right; a request for
help or for the version ends the reading at once, and so does the first argument
that cannot be understood.
-/

namespace Classlet.Command

inductive Format where
  | table
  | json
  deriving DecidableEq, Repr

structure Options where
  file? : Option String
  tokens : Bool
  format? : Option Format
  symbols : Bool
  save? : Option String
  noColor : Bool
  /-- How often more remarks have been asked for. -/
  verbosity : Nat
  interactive : Bool
  deriving DecidableEq, Repr

namespace Options

def default : Options :=
  { file? := none, tokens := false, format? := none, symbols := false, save? := none,
    noColor := false, verbosity := 0, interactive := false }

def format (options : Options) : Format := options.format?.getD .table

end Options

inductive Request where
  | help
  | version
  | refuse (reason : String)
  | run (options : Options)
  deriving DecidableEq, Repr

/-! ## Single options -/

inductive Valued where
  | format
  | save
  deriving DecidableEq, Repr

inductive Switch where
  | tokens
  | symbols
  | noColor
  | verbose
  | interactive
  | help
  | version
  deriving DecidableEq, Repr

inductive Flag where
  | valued (option : Valued)
  | switch (option : Switch)
  deriving DecidableEq, Repr

def Flag.ofLong? : String → Option Flag
  | "tokens" => some (switch .tokens)
  | "format" => some (valued .format)
  | "symbols" => some (switch .symbols)
  | "save" => some (valued .save)
  | "no-color" => some (switch .noColor)
  | "verbose" => some (switch .verbose)
  | "interactive" => some (switch .interactive)
  | "help" => some (switch .help)
  | "version" => some (switch .version)
  | _ => none

def Flag.ofShort? : Char → Option Flag
  | 't' => some (switch .tokens)
  | 'f' => some (valued .format)
  | 's' => some (switch .symbols)
  | 'v' => some (switch .verbose)
  | 'i' => some (switch .interactive)
  | 'h' => some (switch .help)
  | 'V' => some (switch .version)
  | _ => none

def repeated (name : String) : Request :=
  .refuse s!"the argument '{name}' cannot be used multiple times"

def unexpected (argument : String) : Request :=
  .refuse s!"unexpected argument '{argument}' found"

def missing (name : String) : Request :=
  .refuse s!"a value is required for '{name}' but none was supplied"

/-- The options once a switch is set, or what ends the reading. -/
def Switch.set (options : Options) : Switch → Except Request Options
  | tokens =>
      if options.tokens then .error (repeated "--tokens")
      else .ok { options with tokens := true }
  | symbols =>
      if options.symbols then .error (repeated "--symbols")
      else .ok { options with symbols := true }
  | noColor =>
      if options.noColor then .error (repeated "--no-color")
      else .ok { options with noColor := true }
  | interactive =>
      if options.interactive then .error (repeated "--interactive")
      else .ok { options with interactive := true }
  | verbose => .ok { options with verbosity := options.verbosity + 1 }
  | help => .error .help
  | version => .error .version

def Valued.name : Valued → String
  | format => "--format <FORMAT>"
  | save => "--save <PATH>"

def Valued.set (options : Options) (value : String) : Valued → Except Request Options
  | format =>
      if options.format?.isSome then .error (repeated (name format))
      else
        match value with
        | "table" => .ok { options with format? := some .table }
        | "json" => .ok { options with format? := some .json }
        | _ => .error (.refuse s!"invalid value '{value}' for '{name format}'")
  | save =>
      if options.save?.isSome then .error (repeated (name save))
      else if value.isEmpty then .error (missing (name save))
      else .ok { options with save? := some value }

def setFile (options : Options) (argument : String) : Except Request Options :=
  if options.file?.isSome then .error (unexpected argument)
  else if argument.isEmpty then .error (missing "[FILE]")
  else .ok { options with file? := some argument }

/-! ## Single arguments -/

/-- What an argument is, apart from those that follow it. -/
inductive Argument where
  /-- The end of the options. -/
  | divider
  | operand
  | long (name : String) (value? : Option String)
  | group (letters : List Char)
  deriving DecidableEq, Repr

def Argument.ofText (text : String) : Argument :=
  match text.toList with
  | ['-', '-'] => divider
  | '-' :: '-' :: rest =>
      long (String.ofList (rest.takeWhile (· ≠ '=')))
        (match rest.dropWhile (· ≠ '=') with
        | [] => none
        | _ :: value => some (String.ofList value))
  | '-' :: letter :: rest => group (letter :: rest)
  | _ => operand

def Argument.isValue (text : String) : Bool :=
  Argument.ofText text = .operand

/-- The options after an argument, and the option that still lacks its value. -/
abbrev Read := Except Request (Options × Option Valued)

/-- A value attached to its letter; one equals sign may stand between. -/
def attached : List Char → List Char
  | '=' :: value => value
  | value => value

def readGroup (options : Options) : List Char → Read
  | [] => .ok (options, none)
  | letter :: rest =>
      match Flag.ofShort? letter with
      | none => .error (unexpected (String.ofList ['-', letter]))
      | some (.switch option) =>
          match option.set options with
          | .ok next => readGroup next rest
          | .error request => .error request
      | some (.valued option) =>
          if rest.isEmpty then .ok (options, some option)
          else
            match option.set options (String.ofList (attached rest)) with
            | .ok next => .ok (next, none)
            | .error request => .error request

def readLong (options : Options) (name : String) (value? : Option String) : Read :=
  match Flag.ofLong? name, value? with
  | none, _ => .error (unexpected s!"--{name}")
  | some (.switch option), none =>
      match option.set options with
      | .ok next => .ok (next, none)
      | .error request => .error request
  | some (.switch _), some value =>
      .error (.refuse s!"unexpected value '{value}' for '--{name}' found")
  | some (.valued option), none => .ok (options, some option)
  | some (.valued option), some value =>
      match option.set options value with
      | .ok next => .ok (next, none)
      | .error request => .error request

/-! ## Argument lists -/

def readOperands : Options → List String → Request
  | options, [] => .run options
  | options, argument :: rest =>
      match setFile options argument with
      | .ok next => readOperands next rest
      | .error request => request

/-- Read arguments, the first of which may be the value of `pending?`. -/
def readFrom : Options → (pending? : Option Valued) → List String → Request
  | options, none, [] => .run options
  | _, some option, [] => missing option.name
  | options, some option, argument :: rest =>
      if Argument.isValue argument then
        match option.set options argument with
        | .ok next => readFrom next none rest
        | .error request => request
      else missing option.name
  | options, none, argument :: rest =>
      match Argument.ofText argument with
      | .divider => readOperands options rest
      | .operand =>
          match setFile options argument with
          | .ok next => readFrom next none rest
          | .error request => request
      | .group letters =>
          match readGroup options letters with
          | .ok (next, pending?) => readFrom next pending? rest
          | .error request => request
      | .long name value? =>
          match readLong options name value? with
          | .ok (next, pending?) => readFrom next pending? rest
          | .error request => request

def Request.ofArguments (arguments : List String) : Request :=
  readFrom .default none arguments

end Classlet.Command
