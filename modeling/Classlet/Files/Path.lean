import Classlet.Files.Host

/-!
# Paths

A path is a list of steps separated by slashes.  An empty piece or a single
point stays where it is, two points lead to the enclosing directory, and any
other piece is a name.  Slashes at the end ask for a directory.
-/

namespace Classlet.Files

def splitSlash : List Char → List (List Char)
  | [] => [[]]
  | char :: rest =>
      if char = '/' then [] :: splitSlash rest
      else
        match splitSlash rest with
        | [] => [[char]]
        | piece :: pieces => (char :: piece) :: pieces

inductive Step where
  | stay
  | up
  | down (name : String)
  deriving DecidableEq, Repr

def Step.ofPiece (piece : List Char) : Step :=
  if piece = [] ∨ piece = ['.'] then stay
  else if piece = ['.', '.'] then up
  else down (String.ofList piece)

def stepsOf (text : List Char) : List Step := (splitSlash text).map Step.ofPiece

structure Path where
  /-- The path begins with a slash. -/
  absolute : Bool
  steps : List Step
  /-- The path ends in a slash. -/
  trailing : Bool
  deriving DecidableEq, Repr

/-- The longest name, in bytes. -/
def nameLimit : Nat := 255

/-- The longest path, in bytes. -/
def pathLimit : Nat := 4095

def dropSlashes (text : List Char) : List Char :=
  (text.reverse.dropWhile (· = '/')).reverse

def Path.parse (text : String) : Except FileFault Path :=
  let chars := text.toList
  if '\x00' ∈ chars then .error .zeroInPath
  else if chars.isEmpty then .error .notFound
  else if text.utf8ByteSize > pathLimit then .error .nameTooLong
  else
    .ok ⟨chars.head? = some '/', stepsOf (dropSlashes chars), chars.getLast? = some '/'⟩

/-- The path to the directory in which the last step of a path is taken. -/
def Path.enclosing (path : Path) : Path :=
  { path with steps := path.steps.dropLast ++ [.stay] }

/--
A path stands for standard input if its first step is to a single dash and all
others stay there.
-/
def isInput (path : String) : Bool :=
  match stepsOf path.toList with
  | .down "-" :: rest => rest.all (· = .stay)
  | _ => false

end Classlet.Files
