import Classlet.Files.Folder

/-!
# Desks

A desk is a world held in memory: the bytes of standard input and a working
directory.  It is a host, so that a command can be run on it as a function.  What a
command says is not on the desk: of the paths that lead elsewhere to a stream of the
command, only that to its input is one here, and `/dev/stdout` would be a plain file.
-/

namespace Classlet.Files

structure Desk where
  input : ByteArray
  folder : Folder

/-- The lines of some bytes, each with its line break, after the bytes in `line`. -/
def byteLinesFrom (line : List UInt8) : List UInt8 → List (List UInt8)
  | [] => if line.isEmpty then [] else [line.reverse]
  | byte :: rest =>
      if byte = 10 then (byte :: line).reverse :: byteLinesFrom [] rest
      else byteLinesFrom (byte :: line) rest

def InputLine.ofBytes (bytes : List UInt8) : InputLine :=
  match String.fromUTF8? ⟨bytes.toArray⟩ with
  | some line => .text line
  | none => .unreadable

/-- The lines of some bytes; a line whose bytes are no text is unreadable. -/
def inputLines (bytes : ByteArray) : List InputLine :=
  (byteLinesFrom [] bytes.data.toList).map InputLine.ofBytes

namespace Desk

def inputText (desk : Desk) : Except FileFault String :=
  match String.fromUTF8? desk.input with
  | some text => .ok text
  | none => .error .notText

/-- The file through which standard input can be read as well. -/
def inputFile : List String := Folder.root ++ ["dev", "stdin"]

def read (desk : Desk) (path : String) : Except FileFault String :=
  (desk.folder.put inputFile desk.input).read path

def write (desk : Desk) (path text : String) : Except FileFault Unit × Desk :=
  match desk.folder.write path text with
  | .ok folder => (.ok (), { desk with folder := folder })
  | .error fault => (.error fault, desk)

end Desk

abbrev AtDesk := StateM Desk

instance : Host AtDesk where
  readInput := do return (← get).inputText
  readLines := do return inputLines (← get).input
  readFile path := do return (← get).read path
  writeFile path text := modifyGet fun desk => desk.write path text

end Classlet.Files
