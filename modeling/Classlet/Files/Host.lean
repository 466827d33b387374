/-!
# Hosts

What a command needs from the world around it: the bytes of standard input, and
files that can be read and written as texts.  A host answers each request with
a text or with the reason why there is none.
-/

namespace Classlet.Files

inductive FileFault where
  | notFound
  | notDirectory
  | isDirectory
  | nameTooLong
  | zeroInPath
  | notText
  | other (description : String)
  deriving DecidableEq, Repr

def FileFault.message : FileFault → String
  | notFound => "No such file or directory (os error 2)"
  | notDirectory => "Not a directory (os error 20)"
  | isDirectory => "Is a directory (os error 21)"
  | nameTooLong => "File name too long (os error 36)"
  | zeroInPath => "file name contained an unexpected NUL byte"
  | notText => "stream did not contain valid UTF-8"
  | other description => description

inductive InputLine where
  /-- A line with its line break, which only the last line may lack. -/
  | text (line : String)
  | unreadable
  deriving DecidableEq, Repr

class Host (m : Type → Type) where
  readInput : m (Except FileFault String)
  readLines : m (List InputLine)
  readFile : String → m (Except FileFault String)
  writeFile : String → String → m (Except FileFault Unit)

end Classlet.Files
