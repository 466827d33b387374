import Classlet.Files.Path

/-!
# Folders

A file system held in memory, seen from a working directory.  A place is a list
of names below the working directory; it begins with `..` for each directory
that is left upwards, or with `/` if it is counted from the root.  The
directories are a few that are always there and those on the way to a file.  Of the
special files there is none but the null device.
-/

namespace Classlet.Files

structure Folder where
  files : List (List String × ByteArray)

namespace Folder

def empty : Folder := ⟨[]⟩

/-! ## Places -/

def root : List String := ["/"]

/-- The directories besides the working directory that are always there. -/
def standing : List (List String) := [root, root ++ ["dev"], root ++ ["tmp"]]

/-- The file that is always empty and takes any content. -/
def null : List String := root ++ ["dev", "null"]

/-- The directory that holds a place; the root holds itself. -/
def parent (place : List String) : List String :=
  if place = root then root
  else if place.all (· = "..") then ".." :: place
  else place.dropLast

def content? (folder : Folder) (place : List String) : Option ByteArray :=
  if place = null then some .empty else folder.files.lookup place

def isDirectory (folder : Folder) (place : List String) : Bool :=
  place.isEmpty || standing.contains place ||
    folder.files.any fun (key, _) => place.isPrefixOf key && place != key

def put (folder : Folder) (place : List String) (content : ByteArray) : Folder :=
  if place = null then folder
  else ⟨(place, content) :: folder.files.filter fun (key, _) => key != place⟩

/-! ## Following a path -/

inductive Target where
  | file (place : List String)
  | directory (place : List String)
  /-- The directory is there, but has no such entry. -/
  | absent (place : List String)
  deriving DecidableEq, Repr

/-- What stands at a place whose directory is there. -/
def target (folder : Folder) (place : List String) : Target :=
  if (folder.content? place).isSome then .file place
  else if folder.isDirectory place then .directory place
  else .absent place

def follow (folder : Folder) : List Step → Target → Except FileFault Target
  | [], reached => .ok reached
  | _ :: _, .file _ => .error .notDirectory
  | _ :: _, .absent _ => .error .notFound
  | .stay :: steps, .directory place => follow folder steps (.directory place)
  | .up :: steps, .directory place => follow folder steps (.directory (parent place))
  | .down name :: steps, .directory place =>
      if name.utf8ByteSize > nameLimit then .error .nameTooLong
      else follow folder steps (folder.target (place ++ [name]))

def locate (folder : Folder) (path : Path) : Except FileFault Target :=
  folder.follow path.steps (.directory (if path.absolute then root else []))

/-! ## Reading and writing -/

def read (folder : Folder) (path : String) : Except FileFault String :=
  match Path.parse path with
  | .error fault => .error fault
  | .ok parsed =>
      match folder.locate parsed with
      | .error fault => .error fault
      | .ok (.directory _) => .error .isDirectory
      | .ok (.absent _) => .error .notFound
      | .ok (.file place) =>
          if parsed.trailing then .error .notDirectory
          else
            match (folder.content? place).bind String.fromUTF8? with
            | some text => .ok text
            | none => .error .notText

/--
Make the content of a file a given text.  A path that ends in a slash names no
file, so only the directory it leads through is looked at.
-/
def write (folder : Folder) (path text : String) : Except FileFault Folder :=
  match Path.parse path with
  | .error fault => .error fault
  | .ok parsed =>
      match folder.locate (if parsed.trailing then parsed.enclosing else parsed) with
      | .error fault => .error fault
      | .ok (.directory _) => .error .isDirectory
      | .ok (.absent place) | .ok (.file place) => .ok (folder.put place text.toUTF8)

end Folder

end Classlet.Files
