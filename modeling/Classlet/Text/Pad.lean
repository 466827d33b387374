/-!
# Padding

Texts filled up with spaces to a least width, counted in characters.  A text
that is too long is kept whole.
-/

namespace Classlet.Text

def spaces (count : Nat) : String :=
  String.ofList (List.replicate count ' ')

def padRight (width : Nat) (text : String) : String :=
  text ++ spaces (width - text.length)

def padLeft (width : Nat) (text : String) : String :=
  spaces (width - text.length) ++ text

end Classlet.Text
