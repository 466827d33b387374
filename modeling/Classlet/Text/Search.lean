/-!
# Search

Whether one text occurs inside another.
-/

namespace Classlet.Text

def occursIn (needle : List Char) : List Char → Bool
  | [] => needle.isEmpty
  | char :: rest => needle.isPrefixOf (char :: rest) || occursIn needle rest

def occurs (needle text : String) : Bool :=
  occursIn needle.toList text.toList

end Classlet.Text
