import Classlet.Text.CodeRange

/-!
# Blanks

The characters that separate tokens and that trimming removes: those with the
property White_Space.  The information separators U+001C to U+001F, U+180E,
U+200B and U+FEFF are not among them.
-/

namespace Classlet.Text

def blankRanges : List CodeRange :=
  [⟨0x9, 0xD⟩, ⟨0x20, 0x20⟩, ⟨0x85, 0x85⟩, ⟨0xA0, 0xA0⟩, ⟨0x1680, 0x1680⟩,
    ⟨0x2000, 0x200A⟩, ⟨0x2028, 0x2029⟩, ⟨0x202F, 0x202F⟩, ⟨0x205F, 0x205F⟩,
    ⟨0x3000, 0x3000⟩]

def isBlank (char : Char) : Bool :=
  within blankRanges char

def trimLeft (chars : List Char) : List Char :=
  chars.dropWhile isBlank

def trim (chars : List Char) : List Char :=
  (trimLeft (trimLeft chars).reverse).reverse

end Classlet.Text
