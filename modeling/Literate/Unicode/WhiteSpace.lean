import Literate.Unicode.Ranges

/-!
# White space

The property White_Space, which decides where a line is blank, where words end and what trimming
takes away. The zero-width space U+200B, the byte order mark U+FEFF and the separators
U+001C to U+001F do not have it.
-/

namespace Literate.Unicode

/-- The code points with the property White_Space. -/
def whiteSpaceRanges : Ranges :=
  [
    (0x9, 0xd), (0x20, 0x20), (0x85, 0x85), (0xa0, 0xa0), (0x1680, 0x1680), (0x2000, 0x200a),
    (0x2028, 0x2029), (0x202f, 0x202f), (0x205f, 0x205f), (0x3000, 0x3000)
  ]

/-- Whether a character is white space. -/
def isWhiteSpace (c : Char) : Bool :=
  whiteSpaceRanges.contains c

end Literate.Unicode
