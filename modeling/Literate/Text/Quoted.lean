import Literate.Text.Basic
import Literate.Unicode.GraphemeExtend
import Literate.Unicode.Unprintable

/-!
# Quoted text

How a text is written inside a message: between double quotes, with an escape for each character
that would end the quotation, break the line, or not show on the page. Lists and tables of texts are
written with their members quoted.
-/

namespace Literate.Text

/-- The lower-case hexadecimal digits of a number, without leading zeros. -/
def hex (n : Nat) : Text :=
  Nat.toDigits 16 n

/-- The code point of a character as an escape, its hexadecimal digits in braces. -/
def codePointEscape (c : Char) : Text :=
  ofString "\\u\x7b" ++ hex c.toNat ++ ofString "\x7d"

/-- A character as it stands inside quotes. -/
def quotedChar (c : Char) : Text :=
  if c = '"' then ofString "\\\""
  else if c = '\\' then ofString "\\\\"
  else if c = '\n' then ofString "\\n"
  else if c = '\r' then ofString "\\r"
  else if c = '\t' then ofString "\\t"
  else if c = '\x00' then ofString "\\0"
  else if Unicode.isGraphemeExtend c || Unicode.isUnprintable c then codePointEscape c
  else [c]

/-- A text in double quotes. -/
def quoted (t : Text) : Text :=
  ['"'] ++ t.flatMap quotedChar ++ ['"']

/-- A list of texts, each in double quotes. -/
def quotedList (texts : List Text) : Text :=
  ['['] ++ join (ofString ", ") (texts.map quoted) ++ [']']

/-- A table of texts, keys and values in double quotes. -/
def quotedTable (entries : List (Text × Text)) : Text :=
  ['\x7b'] ++ join (ofString ", ") (entries.map fun e => quoted e.1 ++ ofString ": " ++ quoted e.2)
    ++ ['\x7d']

/-- The decimal digits of a number. -/
def decimal (n : Nat) : Text :=
  Nat.toDigits 10 n

end Literate.Text
