import Literate.Text.Basic

/-!
# Lexical elements of TOML

Blanks and comments, keys, strings and the words for numbers, truth values and dates. Each reader
takes the text from where its element begins and gives what it read and the rest.
-/

namespace Literate.Toml

/-! ### Blanks, comments and ends of lines -/

/-- A space or a tab. -/
def isBlankChar (c : Char) : Bool :=
  c = ' ' || c = '\t'

/-- Without the spaces and tabs it begins with. -/
def skipBlanks (t : Text) : Text :=
  t.dropWhile isBlankChar

/-- A character that may stand in a comment or in a string: no control character but the tab. -/
def isShown (c : Char) : Bool :=
  (0x20 ≤ c.toNat || c = '\t') && c.toNat != 0x7f

/-- What follows the end of the line, after blanks and a comment; a CR stands only before an LF. -/
def endLine (inComment : Bool) : Text → Option Text
  | [] => some []
  | '\n' :: t => some t
  | '\r' :: '\n' :: t => some t
  | c :: t =>
    if inComment then
      if isShown c then endLine true t else none
    else if isBlankChar c then
      endLine false t
    else if c = '#' then
      endLine true t
    else
      none

/-- What follows blanks, comments and ends of lines. -/
def skipSpace (inComment : Bool) : Text → Option Text
  | [] => some []
  | '\n' :: t => skipSpace false t
  | '\r' :: '\n' :: t => skipSpace false t
  | c :: t =>
    if inComment then
      if isShown c then skipSpace true t else none
    else if isBlankChar c then
      skipSpace false t
    else if c = '#' then
      skipSpace true t
    else
      some (c :: t)

/-! ### Strings -/

/-- The value of a hexadecimal digit. -/
def hexDigit? (c : Char) : Option Nat :=
  if c.isDigit then some (c.toNat - '0'.toNat)
  else if 'a' ≤ c ∧ c ≤ 'f' then some (c.toNat - 'a'.toNat + 10)
  else if 'A' ≤ c ∧ c ≤ 'F' then some (c.toNat - 'A'.toNat + 10)
  else none

/-- The number with the given hexadecimal digits. -/
def hexNumber? (digits : Text) : Option Nat :=
  digits.foldl (fun n d => do return 16 * (← n) + (← hexDigit? d)) (some 0)

/-- The character whose code point has the given hexadecimal digits. -/
def codePoint? (digits : Text) : Option Char := do
  let n ← hexNumber? digits
  if n.isValidChar then some (Char.ofNat n) else none

/-- The character that a backslash and a letter stand for. -/
def escape? (c : Char) : Option Char :=
  if c = 'b' then some '\x08'
  else if c = 't' then some '\t'
  else if c = 'n' then some '\n'
  else if c = 'f' then some '\x0c'
  else if c = 'r' then some '\r'
  else if c = 'e' then some '\x1b'
  else if c = '"' then some '"'
  else if c = '\\' then some '\\'
  else none

/-- A character in front of a string that was read. -/
def consRead (c : Option Char) (read : Option (Text × Text)) : Option (Text × Text) :=
  match c, read with
  | some c, some (s, rest) => some (c :: s, rest)
  | _, _ => none

/-- A string after its opening double quote. -/
def basicString : Text → Option (Text × Text)
  | [] => none
  | '"' :: t => some ([], t)
  | '\\' :: 'x' :: a :: b :: t => consRead (codePoint? [a, b]) (basicString t)
  | '\\' :: 'u' :: a :: b :: c :: d :: t => consRead (codePoint? [a, b, c, d]) (basicString t)
  | '\\' :: 'U' :: a :: b :: c :: d :: e :: f :: g :: h :: t =>
    consRead (codePoint? [a, b, c, d, e, f, g, h]) (basicString t)
  | '\\' :: e :: t => consRead (escape? e) (basicString t)
  | c :: t => consRead (if isShown c ∧ c ≠ '\\' then some c else none) (basicString t)

/-- A string after its opening single quote. -/
def literalString : Text → Option (Text × Text)
  | [] => none
  | '\'' :: t => some ([], t)
  | c :: t => consRead (if isShown c then some c else none) (literalString t)

/-- Whether nothing but blanks is left of the line, and it does not end the text. -/
def isBlankRest (t : Text) : Bool :=
  match skipBlanks t with
  | '\n' :: _ => true
  | '\r' :: '\n' :: _ => true
  | _ => false

/-- Whether a line may end here: at an LF, or at a CR before one. -/
def isLineBreak (c : Char) (t : Text) : Bool :=
  c = '\n' || (c = '\r' && t.head? = some '\n')

/-- A string after its three opening double quotes and the line break after them. After a backslash
at the end of a line, all blanks and line breaks are passed over. -/
def longBasicString (passing : Bool) : Text → Option (Text × Text)
  | [] => none
  | '"' :: '"' :: '"' :: '"' :: '"' :: t => some (['"', '"'], t)
  | '"' :: '"' :: '"' :: '"' :: t => some (['"'], t)
  | '"' :: '"' :: '"' :: t => some ([], t)
  | '\\' :: 'x' :: a :: b :: t => consRead (codePoint? [a, b]) (longBasicString false t)
  | '\\' :: 'u' :: a :: b :: c :: d :: t =>
    consRead (codePoint? [a, b, c, d]) (longBasicString false t)
  | '\\' :: 'U' :: a :: b :: c :: d :: e :: f :: g :: h :: t =>
    consRead (codePoint? [a, b, c, d, e, f, g, h]) (longBasicString false t)
  | '\\' :: e :: t =>
    if isBlankRest (e :: t) then
      longBasicString true t
    else
      consRead (escape? e) (longBasicString false t)
  | c :: t =>
    if passing && (isBlankChar c || isLineBreak c t) then
      longBasicString true t
    else
      consRead (if (isShown c ∧ c ≠ '\\') ∨ isLineBreak c t then some c else none)
        (longBasicString false t)

/-- A string after its three opening single quotes and the line break after them. -/
def longLiteralString : Text → Option (Text × Text)
  | [] => none
  | '\'' :: '\'' :: '\'' :: '\'' :: '\'' :: t => some (['\'', '\''], t)
  | '\'' :: '\'' :: '\'' :: '\'' :: t => some (['\''], t)
  | '\'' :: '\'' :: '\'' :: t => some ([], t)
  | c :: t =>
    consRead (if isShown c ∨ isLineBreak c t then some c else none) (longLiteralString t)

/-- Without the line break it begins with. -/
def skipLineBreak (t : Text) : Text :=
  match t with
  | '\n' :: rest => rest
  | '\r' :: '\n' :: rest => rest
  | _ => t

/-- A string of any of the four kinds. -/
def string? (t : Text) : Option (Text × Text) :=
  match t with
  | '"' :: '"' :: '"' :: rest => longBasicString false (skipLineBreak rest)
  | '\'' :: '\'' :: '\'' :: rest => longLiteralString (skipLineBreak rest)
  | '"' :: rest => basicString rest
  | '\'' :: rest => literalString rest
  | _ => none

/-! ### Keys -/

/-- A character of a key without quotes. -/
def isBareChar (c : Char) : Bool :=
  c.isAlphanum || c = '-' || c = '_'

/-- A key: bare, or a string on one line. -/
def key? (t : Text) : Option (Text × Text) :=
  match t with
  | '"' :: rest => basicString rest
  | '\'' :: rest => literalString rest
  | _ =>
    match t.takeWhile isBareChar with
    | [] => none
    | key => some (key, t.dropWhile isBareChar)

/-- Keys with dots between them; at most `count` of them. -/
def keyPath : (count : Nat) → Text → Option (List Text × Text)
  | 0, _ => none
  | count + 1, t => do
    let (key, rest) ← key? t
    match skipBlanks rest with
    | '.' :: more =>
      let (keys, rest) ← keyPath count (skipBlanks more)
      return (key :: keys, rest)
    | rest => return ([key], rest)

/-- A dotted key. -/
def keyPath? (t : Text) : Option (List Text × Text) :=
  keyPath (t.length + 1) t

end Literate.Toml
