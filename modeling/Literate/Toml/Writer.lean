import Literate.Text.Quoted

/-!
# Writing TOML

How keys, strings, arrays and tables are written. A string is written in the first of these forms
that can hold it: in double quotes without escapes, in single quotes, in three double quotes without
escapes, in three single quotes, and last with escapes.
-/

namespace Literate.Toml

/-- The length of the longest run of a character. -/
def longestRun (c : Char) (t : Text) : Nat :=
  (t.foldl (fun (run, longest) d =>
    if d = c then (run + 1, max longest (run + 1)) else (0, longest)) (0, 0)).2

/-- A control character that has to be escaped; tab and LF are not among them. -/
def isControl (c : Char) : Bool :=
  (c.toNat < 0x20 && c ≠ '\t' && c ≠ '\n') || c.toNat = 0x7f

/-- The escape for a control character. -/
def controlEscape (c : Char) : Text :=
  if c = '\x08' then ['\\', 'b']
  else if c = '\x0c' then ['\\', 'f']
  else if c = '\r' then ['\\', 'r']
  else
    let digits := (Text.hex c.toNat).map Char.toUpper
    ['\\', 'u'] ++ List.replicate (4 - digits.length) '0' ++ digits

/-- A text as it stands in double quotes. In the long form an LF stands for itself, and so do up to
two double quotes in a row; `quotes` counts those just before. One with a backslash begins a new
row. -/
def escaped (long : Bool) (quotes : Nat) : Text → Text
  | [] => []
  | c :: t =>
    if c = '"' then
      if long && quotes < 2 then
        c :: escaped long (quotes + 1) t
      else
        '\\' :: '"' :: escaped long 0 t
    else
      let shown :=
        if c = '\\' then ['\\', '\\']
        else if c = '\t' then ['\\', 't']
        else if c = '\n' then (if long then [c] else ['\\', 'n'])
        else if isControl c then controlEscape c
        else [c]
      shown ++ escaped long 0 t

/-- A text in double quotes. -/
def basicText (t : Text) : Text :=
  ['"'] ++ escaped false 0 t ++ ['"']

/-- A text in three double quotes; one with an LF begins on a line of its own. -/
def longBasicText (t : Text) : Text :=
  ['"', '"', '"'] ++ (if t.contains '\n' then ['\n'] else []) ++ escaped true 0 t ++ ['"', '"', '"']

/-- A text in single quotes. -/
def literalText (t : Text) : Text :=
  ['\''] ++ t ++ ['\'']

/-- A text in three single quotes; one with an LF begins on a line of its own. -/
def longLiteralText (t : Text) : Text :=
  ['\'', '\'', '\''] ++ (if t.contains '\n' then ['\n'] else []) ++ t ++ ['\'', '\'', '\'']

/-- A string. -/
def stringText (t : Text) : Text :=
  let control := t.any isControl
  let newline := t.contains '\n'
  let slash := t.contains '\\'
  if !control && !slash && !t.contains '"' && !newline then basicText t
  else if !control && !t.contains '\'' && !newline then literalText t
  else if !control && !slash && longestRun '"' t ≤ 2 then longBasicText t
  else if !control && longestRun '\'' t ≤ 2 then longLiteralText t
  else if newline then longBasicText t
  else basicText t

/-- A character of a key that is written without quotes. -/
def isPlainKeyChar (c : Char) : Bool :=
  c.isAlphanum || c = '-' || c = '_'

/-- A key: bare if it can be, and else quoted on one line. -/
def keyText (t : Text) : Text :=
  let control := t.any fun c => isControl c || c = '\n'
  if t ≠ [] ∧ t.all isPlainKeyChar then t
  else if !control && !t.contains '\\' && !t.contains '"' then basicText t
  else if !control && !t.contains '\'' then literalText t
  else basicText t

/-- An array of strings; one with two or more of them has each on a line of its own. -/
def arrayText (texts : List Text) : Text :=
  match texts with
  | [] => ['[', ']']
  | [t] => ['['] ++ stringText t ++ [']']
  | _ =>
    ['[', '\n'] ++
      (texts.map fun t => Text.ofString "    " ++ stringText t ++ [',', '\n']).flatten ++ [']']

/-- A key with its value, on a line of its own. -/
def line (key value : Text) : Text :=
  keyText key ++ Text.ofString " = " ++ value ++ ['\n']

/-- The header of a table. -/
def headerText (path : List Text) : Text :=
  ['['] ++ Text.join ['.'] (path.map keyText) ++ [']', '\n']

end Literate.Toml
