import Literate.Shell.Arithmetic

/-!
# Formats

The escapes of `echo` and `printf`, and the conversions of `printf`. A format is used again as long
as it has not used up the operands; operands that are missing count as empty, or as zero.
-/

namespace Literate.Shell.Format

/-! ### Escapes -/

/-- The octet of up to `count` octal digits, and what follows them. -/
def octal (count value : Nat) : Octets → Char × Octets
  | [] => (Char.ofNat (value % 256), [])
  | c :: t =>
    match count with
    | 0 => (Char.ofNat (value % 256), c :: t)
    | count + 1 =>
      if '0' ≤ c ∧ c ≤ '7' then octal count (8 * value + (c.toNat - '0'.toNat)) t
      else (Char.ofNat (value % 256), c :: t)

/-- The octet that a letter after a backslash stands for. -/
def letter? (c : Char) : Option Char :=
  match c with
  | '\\' => some '\\'
  | 'a' => some '\x07'
  | 'b' => some '\x08'
  | 'e' => some '\x1b'
  | 'f' => some '\x0c'
  | 'n' => some '\n'
  | 'r' => some '\r'
  | 't' => some '\t'
  | 'v' => some '\x0b'
  | _ => none

/-- The octet of an escape whose backslash has been read, and what follows. A backslash before any
other character stands for itself. -/
def escape : Octets → Char × Octets
  | [] => ('\\', [])
  | c :: t =>
    if '0' ≤ c ∧ c ≤ '7' then octal 3 0 (c :: t)
    else
      match letter? c with
      | some d => (d, t)
      | none => ('\\', c :: t)

/-- The octet of a hexadecimal escape whose backslash has been read, and what follows. -/
def hexEscape? (t : Octets) : Option (Char × Octets) :=
  match t with
  | 'x' :: rest =>
    let isDigit (c : Char) : Bool := (Arithmetic.digits 16 [c]).isSome
    let digits := (rest.take 2).takeWhile isDigit
    (Arithmetic.digits 16 digits).map fun n => (Char.ofNat n, rest.drop digits.length)
  | _ => none

/-- The octets of a text with escapes, and whether one of them asks to stop there. After a backslash
and a zero there are up to three octal digits. At most `count` characters are read. -/
def unescape : (count : Nat) → Octets → Octets × Bool
  | 0, _ => ([], false)
  | _ + 1, [] => ([], false)
  | _ + 1, '\\' :: 'c' :: _ => ([], true)
  | count + 1, '\\' :: t =>
    let (c, rest) := match t with
      | '0' :: digits => octal 3 0 digits
      | _ => escape t
    let (more, stopped) := unescape count rest
    (c :: more, stopped)
  | count + 1, c :: t =>
    let (more, stopped) := unescape count t
    (c :: more, stopped)

/-- What `echo` of the shell writes. -/
def echo (operands : List Octets) : Octets :=
  let (newline, words) := match operands with
    | ['-', 'n'] :: words => (false, words)
    | words => (true, words)
  let line := Text.join [' '] words
  let (text, stopped) := unescape (line.length + 1) line
  if newline ∧ !stopped then text ++ ['\n'] else text

/-! ### Conversions -/

/-- How a conversion fills its place. -/
structure Layout where
  left : Bool
  zeros : Bool
  plus : Bool
  space : Bool
  alternate : Bool
  width : Nat
  precision : Option Nat
deriving DecidableEq, Repr

/-- What has been written, the last octet first, the complaints about operands, and the operands
that have not been used. `hexEscapes` says whether there are hexadecimal escapes, and `stopped` that
an escape asked to stop. -/
structure Written where
  hexEscapes : Bool
  acc : Octets
  faults : List Octets
  operands : List Octets
  stopped : Bool
deriving DecidableEq, Repr

/-- The octets with blanks up to the width. -/
def Layout.pad (l : Layout) (t : Octets) : Octets :=
  let blanks := List.replicate (l.width - t.length) ' '
  if l.left then t ++ blanks else blanks ++ t

/-- The digits of a number with a sign or a mark in front, filled up to the precision and the
width. -/
def Layout.number (l : Layout) (sign digits : Octets) : Octets :=
  let least := l.precision.getD 1
  let digits := if least = 0 ∧ digits = ['0'] then [] else digits
  let digits := List.replicate (least - digits.length) '0' ++ digits
  if l.zeros ∧ !l.left ∧ l.precision = none then
    sign ++ List.replicate (l.width - sign.length - digits.length) '0' ++ digits
  else
    l.pad (sign ++ digits)

/-- A whole number as a conversion with a sign writes it. -/
def Layout.signed (l : Layout) (n : Int) : Octets :=
  let sign := if n < 0 then ['-'] else if l.plus then ['+'] else if l.space then [' '] else []
  l.number sign (Text.decimal n.natAbs)

/-- A whole number in a base as a conversion without a sign writes it. -/
def Layout.unsigned (l : Layout) (base : Nat) (upper : Bool) (n : Int) : Octets :=
  let m := (n % wordBound).toNat
  let digits := Nat.toDigits base m
  let digits := if upper then digits.map Char.toUpper else digits
  let mark := if l.alternate ∧ base = 16 ∧ m ≠ 0 then ['0', if upper then 'X' else 'x'] else []
  let digits := if l.alternate ∧ base = 8 ∧ m ≠ 0 then '0' :: digits else digits
  l.number mark digits

/-- The number that an operand begins with, and a complaint unless it is all of it and fits in 64
bits, with a sign if `signed` is set. After a quotation mark it is the number of the character. -/
def operandNumber (signed : Bool) (t : Octets) : Int × Option Octets :=
  match t with
  | [] => (0, none)
  | '\'' :: rest => ((rest.head?.map Char.toNat).getD 0, none)
  | '"' :: rest => ((rest.head?.map Char.toNat).getD 0, none)
  | _ =>
    match Arithmetic.leadingNumber t with
    | none => (0, some (t ++ Text.ofString ": expected numeric value"))
    | some (n, rest) =>
      let fits := if signed then decide (Arithmetic.wrap n = n) else n.natAbs < wordBound
      let nearest : Int :=
        if fits then n
        else if !signed then wordBound - 1
        else if n < 0 then -9223372036854775808
        else 9223372036854775807
      if rest ≠ [] then (nearest, some (t ++ Text.ofString ": not completely converted"))
      else if !fits then (nearest, some (t ++ Text.ofString ": Numerical result out of range"))
      else (nearest, none)

/-- Takes the next operand. -/
def Written.next (w : Written) : Octets × Written :=
  match w.operands with
  | [] => ([], w)
  | t :: rest => (t, { w with operands := rest })

/-- Takes the next operand as a number, with a sign or without. -/
def Written.nextNumber (signed : Bool) (w : Written) : Int × Written :=
  let (t, w) := w.next
  let (n, fault) := operandNumber signed t
  (n, { w with faults := w.faults ++ fault.toList })

/-- Writes octets. -/
def Written.put (w : Written) (t : Octets) : Written :=
  { w with acc := t.reverse ++ w.acc }

/-- Writes an operand in the way of a conversion; there is no such conversion for other letters. -/
def Written.convert (w : Written) (l : Layout) (conversion : Char) : Option Written :=
  let cut (t : Octets) : Octets := match l.precision with
    | some n => t.take n
    | none => t
  let number (signed : Bool) (render : Int → Octets) : Option Written :=
    let (n, w) := w.nextNumber signed
    some (w.put (render n))
  match conversion with
  | 's' => let (t, w) := w.next; some (w.put (l.pad (cut t)))
  | 'c' => let (t, w) := w.next; some (w.put (l.pad (t.take 1)))
  | 'b' =>
    let (t, w) := w.next
    let (t, stopped) := unescape (t.length + 1) t
    some { w.put (l.pad (cut t)) with stopped }
  | 'd' | 'i' => number true l.signed
  | 'u' => number false (l.unsigned 10 false)
  | 'o' => number false (l.unsigned 8 false)
  | 'x' => number false (l.unsigned 16 false)
  | 'X' => number false (l.unsigned 16 true)
  | _ => none

/-- A number in a format, or the next operand for an asterisk, and what follows. -/
def measure (w : Written) (t : Octets) : Option Int × Octets × Written :=
  match t with
  | '*' :: rest =>
    let (n, w) := w.nextNumber true
    (some n, rest, w)
  | _ =>
    let digits := t.takeWhile Char.isDigit
    ((Arithmetic.digits 10 digits).map Int.ofNat, t.dropWhile Char.isDigit, w)

/-- The layout after a percent sign, and what follows. -/
def layout (w : Written) (t : Octets) : Layout × Octets × Written :=
  let isFlag (c : Char) : Bool := ['-', '0', '+', ' ', '#'].contains c
  let flags := t.takeWhile isFlag
  let (width, t, w) := measure w (t.dropWhile isFlag)
  let (precision, t, w) := match t with
    | '.' :: rest =>
      let (n, rest, w) := measure w rest
      (some ((n.getD 0).toNat), rest, w)
    | _ => (none, t, w)
  let width := width.getD 0
  ({ left := flags.contains '-' || decide (width < 0), zeros := flags.contains '0'
     plus := flags.contains '+', space := flags.contains ' ', alternate := flags.contains '#'
     width := width.natAbs, precision }, t, w)

/-- Writes with a format from beginning to end; at most `count` characters of it are read. -/
def Written.run : (count : Nat) → Written → Octets → Written
  | 0, w, _ => w
  | _ + 1, w, [] => w
  | count + 1, w, c :: t =>
    if w.stopped then w
    else if c = '\\' then
      let (d, rest) := match if w.hexEscapes then hexEscape? t else none with
        | some found => found
        | none => escape t
      Written.run count (w.put [d]) rest
    else if c = '%' then
      match t with
      | '%' :: rest => Written.run count (w.put ['%']) rest
      | _ =>
        let (l, rest, w) := layout w t
        match rest with
        | [] => { w with faults := w.faults ++ [Text.ofString "missing format character"] }
        | conversion :: rest =>
          match w.convert l conversion with
          | some w => Written.run count w rest
          | none =>
            { w with
              faults := w.faults ++ ['%' :: conversion :: Text.ofString ": invalid directive"]
              stopped := true }
    else
      Written.run count (w.put [c]) t

/-- Writes with a format again and again, at most `count` times, until the operands are used up. -/
def Written.runAll : (count : Nat) → Written → Octets → Written
  | 0, w, _ => w
  | count + 1, w, format =>
    let before := w.operands.length
    let w := Written.run (format.length + 1) w format
    if w.stopped ∨ w.operands = [] ∨ w.operands.length = before then w
    else Written.runAll count w format

/-- What `printf` writes, and its complaints. -/
def printf (hexEscapes : Bool) (format : Octets) (operands : List Octets) : Octets × List Octets :=
  let w := Written.runAll (operands.length + 1) ⟨hexEscapes, [], [], operands, false⟩ format
  (w.acc.reverse, w.faults)

end Literate.Shell.Format
