import Literate.Toml.Value

/-!
# Words that are values

Truth values, integers, numbers with a fraction or an exponent, and dates and times.
-/

namespace Literate.Toml

/-- Digits without the underscores between them; an underscore stands between two digits. -/
def ungroup (isDigit : Char → Bool) : Text → Option Text
  | [] => none
  | [c] => if isDigit c then some [c] else none
  | c :: '_' :: t => if isDigit c then (ungroup isDigit t).map (c :: ·) else none
  | c :: t => if isDigit c then (ungroup isDigit t).map (c :: ·) else none

/-- The value of a digit. -/
def digitValue (c : Char) : Nat :=
  if c.isDigit then c.toNat - '0'.toNat else c.toLower.toNat - 'a'.toNat + 10

/-- A digit of a base up to sixteen. -/
def isDigitOf (base : Nat) (c : Char) : Bool :=
  (c.isDigit || ('a' ≤ c.toLower && c.toLower ≤ 'f')) && digitValue c < base

/-- The number with the given digits, which may be grouped by underscores. -/
def number? (base : Nat) (t : Text) : Option Nat := do
  let digits ← ungroup (isDigitOf base) t
  return digits.foldl (fun n d => base * n + digitValue d) 0

/-- A decimal number without needless zeros in front. -/
def plainNumber? (t : Text) : Option Nat :=
  match t with
  | '0' :: _ :: _ => none
  | _ => number? 10 t

/-- A sign, and what follows it. -/
def splitSign (t : Text) : Bool × Text :=
  match t with
  | '-' :: rest => (true, rest)
  | '+' :: rest => (false, rest)
  | _ => (false, t)

/-- An integer. -/
def integer? (t : Text) : Option Int :=
  match t with
  | '0' :: 'x' :: digits => (number? 16 digits).map Int.ofNat
  | '0' :: 'o' :: digits => (number? 8 digits).map Int.ofNat
  | '0' :: 'b' :: digits => (number? 2 digits).map Int.ofNat
  | _ =>
    let (negative, digits) := splitSign t
    (plainNumber? digits).map fun n => if negative then -(n : Int) else n

/-- The integers that can be read: those of 128 bits, with a sign or without. -/
def isInRange (n : Int) : Bool :=
  -170141183460469231731687303715884105728 ≤ n && n < 340282366920938463463374607431768211456

/-- Whether the text is the exponent of a number, after its letter. -/
def isExponent (t : Text) : Bool :=
  (number? 10 (splitSign t).2).isSome

/-- A character that begins an exponent. -/
def isExponentMark (c : Char) : Bool :=
  c = 'e' || c = 'E'

/-- Whether the text is a number with a fraction, an exponent, or both, or one of the two words for
what is no number. -/
def isFloat (t : Text) : Bool :=
  let (_, t) := splitSign t
  let mantissa := t.takeWhile fun c => !isExponentMark c
  let whole := mantissa.takeWhile (· ≠ '.')
  let exponentFits := match t.dropWhile fun c => !isExponentMark c with
    | [] => true
    | _ :: exponent => isExponent exponent
  let fits := match mantissa.dropWhile (· ≠ '.') with
    | [] => mantissa.length < t.length
    | _ :: fraction => (number? 10 fraction).isSome
  t = Text.ofString "inf" || t = Text.ofString "nan" ||
    ((plainNumber? whole).isSome && fits && exponentFits)

/-! ### Dates and times -/

/-- The number that a text of `width` decimal digits begins with, and the rest. -/
def fixedNumber? (width : Nat) (t : Text) : Option (Nat × Text) :=
  let digits := t.take width
  if digits.length = width ∧ digits.all Char.isDigit then
    some (digits.foldl (fun n d => 10 * n + digitValue d) 0, t.drop width)
  else
    none

/-- The number of days of a month. -/
def daysIn (year month : Nat) : Nat :=
  if month = 2 then
    if year % 4 = 0 ∧ (year % 100 ≠ 0 ∨ year % 400 = 0) then 29 else 28
  else if month = 4 ∨ month = 6 ∨ month = 9 ∨ month = 11 then 30
  else 31

/-- What follows the date that a text begins with. -/
def afterDate? (t : Text) : Option Text := do
  let (year, t) ← fixedNumber? 4 t
  let (month, t) ← fixedNumber? 2 (← Text.after? ['-'] t)
  let (day, t) ← fixedNumber? 2 (← Text.after? ['-'] t)
  if 1 ≤ month ∧ month ≤ 12 ∧ 1 ≤ day ∧ day ≤ daysIn year month then some t else none

/-- What follows the time of day that a text begins with; seconds and their fraction may be
missing. -/
def afterTime? (t : Text) : Option Text := do
  let (hour, t) ← fixedNumber? 2 t
  let (minute, t) ← fixedNumber? 2 (← Text.after? [':'] t)
  if hour ≤ 23 ∧ minute ≤ 59 then
    match t with
    | ':' :: rest =>
      let (second, t) ← fixedNumber? 2 rest
      if second ≤ 60 then
        match t with
        | '.' :: fraction =>
          if (fraction.takeWhile Char.isDigit).isEmpty then none
          else some (fraction.dropWhile Char.isDigit)
        | _ => some t
      else none
    | _ => some t
  else
    none

/-- Whether the text is a distance from universal time. -/
def isOffset (t : Text) : Bool :=
  match t with
  | ['Z'] => true
  | ['z'] => true
  | sign :: rest =>
    (sign = '+' || sign = '-') &&
      match fixedNumber? 2 rest with
      | some (hour, ':' :: rest) =>
        match fixedNumber? 2 rest with
        | some (minute, []) => hour ≤ 23 && minute ≤ 59
        | _ => false
      | _ => false
  | [] => false

/-- Whether the text is a date, a time of day, or both together, then also with a distance from
universal time. -/
def isDate (t : Text) : Bool :=
  match afterDate? t with
  | some [] => true
  | some (separator :: time) =>
    (separator = 'T' || separator = 't' || separator = ' ') &&
      match afterTime? time with
      | some rest => rest.isEmpty || isOffset rest
      | none => false
  | none =>
    match afterTime? t with
    | some rest => rest.isEmpty
    | none => false

/-! ### Words -/

/-- A character of a word. -/
def isWordChar (c : Char) : Bool :=
  c.isAlphanum || c = '_' || c = '+' || c = '-' || c = '.' || c = ':'

/-- The value that a word stands for. -/
def ofWord (word : Text) : Option Value :=
  if word = Text.ofString "true" then some (.boolean true)
  else if word = Text.ofString "false" then some (.boolean false)
  else
    match integer? word with
    | some n => if isInRange n then some (.integer n) else none
    | none =>
      if isFloat word then some .float
      else if isDate word then some .date
      else none

/-- The word that a text begins with, and the rest. A date and a time of day may have one space
between them. -/
def word (t : Text) : Text × Text :=
  let first := t.takeWhile isWordChar
  let rest := t.dropWhile isWordChar
  match rest with
  | ' ' :: more =>
    if (afterDate? first) = some [] ∧ more.head?.any Char.isDigit then
      (first ++ ' ' :: more.takeWhile isWordChar, more.dropWhile isWordChar)
    else
      (first, rest)
  | _ => (first, rest)

end Literate.Toml
