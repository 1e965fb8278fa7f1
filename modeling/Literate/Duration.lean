import Literate.Text.Quoted

/-!
# Lengths of time

A length of time is a number of nanoseconds. It is written in the largest of the units s, ms, µs and
ns in which it is at least one, as a decimal number without trailing zeros.
-/

namespace Literate

/-- A length of time. -/
structure Duration where
  nanoseconds : Nat
deriving DecidableEq, Repr, Inhabited

namespace Duration

/-- The number of nanoseconds in a second. -/
def perSecond : Nat := 1000000000

def ofSeconds (n : Nat) : Duration := ⟨n * perSecond⟩

def ofMilliseconds (n : Nat) : Duration := ⟨n * 1000000⟩

/-- The decimal places of `part / 10 ^ places`, after a point and without trailing zeros; nothing if
there are none. -/
def fraction (part places : Nat) : Text :=
  let digits := Text.decimal part
  let padded := List.replicate (places - digits.length) '0' ++ digits
  match (padded.reverse.dropWhile (· == '0')).reverse with
  | [] => []
  | shown => '.' :: shown

/-- A number of nanoseconds in the unit of `10 ^ places` of them. -/
def inUnit (n places : Nat) (unit : Text) : Text :=
  Text.decimal (n / Nat.pow 10 places) ++ fraction (n % Nat.pow 10 places) places ++ unit

/-- The written form of a length of time. -/
def text (d : Duration) : Text :=
  let n := d.nanoseconds
  if 1000000000 ≤ n then inUnit n 9 (Text.ofString "s")
  else if 1000000 ≤ n then inUnit n 6 (Text.ofString "ms")
  else if 1000 ≤ n then inUnit n 3 (Text.ofString "µs")
  else inUnit n 0 (Text.ofString "ns")

end Duration

end Literate
