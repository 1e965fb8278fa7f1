import Literate.Text.Basic

/-!
# Octets

What a file or a pipe holds is a sequence of octets. An octet is written as the character of the
same number, U+0000 to U+00FF, so octets are read and compared like text. `encode` gives the octets
of a text in UTF-8; `decode?` takes back exactly those; `decodeLossy` takes any octets, and a part
that cannot belong to a character, as long as it goes, becomes U+FFFD.
-/

namespace Literate

/-- A sequence of octets, each as the character of the same number. -/
abbrev Octets := List Char

namespace Octets

/-- The octet with the six bits of `n` that begin at `shift`, after the two bits 10. -/
def tail (n shift : Nat) : Char :=
  Char.ofNat (0x80 + n / Nat.pow 2 shift % 64)

/-- The octets of a character. -/
def ofChar (c : Char) : Octets :=
  let n := c.toNat
  if n < 0x80 then [c]
  else if n < 0x800 then [Char.ofNat (0xc0 + n / 64), tail n 0]
  else if n < 0x10000 then [Char.ofNat (0xe0 + n / 4096), tail n 6, tail n 0]
  else [Char.ofNat (0xf0 + n / 262144), tail n 12, tail n 6, tail n 0]

/-- The octets of a text. -/
def encode (t : Text) : Octets :=
  t.flatMap ofChar

/-- Whether an octet lies between two numbers. -/
def within (low high : Nat) (b : Char) : Bool :=
  low ≤ b.toNat && b.toNat ≤ high

/-- For the first octet of a character of several: the bits it gives, the least and the greatest
second octet, and how many octets follow the second. -/
def lead? (b : Char) : Option (Nat × Nat × Nat × Nat) :=
  let n := b.toNat
  if within 0xc2 0xdf b then some (n - 0xc0, 0x80, 0xbf, 0)
  else if n = 0xe0 then some (0, 0xa0, 0xbf, 1)
  else if n = 0xed then some (0xd, 0x80, 0x9f, 1)
  else if within 0xe1 0xef b then some (n - 0xe0, 0x80, 0xbf, 1)
  else if n = 0xf0 then some (0, 0x90, 0xbf, 2)
  else if n = 0xf4 then some (4, 0x80, 0x8f, 2)
  else if within 0xf1 0xf3 b then some (n - 0xf0, 0x80, 0xbf, 2)
  else none

/-- The character whose bits so far are `bits`, with `count` more octets to come, and what follows
it; or what follows the octets that could have belonged to it. -/
def finishChar : (count bits : Nat) → Octets → Option Char × Octets
  | 0, bits, rest => (some (Char.ofNat bits), rest)
  | _ + 1, _, [] => (none, [])
  | count + 1, bits, b :: rest =>
    if within 0x80 0xbf b then
      finishChar count (64 * bits + (b.toNat - 0x80)) rest
    else
      (none, b :: rest)

/-- The first character, or `none` for a part that is none, and what follows. -/
def nextChar (b : Char) (rest : Octets) : Option Char × Octets :=
  if b.toNat < 0x80 then (some b, rest)
  else
    match lead? b, rest with
    | some (bits, low, high, count), second :: more =>
      if within low high second then
        finishChar count (64 * bits + (second.toNat - 0x80)) more
      else
        (none, rest)
    | _, _ => (none, rest)

theorem length_finishChar_le (count bits : Nat) (rest : Octets) :
    (finishChar count bits rest).2.length ≤ rest.length := by
  induction count generalizing bits rest with
  | zero => simp [finishChar]
  | succ count ih =>
    cases rest with
    | nil => simp [finishChar]
    | cons b rest =>
      by_cases h : within 0x80 0xbf b
      · simp only [finishChar, h, if_true, List.length_cons]
        exact Nat.le_succ_of_le (ih _ _)
      · simp [finishChar, h]

theorem length_nextChar_le (b : Char) (rest : Octets) :
    (nextChar b rest).2.length ≤ rest.length := by
  unfold nextChar
  split
  · exact Nat.le_refl _
  · split
    · split
      · exact Nat.le_succ_of_le (length_finishChar_le _ _ _)
      · exact Nat.le_refl _
    · exact Nat.le_refl _

/-- The characters of octets, `none` for each part that is none; `acc` are those before, the last
one first. -/
def charsFrom (acc : List (Option Char)) (octets : Octets) : List (Option Char) :=
  match octets with
  | [] => acc.reverse
  | b :: rest => charsFrom ((nextChar b rest).1 :: acc) (nextChar b rest).2
termination_by octets.length
decreasing_by
  have := length_nextChar_le b rest
  simp only [List.length_cons]
  omega

/-- The text with the given octets. -/
def decode? (octets : Octets) : Option Text :=
  let chars := charsFrom [] octets
  if chars.all Option.isSome then some (chars.filterMap id) else none

/-- The text with the given octets, with U+FFFD for each part that is no character. -/
def decodeLossy (octets : Octets) : Text :=
  (charsFrom [] octets).map fun c => c.getD '\ufffd'

end Octets

end Literate
