import Literate.Diff.Edit

/-!
# The middle of a shortest script

Two searches run over the grid of pairs of places in the two lists, one from the beginnings and one,
over the reversed lists, from the ends. After round `d` each knows, for every diagonal it can reach
with `d` deletions and insertions, the furthest place it gets to there. Where the searches meet, a
shortest script is cut into two halves.

A front lists those places by falling diagonal: entry `i` of the front of round `d` belongs to
diagonal `d - 2 i`, and is the place in the old list.
-/

namespace Literate.Diff

/-- The furthest places of one round. -/
abbrev Front := Array Nat

/-- The number of equal lines from place `i` of one list and place `j` of the other on. -/
def runLength (as bs : Array Text) (i j : Nat) : Nat :=
  if h : i < as.size ∧ j < bs.size then
    if as[i] = bs[j] then runLength as bs (i + 1) (j + 1) + 1 else 0
  else
    0
termination_by as.size - i

/-- Where the path to entry `i` of round `d` begins to run along its diagonal: one insertion after
the place on the diagonal above or one deletion after that on the diagonal below, whichever is
further on. -/
def Front.entry (last : Front) (d i : Nat) : Nat :=
  if d = 0 then 0
  else if i = d then last.getD (i - 1) 0
  else if i = 0 then last.getD 0 0 + 1
  else if last.getD i 0 < last.getD (i - 1) 0 then last.getD (i - 1) 0
  else last.getD i 0 + 1

/-- The entry of the front of round `d` for a diagonal, if the front has it. -/
def Front.at? (front : Front) (d : Nat) (diagonal : Int) : Option Nat :=
  if diagonal.natAbs ≤ d then front[(((d : Int) - diagonal) / 2).toNat]? else none

/-- The outcome of a round of one search: its front, or the place where it met the other search. -/
inductive Round where
  | reached (front : Front)
  | met (x y : Nat)

/-- The entries from `i` on of round `d` of a search, `count` of them. Two functions say what a path
that begins its run at a place and one that ends it at another have met. -/
def round (as bs : Array Text) (last : Front) (d : Nat)
    (meeting : (diagonal : Int) → (x y x' y' : Nat) → Option (Nat × Nat)) :
    (count i : Nat) → Front → Round
  | 0, _, front => .reached front
  | count + 1, i, front =>
    let x := last.entry d i
    let y := x + 2 * i - d
    let run := runLength as bs x y
    match meeting ((d : Int) - 2 * i) x y (x + run) (y + run) with
    | some (mx, my) => .met mx my
    | none => round as bs last d meeting count (i + 1) (front.push (x + run))

/-- Rounds `d` and following, `count` of them, given the fronts of the round before. -/
def rounds (old new oldBack newBack : Array Text) :
    (count d : Nat) → (forward backward : Front) → Option (Nat × Nat)
  | 0, _, _, _ => none
  | count + 1, d, forward, backward =>
    let n := old.size
    let m := new.size
    let delta : Int := (n : Int) - m
    let odd := delta % 2 ≠ 0
    let ahead (diagonal : Int) (x y x' _ : Nat) : Option (Nat × Nat) :=
      if odd ∧ d ≠ 0 then
        match backward.at? (d - 1) (delta - diagonal) with
        | some reach => if n ≤ x' + reach then some (x, y) else none
        | none => none
      else
        none
    match round old new forward d ahead (d + 1) 0 #[] with
    | .met x y => some (x, y)
    | .reached forward =>
      let back (diagonal : Int) (_ _ x' y' : Nat) : Option (Nat × Nat) :=
        if odd then
          none
        else
          match forward.at? d (delta - diagonal) with
          | some reach => if n ≤ x' + reach then some (n - x', m - y') else none
          | none => none
      match round oldBack newBack backward d back (d + 1) 0 #[] with
      | .met x y => some (x, y)
      | .reached backward => rounds old new oldBack newBack count (d + 1) forward backward

/-- Where a shortest script between two lists may be cut in two: a place in each list. -/
def middle (old new : List Text) : Option (Nat × Nat) :=
  let oldLines := old.toArray
  let newLines := new.toArray
  rounds oldLines newLines oldLines.reverse newLines.reverse
    ((old.length + new.length + 1) / 2 + 1) 0 #[] #[]

end Literate.Diff
