import Literate.Shell.Format
import Literate.Shell.Pattern
import Literate.Shell.Utility.Basic

/-!
# Utilities for characters

`tr` replaces, deletes or squeezes octets; `od` shows them as numbers.
-/

namespace Literate.Shell.Utility

/-- The octets between two others, with both. -/
def octetRange (low high : Char) : Octets :=
  (List.range (high.toNat + 1 - low.toNat)).map fun n => Char.ofNat (low.toNat + n)

/-- The octets that a set of `tr` lists, in its order; at most `count` characters of it are read. -/
def octetSet : (count : Nat) → Octets → Octets
  | 0, _ => []
  | _ + 1, [] => []
  | count + 1, '[' :: ':' :: t =>
    let name := t.takeWhile (· ≠ ':')
    match (t.dropWhile (· ≠ ':')).drop 1 with
    | ']' :: rest =>
      (classRanges name).flatMap (fun r => octetRange r.1 r.2) ++ octetSet count rest
    | _ => '[' :: ':' :: octetSet count t
  | count + 1, c :: t =>
    let (c, t) := if c = '\\' then Format.escape t else (c, t)
    match t with
    | '-' :: d :: rest =>
      let (d, rest) := if d = '\\' then Format.escape rest else (d, rest)
      octetRange c d ++ octetSet count rest
    | _ => c :: octetSet count t

/-- Without the repetitions of octets that a test picks; `last` is the octet before. -/
def squeeze (picks : Char → Bool) (last : Option Char) : Octets → Octets
  | [] => []
  | c :: t =>
    if last = some c ∧ picks c then squeeze picks last t else c :: squeeze picks (some c) t

/-- Replaces, deletes or squeezes octets of its standard input. -/
def tr : Utility := fun s operands =>
  match options "" "cCds" operands with
  | .error c => s.badOption c
  | .ok (given, sets) =>
    let complement := hasOption given 'c' || hasOption given 'C'
    let listed := sets.map fun set => octetSet (set.length + 1) set
    match listed with
    | [] => .done (s.misused 1 (Text.ofString "missing operand"))
    | first :: more =>
      let inFirst (c : Char) : Bool := first.contains c != complement
      let second := more.headD []
      let replace (c : Char) : Char :=
        if complement then (if inFirst c then second.getLastD c else c)
        else
          match first.reverse.idxOf? c with
          | some n => (second[first.length - 1 - n]?).getD (second.getLastD c)
          | none => c
      .reads fun t =>
        let squeezes := hasOption given 's'
        let t := if hasOption given 'd' then t.filter fun c => !inFirst c
          else if more.isEmpty then t
          else t.map replace
        let picks (c : Char) : Bool := if more.isEmpty then inFirst c else second.contains c
        s.writing (if squeezes then squeeze picks none t else t)

/-- A number in a base, filled up with zeros. -/
def paddedDigits (base width n : Nat) : Octets :=
  let digits := Nat.toDigits base n
  List.replicate (width - digits.length) '0' ++ digits

/-- How `od` shows an octet. -/
def shownOctet (format : Octets) (c : Char) : Octets :=
  match Text.toString format with
  | "x1" => ' ' :: paddedDigits 16 2 c.toNat
  | "o1" | "b" => ' ' :: paddedDigits 8 3 c.toNat
  | "u1" =>
    let digits := Text.decimal c.toNat
    List.replicate (4 - digits.length) ' ' ++ digits
  | _ =>
    let name : Octets := match c with
      | '\x00' => ['\\', '0']
      | '\x07' => ['\\', 'a']
      | '\x08' => ['\\', 'b']
      | '\x0c' => ['\\', 'f']
      | '\n' => ['\\', 'n']
      | '\r' => ['\\', 'r']
      | '\t' => ['\\', 't']
      | '\x0b' => ['\\', 'v']
      | _ => if ' ' ≤ c ∧ c ≤ '~' then [c] else paddedDigits 8 3 c.toNat
    List.replicate (4 - name.length) ' ' ++ name

/-- The lines in which `od` shows octets, sixteen on each, the first at an offset; at most `count`
of them. -/
def dump (addresses : Bool) (format : Octets) : (count offset : Nat) → Octets → Octets
  | 0, _, _ => []
  | count + 1, offset, t =>
    let address := if addresses then paddedDigits 8 7 offset else []
    match t with
    | [] => if addresses then address ++ ['\n'] else []
    | _ =>
      address ++ (t.take 16).flatMap (shownOctet format) ++ ['\n'] ++
        dump addresses format count (offset + min 16 t.length) (t.drop 16)

/-- Shows octets as numbers or characters. -/
def od : Utility := fun s operands =>
  match options "At" "cvbx" operands with
  | .error c => s.badOption c
  | .ok (given, paths) =>
    let format := (option? given 't').getD (if hasOption given 'b' then ['b'] else ['c'])
    s.filtering paths .plain fun t =>
      dump (option? given 'A' != some ['n']) format (t.length + 2) 0 t

end Literate.Shell.Utility
