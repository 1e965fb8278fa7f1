import Literate.FileState
import Literate.Shell.Arithmetic

/-!
# Conditions

The expressions of `test`: tests of texts, of whole numbers and of files, joined by `-a`, `-o` and
`!`. Up to three operands are understood by their number, so that a text that looks like an operator
may stand in a comparison.
-/

namespace Literate.Shell.Condition

/-- Why a condition has no value, in the shell's words. -/
abbrev Fault := Octets

/-- A whole number, with blanks around it or not. -/
def number (t : Octets) : Except Fault Int :=
  let body := (Arithmetic.skip (Arithmetic.skip t).reverse).reverse
  let value := match body with
    | '-' :: digits => (Arithmetic.digits 10 digits).map fun n => -(n : Int)
    | '+' :: digits => (Arithmetic.digits 10 digits).map Int.ofNat
    | digits => (Arithmetic.digits 10 digits).map Int.ofNat
  match value with
  | some n => .ok n
  | none => .error (Text.ofString "Illegal number: " ++ t)

/-- Whether something stands at a path. -/
def exists? : FileState → Bool
  | .directory | .content _ => true
  | .missing | .beneathFile => false

/-- The value of an operator with one operand, if there is such an operator. -/
def unary (files : Octets → FileState) (op operand : Octets) : Option Bool :=
  match Text.toString op with
  | "-n" => some (operand != [])
  | "-z" => some (operand == [])
  | "-e" | "-r" | "-w" => some (exists? (files operand))
  | "-f" => some (match files operand with
      | .content _ => true
      | _ => false)
  | "-d" => some (files operand == .directory)
  | "-x" => some (files operand == .directory)
  | "-s" => some (match files operand with
      | .content octets => octets != []
      | state => exists? state)
  | "-h" | "-L" | "-p" | "-S" | "-b" | "-c" | "-t" | "-g" | "-u" | "-k" => some false
  | _ => none

/-- Whether a word is an operator between two operands. -/
def isBinary (op : Octets) : Bool :=
  ["=", "!=", "<", ">", "-eq", "-ne", "-lt", "-le", "-gt", "-ge"].any fun name =>
    Text.ofString name == op

/-- The value of an operator between two operands. -/
def binary (a op b : Octets) : Except Fault Bool :=
  let compare (holds : Int → Int → Bool) : Except Fault Bool :=
    match number a, number b with
    | .ok m, .ok n => .ok (holds m n)
    | .error fault, _ => .error fault
    | _, .error fault => .error fault
  match Text.toString op with
  | "=" => .ok (a == b)
  | "!=" => .ok (a != b)
  | "<" => .ok (decide (a < b))
  | ">" => .ok (decide (b < a))
  | "-eq" => compare fun m n => m = n
  | "-ne" => compare fun m n => m ≠ n
  | "-lt" => compare fun m n => m < n
  | "-le" => compare fun m n => m ≤ n
  | "-gt" => compare fun m n => n < m
  | _ => compare fun m n => n ≤ m

/-- An operator where none can stand. -/
def unexpected (op : Octets) : Fault :=
  op ++ Text.ofString ": unexpected operator"

mutual

/-- A condition joined by `-o`, and the operands after it. -/
def disjunction (files : Octets → FileState) : Nat → List Octets → Except Fault (Bool × List Octets)
  | 0, _ => .error (Text.ofString "argument expected")
  | fuel + 1, operands => do
    let (a, rest) ← conjunction files fuel operands
    match rest with
    | ['-', 'o'] :: rest =>
      let (b, rest) ← disjunction files fuel rest
      return (a || b, rest)
    | _ => return (a, rest)

/-- A condition joined by `-a`, and the operands after it. -/
def conjunction (files : Octets → FileState) : Nat → List Octets → Except Fault (Bool × List Octets)
  | 0, _ => .error (Text.ofString "argument expected")
  | fuel + 1, operands => do
    let (a, rest) ← single files fuel operands
    match rest with
    | ['-', 'a'] :: rest =>
      let (b, rest) ← conjunction files fuel rest
      return (a && b, rest)
    | _ => return (a, rest)

/-- A condition that is not joined to another, and the operands after it. Where it is missing after
an operator, it does not hold. -/
def single (files : Octets → FileState) : Nat → List Octets → Except Fault (Bool × List Octets)
  | 0, _ => .error (Text.ofString "argument expected")
  | _ + 1, [] => .ok (false, [])
  | fuel + 1, a :: rest =>
    match rest with
    | [op] =>
      if isBinary op then .error (op ++ Text.ofString ": argument expected")
      else prefixed files fuel a rest
    | op :: b :: more =>
      if isBinary op then (binary a op b).map fun v => (v, more)
      else prefixed files fuel a rest
    | _ => prefixed files fuel a rest

/-- A condition that begins with `!`, with a parenthesis or with an operator, or a text alone. -/
def prefixed (files : Octets → FileState) :
    Nat → Octets → List Octets → Except Fault (Bool × List Octets)
  | 0, _, _ => .error (Text.ofString "argument expected")
  | fuel + 1, a, rest =>
    if a = ['!'] ∧ rest ≠ [] then
      (single files fuel rest).map fun (v, rest) => (!v, rest)
    else if a = ['('] ∧ rest ≠ [] then do
      let (v, rest) ← disjunction files fuel rest
      match rest with
      | [')'] :: rest => return (v, rest)
      | _ => .error (Text.ofString "closing paren expected")
    else
      match rest with
      | operand :: more =>
        match unary files a operand with
        | some v => .ok (v, more)
        | none => .ok (a != [], rest)
      | [] => .ok (a != [], [])

end

/-- The value of a condition; one without operands is false. -/
def evaluate (files : Octets → FileState) (operands : List Octets) : Except Fault Bool :=
  match operands with
  | [] => .ok false
  | [a] => .ok (a != [])
  | [['!'], a] => .ok (a == [])
  | _ =>
    match disjunction files (4 * operands.length + 4) operands with
    | .error fault => .error fault
    | .ok (v, []) => .ok v
    | .ok (_, rest) =>
      .error (unexpected ((operands[operands.length - rest.length - 1]?).getD []))

end Literate.Shell.Condition
