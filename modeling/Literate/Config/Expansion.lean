import Literate.Text.Basic
import Literate.Unicode.Alphanumeric

/-!
# Expansion of variables and of the home directory

A dollar sign and a name, with or without braces, stand for the value of a variable; in braces the
name may be followed by a value to use if the variable is not set. Two dollar signs are one. A tilde
at the start, alone or before a slash, is the home directory. A variable that is not set and for
which there is no other value makes the whole text be left as it is.
-/

namespace Literate

/-- The variables that are set, with their values. -/
abbrev Environment := List (Text × Text)

namespace Environment

/-- The value of a variable. -/
def get? (env : Environment) (name : Text) : Option Text :=
  (env.find? fun binding => binding.1 == name).map Prod.snd

/-- The home directory: the value of the variable `HOME`, unless it is empty. There is no other one:
the list of the machine's users, which may name a home directory where `HOME` is not set or is
empty, is not looked into. -/
def home? (env : Environment) : Option Text :=
  match env.get? (Text.ofString "HOME") with
  | some [] => none
  | home => home

end Environment

namespace Expansion

/-- A character of a variable's name. -/
def isNameChar (c : Char) : Bool :=
  Unicode.isAlphanumeric c || c = '_'

/-- The part of a text before the first colon that a minus sign follows, and the part after both. -/
def splitDefault : Text → Option (Text × Text)
  | [] => none
  | ':' :: '-' :: rest => some ([], rest)
  | c :: t => (splitDefault t).map fun (name, rest) => (c :: name, rest)

/-- What stands for the inside of a pair of braces: the value of the variable, or the value given
for a variable that is not set. A value may be given only after a name. -/
def braced (env : Environment) (inside : Text) : Option Text :=
  match splitDefault inside with
  | some (name@(_ :: _), other) => some ((env.get? name).getD other)
  | _ => env.get? inside

/-- A reference at a dollar sign: what stands for it, and how many characters of what follows the
dollar sign belong to it. -/
def reference (env : Environment) (t : Text) : Option (Text × Nat) :=
  match t with
  | '\x7b' :: rest =>
    if rest.contains '\x7d' then
      let inside := rest.takeWhile (· ≠ '\x7d')
      (braced env inside).map fun value => (value, inside.length + 2)
    else
      some (['$', '\x7b'], 1)
  | '$' :: _ => some (['$'], 1)
  | _ =>
    match t.takeWhile isNameChar with
    | [] => some (['$'], 0)
    | name => (env.get? name).map fun value => (value, name.length)

/-- The text with its references replaced; the first argument counts the characters still to be
passed of a reference that has been replaced. -/
def variablesFrom (env : Environment) : Nat → Text → Option Text
  | _, [] => some []
  | passing + 1, _ :: t => variablesFrom env passing t
  | 0, c :: t =>
    if c = '$' then
      match reference env t with
      | none => none
      | some (value, passing) => (variablesFrom env passing t).map (value ++ ·)
    else
      (variablesFrom env 0 t).map (c :: ·)

/-- The text with its references replaced, or `none` if a variable is not set. -/
def bindings? (env : Environment) (t : Text) : Option Text :=
  variablesFrom env 0 t

/-- The text with the home directory in place of a tilde at its start. -/
def tilde (env : Environment) (t : Text) : Text :=
  match t, env.home? with
  | ['~'], some home => home
  | '~' :: '/' :: rest, some home => home ++ '/' :: rest
  | _, _ => t

/-- The text with its references and its tilde replaced, or `none` if a variable is not set. A tilde
that comes out of a variable is not replaced. -/
def full? (env : Environment) (t : Text) : Option Text :=
  (bindings? env t).map fun expanded =>
    if t.head? ≠ some '~' ∧ expanded.head? = some '~' then expanded else tilde env expanded

/-- The text with its references and its tilde replaced, if that can be done. -/
def apply (env : Environment) (t : Text) : Text :=
  (full? env t).getD t

end Expansion

end Literate
