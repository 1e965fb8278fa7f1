import Literate.Text.Octets

/-!
# Commands of the shell

What a line of shell says. Words are kept as they are written, with their quotes and dollar signs;
they are expanded when the command runs.
-/

namespace Literate.Shell

/-- A word as it is written. -/
abbrev Word := Octets

/-- What a redirection does with its descriptor. -/
inductive RedirectKind where
  | input
  | output
  | append
  /-- Makes the descriptor refer to what another one refers to, or closes it. -/
  | duplicate
  /-- Reads from a text in the script; `expand` says whether dollar signs count in it. -/
  | here (expand : Bool)
deriving DecidableEq, Repr

/-- A redirection of a descriptor; `target` is a word or the text to read. -/
structure Redirect where
  descriptor : Nat
  kind : RedirectKind
  target : Word
deriving DecidableEq, Repr

/-- A command. -/
inductive Command where
  | nothing
  /-- Words and redirections on a line. -/
  | simple (line : Nat) (words : List Word) (redirects : List Redirect)
  | pipeline (commands : List Command)
  /-- The command with success and failure exchanged. -/
  | negated (command : Command)
  | both (first second : Command)
  | either (first second : Command)
  | sequence (first second : Command)
  | background (command : Command)
  | subshell (body : Command)
  | redirected (body : Command) (redirects : List Redirect)
  | branch (condition yes no : Command)
  /-- Repeats `body` as long as the condition succeeds, or else as long as it fails. -/
  | loop (whileFails : Bool) (condition body : Command)
  /-- Runs `body` once for each word, or for each argument of the script. -/
  | each (line : Nat) (name : Octets) (words : Option (List Word)) (body : Command)
  | choice (line : Nat) (word : Word) (arms : List (List Word × Command))
  | define (name : Octets) (body : Command)

/-- A letter, a digit or an underscore. -/
def isNameChar (c : Char) : Bool :=
  c.isAlphanum || c = '_'

/-- Whether a text may be the name of a variable. -/
def isName (t : Octets) : Bool :=
  match t with
  | [] => false
  | c :: _ => !c.isDigit && t.all isNameChar

/-- Words that are no commands but parts of them. -/
def isReserved (word : Octets) : Bool :=
  ["!", "case", "do", "done", "elif", "else", "esac", "fi", "for", "if", "in", "then", "until",
    "while", "\x7b", "\x7d"].any fun w => Text.ofString w == word

/-- A name and what follows the equals sign after it. -/
def assignment? (w : Word) : Option (Octets × Word) :=
  let name := w.takeWhile (· ≠ '=')
  match w.dropWhile (· ≠ '=') with
  | _ :: value => if isName name then some (name, value) else none
  | [] => none

end Literate.Shell
