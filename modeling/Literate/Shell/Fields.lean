import Literate.Shell.Pattern

/-!
# Fields

A word that has been expanded falls into fields, the arguments of a command. It is cut only at
separators that came out of an expansion outside quotes.
-/

namespace Literate.Shell

/-- A piece of an expanded word. -/
inductive Piece where
  | char (c : Char) (quoted : Bool)
  /-- A character that came out of an expansion outside quotes. -/
  | loose (c : Char)
  /-- Quotes: there is a field here, even if it is empty. -/
  | quotes
  /-- The end of an argument before the next one, where all arguments are expanded. -/
  | gap
  /-- No argument at all, where all arguments are expanded inside quotes. -/
  | absent
deriving DecidableEq, Repr

/-- The character of a piece, if it has one. -/
def Piece.char? : Piece → Option Char
  | char c _ | loose c => some c
  | quotes | gap | absent => none

/-- The characters of pieces. -/
def Piece.text (pieces : List Piece) : Octets :=
  pieces.filterMap Piece.char?

/-- The characters of pieces, marked as quoted or not. -/
def Piece.marked (pieces : List Piece) : List Marked :=
  pieces.filterMap fun piece => match piece with
    | .char c quoted => some ⟨c, quoted⟩
    | .loose c => some ⟨c, false⟩
    | _ => none

/-- The field that is being put together, its last character first. `begun` says whether there is
one, and `void` whether it goes unless it gets a character. -/
structure Field where
  acc : List Marked
  begun : Bool
  void : Bool
deriving DecidableEq, Repr

/-- No field. -/
def Field.none : Field := ⟨[], false, false⟩

/-- The field as a list of at most one. -/
def Field.finished (field : Field) : List (List Marked) :=
  if field.begun ∧ !(field.acc.isEmpty ∧ field.void) then [field.acc.reverse] else []

/-- The field with another character. -/
def Field.push (field : Field) (m : Marked) : Field :=
  ⟨m :: field.acc, true, field.void⟩

/-- A separator that merges with its neighbours. -/
def isBlankSeparator (c : Char) : Bool :=
  c = ' ' || c = '\t' || c = '\n'

/-- The fields of pieces, after the field that has been begun. `soft` says that blank separators
have just ended a field, so that one other separator right after them adds none. -/
def fieldsFrom (separators : Octets) (field : Field) (soft : Bool) : List Piece → List (List Marked)
  | [] => field.finished
  | .char c quoted :: rest => fieldsFrom separators (field.push ⟨c, quoted⟩) false rest
  | .quotes :: rest => fieldsFrom separators { field with begun := true } false rest
  | .absent :: rest => fieldsFrom separators { field with void := true } false rest
  | .gap :: rest => field.finished ++ fieldsFrom separators .none false rest
  | .loose c :: rest =>
    if !separators.contains c then
      fieldsFrom separators (field.push ⟨c, false⟩) false rest
    else if isBlankSeparator c then
      field.finished ++ fieldsFrom separators .none (field.begun || soft) rest
    else if field.begun then
      field.finished ++ fieldsFrom separators .none false rest
    else if soft then
      fieldsFrom separators .none false rest
    else
      [] :: fieldsFrom separators .none false rest

/-- The fields of an expanded word. -/
def fields (separators : Octets) (pieces : List Piece) : List (List Marked) :=
  fieldsFrom separators .none false pieces

end Literate.Shell
