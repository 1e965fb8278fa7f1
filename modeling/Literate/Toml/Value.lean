import Literate.Text.Basic

/-!
# TOML values

A TOML document is a table. A table remembers how it came to be, because that decides which later
lines may add to it: a table may have one header and may be filled by dotted keys, but not both, and
an inline table is never added to.
-/

namespace Literate.Toml

/-- How a table came to be. -/
inductive Origin where
  /-- By its own header. -/
  | header
  /-- By the header of a table inside it. -/
  | implied
  /-- By a dotted key. -/
  | dotted
  /-- In braces. -/
  | inline
deriving DecidableEq, Repr

/-- A value. What a number with a fraction or a date stands for is not kept. -/
inductive Value where
  | string (text : Text)
  | integer (n : Int)
  | boolean (b : Bool)
  | float
  | date
  | array (items : List Value)
  | table (origin : Origin) (entries : List (Text × Value))
  /-- An array of tables, each begun by a header in double brackets. -/
  | tables (tables : List (List (Text × Value)))

/-- The keys and values of a table. No key occurs twice in a table that was read. -/
abbrev Entries := List (Text × Value)

namespace Entries

/-- The value of a key. -/
def get? (entries : Entries) (key : Text) : Option Value :=
  (entries.find? fun entry => entry.1 == key).map Prod.snd

/-- The entries with the value of a key changed, or added at the end, by `f`, which may refuse. -/
def alter (key : Text) (f : Option Value → Option Value) : Entries → Option Entries
  | [] => (f none).map fun v => [(key, v)]
  | entry :: rest =>
    if entry.1 = key then
      (f (some entry.2)).map fun v => (key, v) :: rest
    else
      (alter key f rest).map (entry :: ·)

/-- The entries with a table inside them changed by `f`, which gets its origin and its entries. The
path leads to the table; tables missing on the way are made, and the way through an array of tables
is its last one. A path of dotted keys does not lead into a table that has a header. -/
def descend (dotted : Bool) (f : Origin → Entries → Option Entries) :
    List Text → Origin → Entries → Option Entries
  | [], origin, entries => f origin entries
  | key :: path, _, entries =>
    entries.alter key fun
      | none =>
        let made := if dotted then Origin.dotted else Origin.implied
        (descend dotted f path made []).map (Value.table made)
      | some (.table origin inner) =>
        if origin = .inline ∨ (dotted ∧ origin = .header) then
          none
        else
          (descend dotted f path origin inner).map (Value.table origin)
      | some (.tables tables) =>
        match tables.getLast? with
        | none => none
        | some last =>
          (descend dotted f path .header last).map fun last =>
            Value.tables (tables.dropLast ++ [last])
      | some _ => none

/-- A key that has no value yet gets one. A table filled by dotted keys takes values from dotted
keys alone, and no other table does. -/
def define (dotted : Bool) (key : Text) (value : Value) (origin : Origin) (entries : Entries) :
    Option Entries :=
  if (origin = .dotted) ↔ dotted then
    entries.alter key fun
      | none => some value
      | some _ => none
  else
    none

/-- The value of a dotted key set in a table. -/
def assign (origin : Origin) (entries : Entries) (path : List Text) (value : Value) :
    Option Entries :=
  match path.reverse with
  | [] => none
  | key :: front =>
    descend true (define (front ≠ []) key value) front.reverse origin entries

/-- A table begun by its header. It may be there already, without a header of its own. -/
def openTable (entries : Entries) (path : List Text) : Option Entries :=
  match path.reverse with
  | [] => none
  | key :: front =>
    descend false (fun _ inner => inner.alter key fun
      | none => some (.table .header [])
      | some (.table .implied own) => some (.table .header own)
      | some _ => none) front.reverse .header entries

/-- A table begun by a header in double brackets: one more of an array of tables. -/
def openItem (entries : Entries) (path : List Text) : Option Entries :=
  match path.reverse with
  | [] => none
  | key :: front =>
    descend false (fun _ inner => inner.alter key fun
      | none => some (.tables [[]])
      | some (.tables tables) => some (.tables (tables ++ [[]]))
      | some _ => none) front.reverse .header entries

/-- The value of a dotted key set in the table that a header at `path` began. -/
def assignIn (entries : Entries) (path key : List Text) (value : Value) : Option Entries :=
  descend false (fun origin inner => inner.assign origin key value) path .header entries

end Entries

end Literate.Toml
