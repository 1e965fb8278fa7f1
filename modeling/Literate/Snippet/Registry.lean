import Literate.Snippet.Basic
import Literate.Text.Order

/-!
# Registries

A registry holds the snippets of a document by name. Binding a name changes its snippet, or adds one
for a name that has none.
-/

namespace Literate

/-- Snippets by name. No name occurs twice in a registry made by `insert`. -/
structure Registry where
  entries : List (Text × Snippet)
deriving DecidableEq, Repr

namespace Registry

/-- The registry without snippets. -/
def empty : Registry :=
  ⟨[]⟩

/-- The snippet of a name. -/
def get? (r : Registry) (name : Text) : Option Snippet :=
  (r.entries.find? fun entry => entry.1 == name).map Prod.snd

/-- Whether a name has a snippet. -/
def contains (r : Registry) (name : Text) : Bool :=
  (r.get? name).isSome

/-- Entries with a name bound to a snippet. -/
def bind (name : Text) (s : Snippet) : List (Text × Snippet) → List (Text × Snippet)
  | [] => [(name, s)]
  | entry :: rest => if entry.1 = name then (name, s) :: rest else entry :: bind name s rest

/-- The registry with a name bound to a snippet. -/
def insert (r : Registry) (name : Text) (s : Snippet) : Registry :=
  ⟨bind name s r.entries⟩

/-- The number of names. -/
def size (r : Registry) : Nat :=
  r.entries.length

/-- The names in order. -/
def names (r : Registry) : List Text :=
  (Text.sortByKey r.entries).map Prod.fst

theorem get?_insert (r : Registry) (name other : Text) (s : Snippet) :
    (r.insert name s).get? other = if name = other then some s else r.get? other := by
  obtain ⟨entries⟩ := r
  simp only [insert, get?]
  induction entries with
  | nil => by_cases h : name = other <;> simp [bind, h]
  | cons entry rest ih =>
    by_cases h : entry.1 = name
    · by_cases ho : name = other <;> simp [bind, h, ho]
    · rw [bind, if_neg h]
      by_cases ho : entry.1 = other
      · have hn : name ≠ other := fun e => h (ho.trans e.symm)
        simp [ho, hn]
      · rw [List.find?_cons_of_neg (by simpa using ho), List.find?_cons_of_neg (by simpa using ho)]
        exact ih

end Registry

end Literate
