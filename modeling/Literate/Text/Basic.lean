import Literate.Unicode.WhiteSpace

/-!
# Text

A text is a list of characters. This module holds what every other one asks of it: its size in
bytes, blank texts and trimming, the words of a text, what follows a given beginning, and the
replacement of every occurrence of a piece.
-/

namespace Literate

/-- A text, character by character. -/
abbrev Text := List Char

namespace Text

instance : LawfulBEq Text :=
  inferInstanceAs (LawfulBEq (List Char))

/-- The text of a string literal. -/
def ofString (s : String) : Text :=
  s.toList

/-- The string with the characters of a text. -/
def toString (t : Text) : String :=
  String.ofList t

/-! ### Bytes -/

/-- The number of bytes of a text in UTF-8. -/
def byteLength : Text → Nat
  | [] => 0
  | c :: t => c.utf8Size + byteLength t

@[simp] theorem byteLength_nil : byteLength [] = 0 := rfl

@[simp] theorem byteLength_cons (c : Char) (t : Text) :
    byteLength (c :: t) = c.utf8Size + byteLength t := rfl

@[simp] theorem byteLength_append (s t : Text) :
    byteLength (s ++ t) = byteLength s + byteLength t := by
  induction s with
  | nil => simp
  | cons c s ih => simp [ih, Nat.add_assoc]

/-- The characters that begin before byte `n`. -/
def takeBytes : Nat → Text → Text
  | 0, _ => []
  | _ + 1, [] => []
  | n + 1, c :: t => c :: takeBytes (n + 1 - c.utf8Size) t

/-- The characters that begin at byte `n` or after it. -/
def dropBytes : Nat → Text → Text
  | 0, t => t
  | _ + 1, [] => []
  | n + 1, c :: t => dropBytes (n + 1 - c.utf8Size) t

/-- A text is cut at a byte without losing a character. -/
theorem takeBytes_append_dropBytes (n : Nat) (t : Text) :
    takeBytes n t ++ dropBytes n t = t := by
  induction t generalizing n with
  | nil => cases n <;> rfl
  | cons c t ih =>
    cases n with
    | zero => rfl
    | succ n => simp [takeBytes, dropBytes, ih]

/-! ### Blank texts and trimming -/

/-- Nothing but white space. -/
def isBlank (t : Text) : Bool :=
  t.all Unicode.isWhiteSpace

/-- Without the white space it begins with. -/
def trimStart (t : Text) : Text :=
  t.dropWhile Unicode.isWhiteSpace

/-- Without the white space it ends with. -/
def trimEnd (t : Text) : Text :=
  (t.reverse.dropWhile Unicode.isWhiteSpace).reverse

/-- Without the white space at both ends. -/
def trim (t : Text) : Text :=
  trimEnd (trimStart t)

/-- The characters CR and LF, which end lines. -/
def isLineEnd (c : Char) : Bool :=
  c = '\r' || c = '\n'

/-- The run of CR and LF characters a text ends with. -/
def lineEnd (t : Text) : Text :=
  (t.reverse.takeWhile isLineEnd).reverse

/-- Without the run of CR and LF characters it ends with. -/
def dropLineEnd (t : Text) : Text :=
  (t.reverse.dropWhile isLineEnd).reverse

theorem dropLineEnd_append_lineEnd (t : Text) : dropLineEnd t ++ lineEnd t = t := by
  rw [dropLineEnd, lineEnd, ← List.reverse_append, List.takeWhile_append_dropWhile,
    List.reverse_reverse]

/-! ### Words -/

/-- The maximal pieces of a text without white space. -/
def words : Text → List Text
  | [] => []
  | c :: t =>
    if Unicode.isWhiteSpace c then
      words t
    else if t.head?.all Unicode.isWhiteSpace then
      [c] :: words t
    else
      match words t with
      | [] => [[c]]
      | word :: rest => (c :: word) :: rest

/-! ### Runs of characters -/

/-- A run of characters is cut off where a text goes on with another one. -/
theorem takeWhile_append_of_head {p : Char → Bool} {s t : Text} (hs : ∀ c ∈ s, p c = true)
    (ht : ∀ c ∈ t.head?, p c = false) : (s ++ t).takeWhile p = s := by
  rw [List.takeWhile_append_of_pos hs]
  cases t with
  | nil => simp
  | cons c t => simp [ht c rfl]

/-- What follows a run of characters. -/
theorem dropWhile_append_of_head {p : Char → Bool} {s t : Text} (hs : ∀ c ∈ s, p c = true)
    (ht : ∀ c ∈ t.head?, p c = false) : (s ++ t).dropWhile p = t := by
  rw [List.dropWhile_append_of_pos hs]
  cases t with
  | nil => simp
  | cons c t => simp [ht c rfl]

/-! ### Beginnings and occurrences -/

/-- What follows `start`, if the text begins with it. -/
def after? (start t : Text) : Option Text :=
  match start, t with
  | [], t => some t
  | _ :: _, [] => none
  | a :: start, c :: t => if a = c then after? start t else none

theorem after?_eq_some_iff {start t rest : Text} :
    after? start t = some rest ↔ t = start ++ rest := by
  induction start generalizing t with
  | nil => simp [after?, eq_comm]
  | cons a start ih =>
    cases t with
    | nil => simp [after?]
    | cons c t =>
      by_cases h : a = c
      · simp [after?, h, ih]
      · simp [after?, h, Ne.symm h]

/-- Whether the text begins with `start`. -/
def beginsWith (start t : Text) : Bool :=
  (after? start t).isSome

/-- The text with every occurrence of `piece` replaced, read from left to right; the pieces found
do not overlap. The first argument counts the characters still to be passed of an occurrence that
has been replaced already. -/
def replaceFrom (piece new : Text) : Nat → Text → Text
  | _, [] => []
  | passing + 1, _ :: t => replaceFrom piece new passing t
  | 0, c :: t =>
    if beginsWith piece (c :: t) then
      new ++ replaceFrom piece new (piece.length - 1) t
    else
      c :: replaceFrom piece new 0 t

/-- The text with every occurrence of the non-empty text `piece` replaced by `new`. -/
def replaceAll (piece new t : Text) : Text :=
  replaceFrom piece new 0 t

/-- Whether `piece` stands somewhere in the text. -/
def occurs (piece : Text) : Text → Bool
  | [] => beginsWith piece []
  | c :: t => beginsWith piece (c :: t) || occurs piece t

/-- The texts one after the other, `separator` between two neighbours. -/
def join (separator : Text) : List Text → Text
  | [] => []
  | [t] => t
  | t :: rest => t ++ separator ++ join separator rest

@[simp] theorem join_nil (separator : Text) : join separator [] = [] := rfl

@[simp] theorem join_singleton (separator t : Text) : join separator [t] = t := rfl

@[simp] theorem join_cons_cons (separator t u : Text) (rest : List Text) :
    join separator (t :: u :: rest) = t ++ separator ++ join separator (u :: rest) := rfl

end Text

end Literate
