import Literate.Shell.Command

/-!
# Words of the shell

Where a word of a script ends, and what it is made of. A word does not end inside quotes or inside a
construct that begins with a dollar sign; such a construct may hold others.
-/

namespace Literate.Shell

/-! ### Ends of words and constructs -/

/-- A construct inside a word that has not ended. -/
inductive Open where
  | single
  | double
  | parens
  | braces
  | back
deriving DecidableEq, Repr

/-- Whether single quotes stand for themselves inside the constructs that are open. -/
def Open.isDouble : List Open → Bool
  | .double :: _ | .braces :: .double :: _ => true
  | _ => false

/-- What the character `c`, with `next` after it, makes of the constructs that are open, and whether
`next` goes with it. -/
def Open.step (opened : List Open) (c : Char) (next : Option Char) : List Open × Bool :=
  match opened with
  | .single :: outer => (if c = '\'' then outer else opened, false)
  | .back :: outer =>
    if c = '\\' then (opened, true) else (if c = '\x60' then outer else opened, false)
  | _ =>
    if c = '\\' then (opened, true)
    else if c = '\x60' then (.back :: opened, false)
    else if c = '$' ∧ next = some '(' then (.parens :: opened, true)
    else if c = '$' ∧ next = some '\x7b' then (.braces :: opened, true)
    else if c = '\'' ∧ !Open.isDouble opened then (.single :: opened, false)
    else
      match opened with
      | .double :: outer => (if c = '"' then outer else opened, false)
      | .parens :: outer =>
        if c = '"' then (.double :: opened, false)
        else if c = '(' then (.parens :: opened, false)
        else (if c = ')' then outer else opened, false)
      | .braces :: outer =>
        if c = '"' then (.double :: opened, false)
        else (if c = '\x7d' then outer else opened, false)
      | _ => (if c = '"' then .double :: opened else opened, false)

/-- A character that ends a word. -/
def isMeta (c : Char) : Bool :=
  c = ' ' || c = '\t' || c = '\n' || c = ';' || c = '&' || c = '|' || c = '<' || c = '>' ||
    c = '(' || c = ')'

/-- The word that the text begins with, and what follows, or the construct that does not end; `acc`
is what has been read of the word, the last character first. -/
def scanWord (opened : List Open) (acc : Octets) : Octets → Except Open (Octets × Octets)
  | [] =>
    match opened with
    | [] => .ok (acc.reverse, [])
    | innermost :: _ => .error innermost
  | [c] =>
    if opened = [] ∧ isMeta c then .ok (acc.reverse, [c])
    else
      match (Open.step opened c none).1 with
      | [] => .ok ((c :: acc).reverse, [])
      | innermost :: _ => .error innermost
  | c :: d :: t =>
    if opened = [] ∧ isMeta c then
      .ok (acc.reverse, c :: d :: t)
    else if c = '\\' ∧ d = '\n' ∧ opened.head? ≠ some .single then
      scanWord opened acc t
    else
      match Open.step opened c (some d) with
      | (opened, true) => scanWord opened (d :: c :: acc) t
      | (opened, false) => scanWord opened (c :: acc) (d :: t)

/-- What lies before the character that ends a construct, and what follows it. The construct has
ended when only the constructs in `base` are open. -/
def untilClosed (base opened : List Open) (acc : Octets) : Octets → Octets × Octets
  | [] => (acc.reverse, [])
  | [c] =>
    if (Open.step opened c none).1 = base then (acc.reverse, []) else ((c :: acc).reverse, [])
  | c :: d :: t =>
    match Open.step opened c (some d) with
    | (opened, true) => untilClosed base opened (d :: c :: acc) t
    | (opened, false) =>
      if opened = base then (acc.reverse, d :: t) else untilClosed base opened (c :: acc) (d :: t)

/-- A word without its quotes, and whether it had any. -/
def unquote (inDouble : Bool) : Word → Octets × Bool
  | [] => ([], false)
  | '\\' :: c :: t => let (u, _) := unquote inDouble t; (c :: u, true)
  | '"' :: t => let (u, _) := unquote (!inDouble) t; (u, true)
  | '\'' :: t => let (u, _) := unquote inDouble t; (u, true)
  | c :: t => let (u, quoted) := unquote inDouble t; (c :: u, quoted)

/-! ### Parts of words -/

/-- Where a part of a word stands: outside quotes, inside double quotes, or in a text of the script
that a command reads. -/
inductive Context where
  | bare
  | double
  | here
deriving DecidableEq, Repr

/-- A part of a word. `quoted` says whether it stands inside quotes. -/
inductive Segment where
  | char (c : Char) (quoted : Bool)
  /-- Quotes, which make a word even if there is nothing inside them. -/
  | quotes
  /-- The home directory. -/
  | home
  | parameter (quoted : Bool) (body : Octets)
  | command (quoted : Bool) (script : Octets)
  | arithmetic (quoted : Bool) (expression : Octets)
deriving DecidableEq, Repr

/-- A script between backquotes without the backslashes that protect it. -/
def unescapeBack (quoted : Bool) : Octets → Octets
  | [] => []
  | '\\' :: c :: t =>
    if c = '\\' ∨ c = '$' ∨ c = '\x60' ∨ (quoted ∧ c = '"') then c :: unescapeBack quoted t
    else '\\' :: c :: unescapeBack quoted t
  | c :: t => c :: unescapeBack quoted t

/-- Whether a backslash in a context protects the character after it. -/
def Context.protects (context : Context) (c : Char) : Bool :=
  match context with
  | .bare => true
  | .double => c = '$' || c = '\x60' || c = '\\' || c = '"'
  | .here => c = '$' || c = '\x60' || c = '\\'

/-- The parameter of a text that follows a dollar sign, and what follows it: a name, a digit or a
special character. -/
def parameterName (t : Octets) : Octets × Octets :=
  match t with
  | [] => ([], [])
  | c :: rest =>
    if c.isDigit ∨ ['@', '*', '#', '?', '-', '$', '!'].contains c then ([c], rest)
    else (t.takeWhile isNameChar, t.dropWhile isNameChar)

/-- What a dollar sign begins, and what follows it. -/
def dollar (context : Context) (t : Octets) : Segment × Octets :=
  let quoted := context ≠ .bare
  match t with
  | '(' :: t =>
    let (inside, rest) := untilClosed [] [.parens] [] t
    match inside, inside.getLast? with
    | '(' :: expression, some ')' => (.arithmetic quoted expression.dropLast, rest)
    | _, _ => (.command quoted inside, rest)
  | '\x7b' :: t =>
    let base := if quoted then [.double] else []
    let (inside, rest) := untilClosed base (.braces :: base) [] t
    (.parameter quoted inside, rest)
  | _ =>
    match parameterName t with
    | ([], _) => (.char '$' quoted, t)
    | (name, rest) => (.parameter quoted name, rest)

/-- The parts of a word; at most `count` of them. -/
def segmentsFrom : (count : Nat) → Context → Octets → List Segment
  | 0, _, _ => []
  | _ + 1, _, [] => []
  | count + 1, context, c :: t =>
    let quoted := context ≠ .bare
    if c = '\\' then
      match t with
      | [] => [.char '\\' quoted]
      | d :: rest =>
        if d = '\n' then segmentsFrom count context rest
        else if context.protects d then .char d true :: segmentsFrom count context rest
        else .char '\\' true :: segmentsFrom count context t
    else if c = '\'' ∧ context = .bare then
      let inside := t.takeWhile (· ≠ '\'')
      .quotes :: inside.map (Segment.char · true) ++
        segmentsFrom count context ((t.dropWhile (· ≠ '\'')).drop 1)
    else if c = '"' ∧ context ≠ .here then
      .quotes :: segmentsFrom count (if context = .bare then .double else .bare) t
    else if c = '\x60' then
      let (inside, rest) := untilClosed [] [.back] [] t
      .command quoted (unescapeBack quoted inside) :: segmentsFrom count context rest
    else if c = '$' then
      let (segment, rest) := dollar context t
      segment :: segmentsFrom count context rest
    else
      .char c quoted :: segmentsFrom count context t

/-- The parts of a word. -/
def segments (context : Context) (w : Octets) : List Segment :=
  match context, w with
  | .bare, ['~'] => [.home]
  | .bare, '~' :: '/' :: _ => .home :: segmentsFrom w.length .bare (w.drop 1)
  | _, _ => segmentsFrom (w.length + 1) context w

end Literate.Shell
