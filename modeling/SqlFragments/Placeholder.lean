/-!
# Placeholders

A placeholder is a question mark outside quotes. Quotes are `'…'`, `"…"`, `` `…` `` and `[…]`; a
doubled closing quote needs no rule of its own, because it closes the quote and opens it again.
Where a dialect says so, a backslash in `'…'` or `"…"` takes away the meaning of the next character.

The text is read one character at a time by `Quote.step`, so the placeholders of two texts in a row
are those of the first and those of the second read on from where the first ended: `count_append`.
-/

namespace SqlFragments

/-- Where in a quote the reading of a text stands. -/
inductive Quote where
  | outside
  | inside (closing : Char)
  | escaped (closing : Char)
  deriving DecidableEq, Repr

namespace Quote

/-- The character that closes what this one opens. -/
def closing? (c : Char) : Option Char :=
  if c = '\'' ∨ c = '"' ∨ c = '`' then some c
  else if c = '[' then some ']'
  else none

/-- Whether a backslash may take away the meaning of a character in this quote. -/
def takesEscapes (closing : Char) : Bool := closing == '\'' || closing == '"'

/-- Where the reading stands after one more character. -/
def step (backslash : Bool) : Quote → Char → Quote
  | outside, c =>
    match closing? c with
    | some closing => inside closing
    | none => outside
  | inside closing, c =>
    if c = closing then outside
    else if c = '\\' && backslash && takesEscapes closing then escaped closing
    else inside closing
  | escaped closing, _ => inside closing

/-- Where the reading stands after a text. -/
def after (backslash : Bool) (q : Quote) (cs : List Char) : Quote :=
  cs.foldl (step backslash) q

/-- Whether a character read from here is a placeholder. -/
def marks (q : Quote) (c : Char) : Bool :=
  q == outside && c == '?'

/-- The placeholders of a text read from here. -/
def count (backslash : Bool) : Quote → List Char → Nat
  | _, [] => 0
  | q, c :: cs => (if q.marks c then 1 else 0) + count backslash (q.step backslash c) cs

/-- The text with its placeholders, read from here, numbered from `next` on as `$1`, `$2`, …. -/
def number (backslash : Bool) : Quote → Nat → List Char → List Char
  | _, _, [] => []
  | q, next, c :: cs =>
    if q.marks c then
      '$' :: (toString next).toList ++ number backslash (q.step backslash c) (next + 1) cs
    else c :: number backslash (q.step backslash c) next cs

theorem after_append (backslash : Bool) (q : Quote) (cs ds : List Char) :
    q.after backslash (cs ++ ds) = (q.after backslash cs).after backslash ds := by
  simp [after]

theorem count_append (backslash : Bool) (q : Quote) (cs ds : List Char) :
    q.count backslash (cs ++ ds) =
      q.count backslash cs + (q.after backslash cs).count backslash ds := by
  induction cs generalizing q with
  | nil => simp [count, after]
  | cons c cs ih => simp [count, after, ih, Nat.add_assoc]

end Quote

/-- The placeholders of a statement. -/
def countPlaceholders (backslash : Bool) (sql : String) : Nat :=
  Quote.outside.count backslash sql.toList

/-- The statement with its placeholders written `$1`, `$2`, …; a backslash is a character like any
other here. -/
def numberPlaceholders (sql : String) : String :=
  String.ofList (Quote.outside.number false 1 sql.toList)

end SqlFragments
