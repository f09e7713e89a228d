/-!
# Pieces of a text

Joining and cutting. `separated` joins pieces with a separator between neighbours; `splitOn` and
`splitArrows` cut at every separator and `breakWhere` at the first. `join_splitOn` says that cutting
loses nothing, so the pieces of a name give the name back.
-/

namespace SqlFragments.Text

/-- The pieces one after another, with `sep` between neighbours. -/
def separated (sep : String) : List String → String
  | [] => ""
  | [piece] => piece
  | piece :: next :: rest => piece ++ sep ++ separated sep (next :: rest)

/-- The pieces as a list that a statement writes, `a, b, c`. -/
def commaList (pieces : List String) : String :=
  separated ", " pieces

/-- Puts a character in front of the first piece. -/
def consFirst (c : Char) : List (List Char) → List (List Char)
  | [] => [[c]]
  | piece :: rest => (c :: piece) :: rest

/-- Cuts at every `sep`: a text with `n` separators has `n + 1` pieces. -/
def splitOn (sep : Char) : List Char → List (List Char)
  | [] => [[]]
  | c :: cs => if c = sep then [] :: splitOn sep cs else consFirst c (splitOn sep cs)

theorem splitOn_ne_nil (sep : Char) (cs : List Char) : splitOn sep cs ≠ [] := by
  cases cs with
  | nil => simp [splitOn]
  | cons c cs =>
    rw [splitOn]
    split
    · simp
    · cases splitOn sep cs <;> simp [consFirst]

/-- Joining the pieces with the separator gives the text back. -/
theorem join_splitOn (sep : Char) (cs : List Char) :
    List.intercalate [sep] (splitOn sep cs) = cs := by
  induction cs with
  | nil => simp [splitOn, List.intercalate]
  | cons c cs ih =>
    obtain ⟨piece, rest, h⟩ := List.exists_cons_of_ne_nil (splitOn_ne_nil sep cs)
    rw [splitOn]
    split
    · next hc => rw [h] at ih ⊢; simp_all [List.intercalate]
    · rw [h] at ih ⊢
      cases rest <;> simp_all [consFirst, List.intercalate]

/-- Cuts at every `->`, read from the left. -/
def splitArrows : List Char → List (List Char)
  | '-' :: '>' :: rest => [] :: splitArrows rest
  | c :: rest => consFirst c (splitArrows rest)
  | [] => [[]]

/-- What follows `word` where the text starts with it. -/
def after? : List Char → List Char → Option (List Char)
  | [], cs => some cs
  | _ :: _, [] => none
  | w :: word, c :: cs => if w = c then after? word cs else none

theorem after?_eq_some_iff {word cs rest : List Char} :
    after? word cs = some rest ↔ cs = word ++ rest := by
  induction word generalizing cs with
  | nil => simp [after?]
  | cons w word ih =>
    cases cs with
    | nil => simp [after?]
    | cons c cs =>
      by_cases same : w = c
      · simp [after?, same, ih]
      · simp [after?, same, Ne.symm same]

theorem after?_eq_none_iff {word cs : List Char} : after? word cs = none ↔ ¬ word <+: cs := by
  rw [Option.eq_none_iff_forall_ne_some]
  simp only [ne_eq, after?_eq_some_iff]
  exact ⟨fun other ⟨rest, same⟩ => other rest same.symm,
    fun other rest same => other ⟨rest, same.symm⟩⟩

theorem after?_append (word cs : List Char) : after? word (word ++ cs) = some cs :=
  after?_eq_some_iff.2 rfl

/-- Cuts at the first place where `mark` finds a mark, into what stands before and after it. -/
def breakWhere (mark : List Char → Option (List Char)) : List Char → Option (List Char × List Char)
  | [] => none
  | c :: cs =>
    match mark (c :: cs) with
    | some rest => some ([], rest)
    | none => (breakWhere mark cs).map fun (before, rest) => (c :: before, rest)

/-- The text with the first `old` replaced by `new`. -/
def replaceFirst (old new : String) (s : String) : String :=
  match breakWhere (after? old.toList) s.toList with
  | some (before, rest) => String.ofList (before ++ new.toList ++ rest)
  | none => s

/-- Whether `word` stands somewhere in the text; the empty word stands in every text. -/
def contains (s word : String) : Bool :=
  word.isEmpty || (breakWhere (after? word.toList) s.toList).isSome

/-- The characters with every `quote` written twice. -/
def doubled (quote : Char) : List Char → List Char
  | [] => []
  | c :: cs => if c = quote then quote :: quote :: doubled quote cs else c :: doubled quote cs

/-- A number padded with zeros on the left to at least `width` digits. -/
def zeroPadded (width n : Nat) : String :=
  let digits := toString n
  String.ofList (List.replicate (width - digits.length) '0') ++ digits

end SqlFragments.Text
