import Mathlib.Data.List.Basic
import SqlFragments.Statement.Name

/-!
# How a database reads a statement

A database reads a statement as a row of `Lexeme`s: characters outside quotes, and quoted texts with
what stands between their quotes. `Dialect.lexemes` is this reading for each dialect. Unlike the
scan for placeholders it knows which quotes its dialect has, it looks ahead for the second of two
closing quotes, which together stand for one, and it tells what is meant by an escape.

A name is read back as it was given (`Dialect.lexemes_quoteChars`), and so is a string literal whose
content needs no doubling and no escape (`Dialect.lexemes_literal`). Where nothing is escaped the
lexemes spell the text that they are read from (`Dialect.spelled_lexemes`), so a text can be changed
lexeme by lexeme.
-/

namespace SqlFragments

namespace Text

/-- A text without the character is not changed by doubling it. -/
theorem doubled_of_notMem {quote : Char} {cs : List Char} (h : quote ∉ cs) :
    doubled quote cs = cs := by
  induction cs with
  | nil => rfl
  | cons c cs ih =>
    rw [List.mem_cons, not_or] at h
    rw [doubled, if_neg (Ne.symm h.1), ih h.2]

theorem doubled_append (quote : Char) (cs ds : List Char) :
    doubled quote (cs ++ ds) = doubled quote cs ++ doubled quote ds := by
  induction cs with
  | nil => rfl
  | cons c cs ih =>
    rw [List.cons_append, doubled, doubled, ih]
    split <;> rfl

end Text

/-- A pair of quotes, around a string literal or around a name. -/
structure QuotePair where
  opening : Char
  closing : Char
  isLiteral : Bool
  deriving DecidableEq, Repr

/-- What a text is read as. -/
inductive Lexeme where
  | bare (c : Char)
  | quoted (pair : QuotePair) (content : List Char)
  | unclosed (pair : QuotePair) (content : List Char)
  deriving DecidableEq, Repr

namespace Lexeme

/-- The characters that are read as the lexeme where nothing is escaped. -/
def spelled : Lexeme → List Char
  | bare c => [c]
  | quoted pair content => pair.opening :: Text.doubled pair.closing content ++ [pair.closing]
  | unclosed pair content => pair.opening :: Text.doubled pair.closing content

/-- The content of a string literal. -/
def literal? : Lexeme → Option (List Char)
  | quoted ⟨_, _, true⟩ content => some content
  | _ => none

end Lexeme

/-- The text of lexemes where nothing is escaped. -/
def Lexeme.spelling (ls : List Lexeme) : List Char := ls.flatMap Lexeme.spelled

/-- Whether the quotes of the lexeme are closed. -/
def Lexeme.isClosed : Lexeme → Bool
  | unclosed _ _ => false
  | _ => true

/-- Whether every quote that is opened is closed. -/
def Lexeme.Closed (ls : List Lexeme) : Prop := ∀ x ∈ ls, x.isClosed = true

instance (ls : List Lexeme) : Decidable (Lexeme.Closed ls) :=
  inferInstanceAs (Decidable (∀ x ∈ ls, x.isClosed = true))

/-- Where the reading of a statement stands. Behind a closing quote it is still open whether the
quote is one of two that stand for one. -/
inductive Lexing where
  | outside
  | inside (pair : QuotePair) (content : List Char)
  | escaped (pair : QuotePair) (content : List Char)
  | behind (pair : QuotePair) (content : List Char)

namespace Lexing

/-- What is read where the text ends. -/
def ended : Lexing → List Lexeme
  | outside => []
  | inside pair content | escaped pair content => [.unclosed pair content]
  | behind pair content => [.quoted pair content]

/-- The characters that were taken in and are no lexeme yet. -/
def taken : Lexing → List Char
  | outside => []
  | inside pair content | escaped pair content => (Lexeme.unclosed pair content).spelled
  | behind pair content => (Lexeme.quoted pair content).spelled

end Lexing

/-- What a backslash and a character behind it stand for in a string literal. -/
def escapeMeaning : Char → List Char
  | '0' => ['\x00']
  | 'b' => ['\x08']
  | 'n' => ['\n']
  | 'r' => ['\r']
  | 't' => ['\t']
  | 'Z' => ['\x1a']
  | '%' => ['\\', '%']
  | '_' => ['\\', '_']
  | c => [c]

namespace Dialect

/-- The quotes around a name. -/
def nameQuotes (d : Dialect) : QuotePair := ⟨d.opening, d.closing, false⟩

/-- The quotes around a string literal. -/
def literalQuotes (c : Char) : QuotePair := ⟨c, c, true⟩

/-- The quotes that a character opens. Double quotes are those of a literal on MySQL. -/
def quotes? (d : Dialect) (c : Char) : Option QuotePair :=
  if c = d.opening then some d.nameQuotes
  else if c = '\'' ∨ d = mysql ∧ c = '"' then some (literalQuotes c)
  else none

/-- Whether a backslash escapes the character behind it. -/
def escapesIn (d : Dialect) (pair : QuotePair) : Bool := d.escapesBackslash && pair.isLiteral

/-- Reads a character outside quotes. -/
def readOutside (d : Dialect) (c : Char) : List Lexeme × Lexing :=
  match d.quotes? c with
  | some pair => ([], .inside pair [])
  | none => ([.bare c], .outside)

/-- Reads a character: the lexemes that it completes, and where the reading stands. -/
def read (d : Dialect) : Lexing → Char → List Lexeme × Lexing
  | .outside, c => d.readOutside c
  | .inside pair content, c =>
    if c = pair.closing then ([], .behind pair content)
    else if c = '\\' && d.escapesIn pair then ([], .escaped pair content)
    else ([], .inside pair (content ++ [c]))
  | .escaped pair content, c => ([], .inside pair (content ++ escapeMeaning c))
  | .behind pair content, c =>
    if c = pair.closing then ([], .inside pair (content ++ [c]))
    else (.quoted pair content :: (d.readOutside c).1, (d.readOutside c).2)

/-- The lexemes of a text that is read on from `s`. -/
def lexemesFrom (d : Dialect) : Lexing → List Char → List Lexeme
  | s, [] => s.ended
  | s, c :: cs => (d.read s c).1 ++ lexemesFrom d (d.read s c).2 cs

/-- The lexemes of a text. -/
def lexemes (d : Dialect) (cs : List Char) : List Lexeme := d.lexemesFrom .outside cs

variable {d : Dialect} {c : Char} {cs rest : List Char} {pair : QuotePair} {s : Lexing}

@[simp] theorem lexemes_nil (d : Dialect) : d.lexemes [] = [] := rfl

/-- Whether the character means nothing but itself outside quotes. -/
def IsBare (d : Dialect) (c : Char) : Prop := d.quotes? c = none

instance (d : Dialect) (c : Char) : Decidable (d.IsBare c) :=
  inferInstanceAs (Decidable (d.quotes? c = none))

/-- A text that means nothing but itself outside quotes. -/
def IsWord (d : Dialect) (cs : List Char) : Prop := ∀ c ∈ cs, d.IsBare c

instance (d : Dialect) (cs : List Char) : Decidable (d.IsWord cs) :=
  List.decidableBAll d.IsBare cs

theorem lexemes_cons_of_bare (bare : d.IsBare c) (cs : List Char) :
    d.lexemes (c :: cs) = .bare c :: d.lexemes cs := by
  have step : d.read .outside c = ([.bare c], .outside) := by
    simp only [read, readOutside]
    rw [bare]
  rw [lexemes, lexemesFrom, step]
  rfl

theorem lexemes_word (word : d.IsWord cs) (rest : List Char) :
    d.lexemes (cs ++ rest) = cs.map .bare ++ d.lexemes rest := by
  induction cs with
  | nil => rfl
  | cons c cs ih =>
    have later := ih fun e he => word e (List.mem_cons_of_mem c he)
    rw [List.cons_append, lexemes_cons_of_bare (word c List.mem_cons_self), later]
    rfl

/-! ## Quoted texts -/

/-- What stands between quotes is read to the closing one, the closing character being written
twice inside. -/
theorem lexemesFrom_inside {content : List Char}
    (unescaped : d.escapesIn pair = true → '\\' ∉ content) (before cs : List Char) :
    d.lexemesFrom (.inside pair before) (Text.doubled pair.closing content ++ pair.closing :: cs) =
      d.lexemesFrom (.behind pair (before ++ content)) cs := by
  induction content generalizing before with
  | nil =>
    rw [List.append_nil, Text.doubled, List.nil_append, lexemesFrom, read, if_pos rfl]
    rfl
  | cons c content ih =>
    have later := ih (fun h member => unescaped h (List.mem_cons_of_mem c member)) (before ++ [c])
    rw [List.append_assoc, List.singleton_append] at later
    rw [Text.doubled]
    split
    · next closing =>
      have first : d.read (.inside pair before) pair.closing = ([], .behind pair before) :=
        if_pos rfl
      have second : d.read (.behind pair before) pair.closing =
          ([], .inside pair (before ++ [pair.closing])) := if_pos rfl
      rw [List.cons_append, List.cons_append, lexemesFrom, first, lexemesFrom, second, ← closing]
      rw [closing] at later ⊢
      exact later
    · next other =>
      have plain : (c = '\\' && d.escapesIn pair) = false := by
        by_cases escapes : d.escapesIn pair = true
        · have differs : c ≠ '\\' := fun same => unescaped escapes (same ▸ List.mem_cons_self)
          simp [differs]
        · simp [escapes]
      have step : d.read (.inside pair before) c = ([], .inside pair (before ++ [c])) := by
        simp [read, other, plain]
      rw [List.cons_append, lexemesFrom, step]
      exact later

/-- Behind a closing quote any other character is read as outside. -/
theorem lexemesFrom_behind {content : List Char} (apart : cs.head? ≠ some pair.closing) :
    d.lexemesFrom (.behind pair content) cs = .quoted pair content :: d.lexemes cs := by
  cases cs with
  | nil => rfl
  | cons c cs =>
    have other : c ≠ pair.closing := by simpa using apart
    rw [lexemesFrom, read, if_neg other]
    rfl

theorem lexemes_quoted {content : List Char} (own : d.quotes? pair.opening = some pair)
    (unescaped : d.escapesIn pair = true → '\\' ∉ content)
    (apart : rest.head? ≠ some pair.closing) :
    d.lexemes ((Lexeme.quoted pair content).spelled ++ rest) =
      .quoted pair content :: d.lexemes rest := by
  have opened : d.read .outside pair.opening = ([], .inside pair []) := by
    simp only [read, readOutside]
    rw [own]
  have inner := lexemesFrom_inside unescaped [] rest
  rw [lexemes, Lexeme.spelled, List.cons_append, List.cons_append, List.append_assoc,
    List.singleton_append, lexemesFrom, opened, List.nil_append, inner, List.nil_append,
    lexemesFrom_behind apart]

/-- A quoted name is read as the name, whatever characters it has. -/
theorem lexemes_quoteChars (name : List Char) (apart : rest.head? ≠ some d.closing) :
    d.lexemes (d.quoteChars name ++ rest) = .quoted d.nameQuotes name :: d.lexemes rest := by
  have own : d.quotes? d.nameQuotes.opening = some d.nameQuotes := if_pos rfl
  refine lexemes_quoted own ?_ apart
  intro escapes
  simp [escapesIn, nameQuotes] at escapes

/-- A string literal whose content has neither a quote nor a backslash is read as it is. -/
theorem lexemes_literal (d : Dialect) {content : List Char}
    (quiet : '\'' ∉ content ∧ '\\' ∉ content) (apart : rest.head? ≠ some '\'') :
    d.lexemes ('\'' :: content ++ '\'' :: rest) =
      .quoted (literalQuotes '\'') content :: d.lexemes rest := by
  have own : d.quotes? (literalQuotes '\'').opening = some (literalQuotes '\'') := by
    cases d <;> rfl
  have read := lexemes_quoted own (fun _ => quiet.2) apart
  rw [Lexeme.spelled, literalQuotes, Text.doubled_of_notMem quiet.1, List.append_assoc] at read
  exact read

/-! ## The text of lexemes -/

/-- Quotes that the dialect has. -/
def Own (d : Dialect) (pair : QuotePair) : Prop := d.quotes? pair.opening = some pair

theorem opening_of_quotes? (h : d.quotes? c = some pair) : pair.opening = c := by
  unfold quotes? at h
  split at h
  · next first =>
    cases h
    exact first.symm
  · split at h
    · cases h
      rfl
    · cases h

theorem own_of_quotes? (h : d.quotes? c = some pair) : d.Own pair := by
  rw [Own, opening_of_quotes? h, h]

/-- What the dialect can read: a bare character is no quote of its, and quotes are its own. -/
def Reads (d : Dialect) : Lexeme → Prop
  | .bare c => d.IsBare c
  | .quoted pair _ | .unclosed pair _ => d.Own pair

/-- A reading stands between quotes that the dialect has. -/
def StandsIn (d : Dialect) : Lexing → Prop
  | .outside => True
  | .inside pair _ | .escaped pair _ | .behind pair _ => d.Own pair

theorem readOutside_own (d : Dialect) (c : Char) :
    (∀ x ∈ (d.readOutside c).1, d.Reads x) ∧ d.StandsIn (d.readOutside c).2 := by
  unfold readOutside
  split
  · next pair opened =>
    constructor
    · intro x member
      cases member
    · exact own_of_quotes? opened
  · next bare =>
    constructor
    · intro x member
      rw [List.mem_singleton.1 member]
      exact bare
    · trivial

theorem read_own (standing : d.StandsIn s) (c : Char) :
    (∀ x ∈ (d.read s c).1, d.Reads x) ∧ d.StandsIn (d.read s c).2 := by
  have nothing : ∀ x ∈ ([] : List Lexeme), d.Reads x := fun x member => nomatch member
  cases s with
  | outside => exact d.readOutside_own c
  | inside pair content =>
    rw [read]
    split
    · exact ⟨nothing, standing⟩
    · split
      · exact ⟨nothing, standing⟩
      · exact ⟨nothing, standing⟩
  | escaped pair content => exact ⟨nothing, standing⟩
  | behind pair content =>
    rw [read]
    split
    · exact ⟨nothing, standing⟩
    · have next := d.readOutside_own c
      exact ⟨List.forall_mem_cons.2 ⟨standing, next.1⟩, next.2⟩

theorem reads_of_mem_from (standing : d.StandsIn s) : ∀ x ∈ d.lexemesFrom s cs, d.Reads x := by
  induction cs generalizing s with
  | nil =>
    intro x member
    cases s with
    | outside => cases member
    | inside pair content | escaped pair content | behind pair content =>
      rw [List.mem_singleton.1 member]
      exact standing
  | cons c cs ih =>
    have step := read_own standing c
    rw [lexemesFrom]
    exact List.forall_mem_append.2 ⟨step.1, ih step.2⟩

/-- A dialect reads its own quotes and what is no quote of its. -/
theorem reads_of_mem : ∀ x ∈ d.lexemes cs, d.Reads x :=
  reads_of_mem_from (s := .outside) trivial

/-- A text whose quotes are closed is read on its own, whatever comes behind it that does not start
with a closing quote. -/
theorem lexemes_append (closed : Lexeme.Closed (d.lexemes cs))
    (apart : ∀ pair, d.Own pair → rest.head? ≠ some pair.closing) :
    d.lexemes (cs ++ rest) = d.lexemes cs ++ d.lexemes rest := by
  have all : ∀ s, d.StandsIn s → Lexeme.Closed (d.lexemesFrom s cs) →
      d.lexemesFrom s (cs ++ rest) = d.lexemesFrom s cs ++ d.lexemes rest := by
    clear closed
    induction cs with
    | nil =>
      intro s standing closed
      cases s with
      | outside => rfl
      | inside pair content | escaped pair content =>
        cases closed (.unclosed pair content) List.mem_cons_self
      | behind pair content => exact lexemesFrom_behind (apart pair standing)
    | cons c cs ih =>
      intro s standing closed
      have step := read_own standing c
      rw [lexemesFrom] at closed
      have later : Lexeme.Closed (d.lexemesFrom (d.read s c).2 cs) := fun x member =>
        closed x (List.mem_append_right _ member)
      rw [List.cons_append, lexemesFrom, lexemesFrom, ih _ step.2 later, List.append_assoc]
  exact all .outside trivial closed

/-- A reading that has not just met an escape. -/
def Steady : Lexing → Prop
  | .escaped _ _ => False
  | _ => True

theorem readOutside_spelled (d : Dialect) (c : Char) :
    Lexeme.spelling (d.readOutside c).1 ++ (d.readOutside c).2.taken = [c] ∧
      Steady (d.readOutside c).2 := by
  unfold readOutside
  split
  · next pair opened =>
    refine ⟨?_, trivial⟩
    rw [← opening_of_quotes? opened]
    rfl
  · exact ⟨rfl, trivial⟩

/-- Reading a character loses nothing of the text. -/
theorem read_spelled (plain : d.escapesBackslash = false) (steady : Steady s) (c : Char) :
    Lexeme.spelling (d.read s c).1 ++ (d.read s c).2.taken = s.taken ++ [c] ∧
      Steady (d.read s c).2 := by
  cases s with
  | outside => exact d.readOutside_spelled c
  | inside pair content =>
    by_cases closing : c = pair.closing
    · simp [read, closing, Lexing.taken, Lexeme.spelled, Lexeme.spelling, Steady]
    · simp [read, closing, escapesIn, plain, Lexing.taken, Lexeme.spelled, Lexeme.spelling, Steady,
        Text.doubled_append, Text.doubled]
  | escaped pair content => exact steady.elim
  | behind pair content =>
    by_cases closing : c = pair.closing
    · simp [read, closing, Lexing.taken, Lexeme.spelled, Lexeme.spelling, Steady,
        Text.doubled_append, Text.doubled]
    · have next := d.readOutside_spelled c
      have step : d.read (.behind pair content) c =
          (.quoted pair content :: (d.readOutside c).1, (d.readOutside c).2) := if_neg closing
      rw [step]
      refine ⟨?_, next.2⟩
      rw [Lexeme.spelling, List.flatMap_cons, List.append_assoc]
      exact congrArg ((Lexeme.quoted pair content).spelled ++ ·) next.1

/-- Where nothing is escaped the lexemes spell the text that they are read from. -/
theorem spelled_lexemes (plain : d.escapesBackslash = false) (cs : List Char) :
    Lexeme.spelling (d.lexemes cs) = cs := by
  have all : ∀ s, Steady s → Lexeme.spelling (d.lexemesFrom s cs) = s.taken ++ cs := by
    induction cs with
    | nil =>
      intro s steady
      cases s with
      | outside => rfl
      | inside pair content | behind pair content =>
        simp [lexemesFrom, Lexing.ended, Lexing.taken, Lexeme.spelling]
      | escaped pair content => exact steady.elim
    | cons c cs ih =>
      intro s steady
      have step := read_spelled plain steady c
      have later := ih _ step.2
      rw [Lexeme.spelling] at later
      rw [lexemesFrom, Lexeme.spelling, List.flatMap_append, later, ← List.append_assoc]
      have same := congrArg (· ++ cs) step.1
      simpa [Lexeme.spelling] using same
  exact all .outside trivial

end Dialect

end SqlFragments
