import SqlFragments.Proofs.Lexing

/-!
# Names as a database reads them

A name is taken apart at the first ` as ` and before it at every point. `Name.Of` says so without an
algorithm, and `Name.of_ofChars` that names are taken apart in this way.

What a dialect writes for a name is read back as it was given, whatever characters the name has: its
segments with points between them, each quoted as a whole or a bare star, then perhaps ` as ` and
the quoted alias (`Dialect.wrap_reads_back`). Nothing else of a name is ever read outside quotes.
-/

namespace SqlFragments

namespace Text

variable {mark : List Char → Option (List Char)} {cs before rest : List Char}

/-- Where a text cannot be broken there is no mark in it. -/
theorem breakWhere_eq_none (h : breakWhere mark cs = none) {before rest : List Char}
    (split : cs = before ++ rest) (nonempty : rest ≠ []) : mark rest = none := by
  induction cs generalizing before with
  | nil =>
    obtain ⟨-, rfl⟩ := List.append_eq_nil_iff.1 split.symm
    exact absurd rfl nonempty
  | cons c cs ih =>
    rw [breakWhere] at h
    split at h
    · cases h
    · next unmarked =>
      cases before with
      | nil =>
        rw [← unmarked, split]
        rfl
      | cons b before =>
        obtain ⟨-, later⟩ := List.cons.inj split
        exact ih (Option.map_eq_none_iff.1 h) later

/-- A text is broken at a mark, and there is none before it. -/
theorem breakWhere_eq_some (h : breakWhere mark cs = some (before, rest)) :
    ∃ marked, cs = before ++ marked ∧ mark marked = some rest ∧
      ∀ b m, cs = b ++ m → (mark m).isSome → m ≠ [] → before.length ≤ b.length := by
  induction cs generalizing before with
  | nil => cases h
  | cons c cs ih =>
    rw [breakWhere] at h
    split at h
    · next found =>
      cases h
      exact ⟨c :: cs, rfl, found, fun b m _ _ _ => Nat.zero_le _⟩
    · next unmarked =>
      obtain ⟨⟨later, rest'⟩, broken, pair⟩ := Option.map_eq_some_iff.1 h
      cases pair
      obtain ⟨marked, split, found, first⟩ := ih broken
      refine ⟨marked, congrArg (c :: ·) split, found, ?_⟩
      intro b m whole isMark nonempty
      cases b with
      | nil =>
        rw [show m = c :: cs from whole.symm, unmarked] at isMark
        cases isMark
      | cons d b =>
        obtain ⟨-, within⟩ := List.cons.inj whole
        exact Nat.succ_le_succ (first b m within isMark nonempty)

theorem notMem_of_mem_splitOn {sep : Char} {cs piece : List Char} (h : piece ∈ splitOn sep cs) :
    sep ∉ piece := by
  induction cs generalizing piece with
  | nil =>
    rw [List.mem_singleton.1 h]
    exact List.not_mem_nil
  | cons c cs ih =>
    rw [splitOn] at h
    split at h
    · rcases List.mem_cons.1 h with rfl | later
      · exact List.not_mem_nil
      · exact ih later
    · next other =>
      obtain ⟨first, rest, pieces⟩ := List.exists_cons_of_ne_nil (splitOn_ne_nil sep cs)
      rw [pieces] at h ih
      rcases List.mem_cons.1 h with rfl | later
      · have inner := ih List.mem_cons_self
        simp [Ne.symm other, inner]
      · exact ih (List.mem_cons_of_mem first later)

end Text

/-! ## Taking names apart -/

namespace Name

/-- The word that comes before an alias, in letters of either case. -/
def IsAs (mark : List Char) : Prop := mark.map Char.toLower = [' ', 'a', 's', ' ']

/-- The pieces of a text between its points. -/
structure Row (text : List Char) (segments : List (List Char)) : Prop where
  nonempty : segments ≠ []
  joined : List.intercalate ['.'] segments = text
  pointless : ∀ segment ∈ segments, '.' ∉ segment

/-- The name that a text gives: it has an alias where ` as ` stands in the text, and the first one
counts. -/
inductive Of (text : List Char) : Name → Prop where
  | plain {segments : List (List Char)}
    (unaliased : ∀ before mark after, text = before ++ mark ++ after → ¬ IsAs mark)
    (row : Row text segments) : Of text ⟨segments, none⟩
  | aliased {before mark after : List Char} {segments : List (List Char)}
    (found : text = before ++ mark ++ after) (isAs : IsAs mark)
    (first : ∀ b m a, text = b ++ m ++ a → IsAs m → before.length ≤ b.length)
    (row : Row (Text.trimChars before) segments) :
    Of text ⟨segments, some (Text.trimChars after)⟩

theorem row_splitOn (text : List Char) : Row text (Text.splitOn '.' text) where
  nonempty := Text.splitOn_ne_nil '.' text
  joined := Text.join_splitOn '.' text
  pointless _ h := Text.notMem_of_mem_splitOn h

/-- Only a blank is a blank in lower case. -/
theorem toLower_eq_blank {c : Char} (h : c.toLower = ' ') : c = ' ' := by
  unfold Char.toLower at h
  split at h
  · next upper =>
    have shifted : c.val + 32 = 32 := congrArg Char.val h
    have zero : c.val = 0 := by simpa using shifted
    rw [zero] at upper
    exact absurd upper (by decide)
  · exact h

/-- What follows ` as ` is found exactly where the text starts with it. -/
theorem aliasMark_eq_some_iff {cs rest : List Char} :
    aliasMark cs = some rest ↔ ∃ mark, IsAs mark ∧ cs = mark ++ rest := by
  constructor
  · intro h
    rw [aliasMark.eq_def] at h
    split at h
    · next a s rest' =>
      split at h
      · next letters =>
        cases h
        refine ⟨[' ', a, s, ' '], ?_, rfl⟩
        simp [IsAs, letters.1, letters.2]
      · cases h
    · cases h
  · rintro ⟨mark, isAs, rfl⟩
    obtain ⟨b, _, rfl, blank, isAs⟩ := List.map_eq_cons_iff.1 isAs
    obtain ⟨a, _, rfl, ha, isAs⟩ := List.map_eq_cons_iff.1 isAs
    obtain ⟨s, _, rfl, hs, isAs⟩ := List.map_eq_cons_iff.1 isAs
    obtain ⟨e, _, rfl, ending, isAs⟩ := List.map_eq_cons_iff.1 isAs
    obtain rfl := List.map_eq_nil_iff.1 isAs
    rw [toLower_eq_blank blank, toLower_eq_blank ending]
    simp [aliasMark, ha, hs]

/-- A name is taken apart at the first ` as ` and before it at every point. -/
theorem of_ofChars (text : List Char) : Of text (ofChars text) := by
  rw [ofChars]
  split
  · next before rest broken =>
    obtain ⟨marked, split, found, first⟩ := Text.breakWhere_eq_some broken
    obtain ⟨mark, isAs, rfl⟩ := aliasMark_eq_some_iff.1 found
    refine .aliased (by rw [split, List.append_assoc]) isAs ?_ (row_splitOn _)
    intro b m a whole isMark
    have marks : aliasMark (m ++ a) = some a := aliasMark_eq_some_iff.2 ⟨m, isMark, rfl⟩
    refine first b (m ++ a) (by rw [whole, List.append_assoc]) (by rw [marks]; rfl) ?_
    rintro none
    rw [none] at marks
    cases marks
  · next unbroken =>
    refine .plain ?_ (row_splitOn _)
    intro before mark after whole isAs
    have marks : aliasMark (mark ++ after) = some after :=
      aliasMark_eq_some_iff.2 ⟨mark, isAs, rfl⟩
    have none : aliasMark (mark ++ after) = none := by
      refine Text.breakWhere_eq_none unbroken (by rw [whole, List.append_assoc]) ?_
      rintro none
      rw [none] at marks
      cases marks
    cases none.symm.trans marks

/-! ## Reading written names -/

/-- What a segment is read as. -/
def item (d : Dialect) (segment : List Char) : Lexeme :=
  if segment = ['*'] then .bare '*' else .quoted d.nameQuotes segment

/-- What an alias is read as, with the word before it. -/
def aliasLexemes (d : Dialect) : Option (List Char) → List Lexeme
  | none => []
  | some a => [.bare ' ', .bare 'a', .bare 's', .bare ' ', .quoted d.nameQuotes a]

/-- What a written name is read as. -/
def lexemes (d : Dialect) (n : Name) : List Lexeme :=
  (n.segments.map (item d)).intersperse (.bare '.') ++ aliasLexemes d n.alias?

variable {d : Dialect} {rest : List Char}

theorem lexemes_segmentChars (segment : List Char) (apart : rest.head? ≠ some d.closing) :
    d.lexemes (segmentChars d segment ++ rest) = item d segment :: d.lexemes rest := by
  rw [segmentChars, item]
  split
  · exact Dialect.lexemes_cons_of_bare (by cases d <;> decide) rest
  · exact Dialect.lexemes_quoteChars segment apart

theorem lexemes_segmentsChars (segments : List (List Char))
    (apart : rest.head? ≠ some d.closing) :
    d.lexemes (segmentsChars d segments ++ rest) =
      (segments.map (item d)).intersperse (.bare '.') ++ d.lexemes rest := by
  fun_induction segmentsChars d segments with
  | case1 => rfl
  | case2 segment => exact lexemes_segmentChars segment apart
  | case3 segment next later ih =>
    have point : d.IsBare '.' := by cases d <;> decide
    have other : ('.' :: (segmentsChars d (next :: later) ++ rest)).head? ≠ some d.closing := by
      cases d <;> simp [Dialect.closing]
    rw [List.append_assoc, List.cons_append, lexemes_segmentChars segment other,
      Dialect.lexemes_cons_of_bare point, ih]
    rfl

/-- A written name is read as its segments and its alias, whatever comes behind it. -/
theorem lexemes_chars (n : Name) (apart : rest.head? ≠ some d.closing) :
    d.lexemes (n.chars d ++ rest) = n.lexemes d ++ d.lexemes rest := by
  rw [chars, lexemes]
  cases n.alias? with
  | none =>
    rw [List.append_nil, aliasLexemes, List.append_nil]
    exact lexemes_segmentsChars n.segments apart
  | some a =>
    have word : d.IsWord [' ', 'a', 's', ' '] := by cases d <;> decide
    have other : ([' ', 'a', 's', ' '] ++ (d.quoteChars a ++ rest)).head? ≠ some d.closing := by
      cases d <;> simp [Dialect.closing]
    have last := Dialect.lexemes_word word (d.quoteChars a ++ rest)
    rw [Dialect.lexemes_quoteChars a apart] at last
    have front := lexemes_segmentsChars n.segments other
    rw [last] at front
    simpa [aliasLexemes] using front

theorem of_mem_row {segments : List (List Char)} {x : Lexeme}
    (member : x ∈ (segments.map (item d)).intersperse (.bare '.')) :
    x = .bare '.' ∨ ∃ segment, x = item d segment := by
  induction segments with
  | nil => cases member
  | cons segment segments ih =>
    cases segments with
    | nil => exact .inr ⟨segment, List.mem_singleton.1 member⟩
    | cons next later =>
      rw [List.map_cons, List.map_cons, List.intersperse_cons_cons, List.mem_cons,
        List.mem_cons] at member
      rcases member with first | point | rest
      · exact .inr ⟨segment, first⟩
      · exact .inl point
      · exact ih rest

/-- A written name has no lexemes but names in quotes and the few characters between them. -/
theorem of_mem_lexemes {n : Name} {x : Lexeme} (member : x ∈ n.lexemes d) :
    (∃ content, x = .quoted d.nameQuotes content) ∨
      ∃ c ∈ ['*', '.', ' ', 'a', 's'], x = .bare c := by
  rcases List.mem_append.1 member with row | last
  · rcases of_mem_row row with rfl | ⟨segment, rfl⟩
    · exact .inr ⟨'.', by decide, rfl⟩
    · rw [item]
      split
      · exact .inr ⟨'*', by decide, rfl⟩
      · exact .inl ⟨segment, rfl⟩
  · cases named : n.alias? with
    | none =>
      rw [named] at last
      cases last
    | some a =>
      rw [named] at last
      simp only [aliasLexemes, List.mem_cons, List.not_mem_nil, or_false] at last
      rcases last with rfl | rfl | rfl | rfl | rfl
      · exact .inr ⟨' ', by decide, rfl⟩
      · exact .inr ⟨'a', by decide, rfl⟩
      · exact .inr ⟨'s', by decide, rfl⟩
      · exact .inr ⟨' ', by decide, rfl⟩
      · exact .inl ⟨a, rfl⟩

end Name

namespace Lexeme

/-- What the lexeme stands for. -/
def unquoted : Lexeme → List Char
  | bare c => [c]
  | quoted _ content | unclosed _ content => content

/-- Whether the lexeme is a bare star or a name in quotes of the dialect. -/
def IsItem (d : Dialect) (x : Lexeme) : Prop :=
  x = bare '*' ∨ ∃ content, x = quoted d.nameQuotes content

end Lexeme

namespace Name

variable {d : Dialect}

theorem isItem_item (d : Dialect) (segment : List Char) : (item d segment).IsItem d := by
  rw [item]
  split
  · exact .inl rfl
  · exact .inr ⟨segment, rfl⟩

theorem unquoted_item (d : Dialect) (segment : List Char) :
    (item d segment).unquoted = segment := by
  rw [item]
  split
  · next star => exact star.symm
  · rfl

theorem spelled_item (d : Dialect) (segment : List Char) :
    (item d segment).spelled = segmentChars d segment := by
  rw [item, segmentChars]
  split <;> rfl

theorem spelling_row (segments : List (List Char)) :
    Lexeme.spelling ((segments.map (item d)).intersperse (.bare '.')) =
      segmentsChars d segments := by
  fun_induction segmentsChars d segments with
  | case1 => rfl
  | case2 segment => simp [Lexeme.spelling, spelled_item]
  | case3 segment next later ih =>
    rw [List.map_cons, List.map_cons, List.intersperse_cons_cons, Lexeme.spelling,
      List.flatMap_cons, List.flatMap_cons, spelled_item, ← ih]
    rfl

/-- A written name is the text of what it is read as. -/
theorem spelling_lexemes (n : Name) : Lexeme.spelling (n.lexemes d) = n.chars d := by
  rw [lexemes, chars, Lexeme.spelling, List.flatMap_append, ← Lexeme.spelling, spelling_row]
  cases n.alias? with
  | none => rfl
  | some a => simp [aliasLexemes, Lexeme.spelled, Dialect.quoteChars, Dialect.nameQuotes]

end Name

/-- What is written for a name is read as the name, whatever comes behind it. -/
theorem Dialect.lexemes_wrap {d : Dialect} {rest : List Char} (name : String)
    (apart : rest.head? ≠ some d.closing) :
    d.lexemes ((d.wrap name).toList ++ rest) =
      (Name.ofChars name.toList).lexemes d ++ d.lexemes rest := by
  rw [wrap, String.toList_ofList, Name.lexemes_chars _ apart]

theorem Dialect.lexemes_wrap_alone (d : Dialect) (name : String) :
    d.lexemes (d.wrap name).toList = (Name.ofChars name.toList).lexemes d := by
  have apart : ([] : List Char).head? ≠ some d.closing := by simp
  have whole := lexemes_wrap name apart
  rwa [List.append_nil, lexemes_nil, List.append_nil] at whole

/-- **Names are read back.** What a dialect writes for a name is read by its database as a row of
items with points between them, each a bare star or one name in the dialect's quotes, and then,
where the name has an alias, as ` as ` and the alias in quotes. Taken out of their quotes the items
are the segments of the name, and what is written is made of them alone: a name of any characters
adds no text outside quotes but stars, points and one ` as `. -/
theorem Dialect.wrap_reads_back (d : Dialect) (name : String) :
    ∃ (n : Name) (items : List Lexeme), Name.Of name.toList n ∧
      d.lexemes (d.wrap name).toList =
        items.intersperse (.bare '.') ++ Name.aliasLexemes d n.alias? ∧
      (∀ x ∈ items, x.IsItem d) ∧ items.map Lexeme.unquoted = n.segments ∧
      (d.wrap name).toList = Lexeme.spelling (d.lexemes (d.wrap name).toList) := by
  let n := Name.ofChars name.toList
  have written : (d.wrap name).toList = n.chars d := by
    rw [wrap, String.toList_ofList]
  have read : d.lexemes (d.wrap name).toList = n.lexemes d := d.lexemes_wrap_alone name
  refine ⟨n, n.segments.map (Name.item d), Name.of_ofChars name.toList, read, ?_, ?_, ?_⟩
  · intro x member
    obtain ⟨segment, -, rfl⟩ := List.mem_map.1 member
    exact Name.isItem_item d segment
  · rw [List.map_map]
    exact List.map_id'' (Name.unquoted_item d) n.segments
  · rw [read, Name.spelling_lexemes, written]

end SqlFragments
