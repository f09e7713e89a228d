import SqlFragments.Proofs.Balance
import SqlFragments.Statement.Name

/-!
# Quoted names and placeholders

A name is quoted by writing its closing quote twice inside it. Where one character opens and closes
the quote, the second of the two opens again what the first has closed, and the whole name is read
inside quotes, whatever it is (`balanced_quoteChars`). A bracket does not open again what it has
closed: the doubling makes no difference to the reading (`read_doubled_bracket`), and what follows
the first closing bracket of a name is read outside quotes. `leaked` is that rest of the name, and
the name is balanced exactly when its leaked rest is `Harmless`.
-/

namespace SqlFragments

namespace Quote

variable {backslash : Bool} {c d : Char}

@[simp] theorem step_inside_self : (inside c).step backslash c = outside := by
  simp [step]

theorem step_inside_ne (h : d ≠ c) (literal : (backslash && takesEscapes c) = false) :
    (inside c).step backslash d = inside c := by
  simp [step, h, Bool.and_assoc, literal]

/-- A name in quotes that open and close with one character is read inside them to its end. -/
theorem inside_doubled (opens : closing? c = some c)
    (literal : (backslash && takesEscapes c) = false) (name : List Char) :
    (inside c).after backslash (Text.doubled c name ++ [c]) = outside ∧
      (inside c).count backslash (Text.doubled c name ++ [c]) = 0 := by
  have noMark : ∀ e, (inside c).marks e = false := marks_of_ne_outside (by simp)
  induction name with
  | nil => simp [Text.doubled, after_cons, count_cons, noMark]
  | cons d name ih =>
    rw [Text.doubled]
    split
    · have reopens : outside.step backslash c = inside c := by simp [step, opens]
      have mark : outside.marks c = false := by
        refine marks_of_ne_mark _ ?_
        rintro rfl
        simp [closing?] at opens
      simpa [after_cons, count_cons, noMark, mark, reopens] using ih
    · next differs =>
      simpa [after_cons, count_cons, noMark, step_inside_ne differs literal] using ih

/-- Where a backslash is a character like any other, none ever takes away a meaning. -/
def Unescaped (q : Quote) : Prop := ∀ c, q ≠ escaped c

theorem unescaped_outside : Unescaped outside := fun _ h => nomatch h

theorem Unescaped.step {q : Quote} (h : Unescaped q) (d : Char) : Unescaped (q.step false d) := by
  cases q with
  | outside =>
    rw [Quote.step]
    split
    · intro e he
      cases he
    · intro e he
      cases he
  | inside c =>
    by_cases same : d = c
    · simpa [Quote.step, same] using unescaped_outside
    · intro e he
      simp [Quote.step, same] at he
  | escaped c => exact absurd rfl (h c)

/-- A closing bracket that is written twice is read like one that is written once. -/
theorem step_bracket_twice {q : Quote} (h : Unescaped q) :
    (q.step false ']').step false ']' = q.step false ']' := by
  cases q with
  | outside => simp [step, closing?]
  | inside c =>
    by_cases same : ']' = c
    · subst same
      simp [step, closing?]
    · simp [step, same]
  | escaped c => exact absurd rfl (h c)

/-- Doubling the closing brackets of a text makes no difference to its reading. -/
theorem read_doubled_bracket (name : List Char) {q : Quote} (h : Unescaped q) :
    q.after false (Text.doubled ']' name) = q.after false name ∧
      q.count false (Text.doubled ']' name) = q.count false name := by
  induction name generalizing q with
  | nil => exact ⟨rfl, rfl⟩
  | cons d name ih =>
    have rest := ih (h.step d)
    rw [Text.doubled]
    split
    · next bracket =>
      subst bracket
      have noMark : ∀ q : Quote, q.marks ']' = false := fun q => marks_of_ne_mark q (by decide)
      simpa [after_cons, count_cons, noMark, step_bracket_twice h] using rest
    · simpa [after_cons, count_cons] using rest

/-- What a name lets out of the brackets around it: the rest after its first closing bracket. -/
def leaked : List Char → List Char
  | [] => []
  | c :: cs => if c = ']' then cs else leaked cs

/-- A name that has no closing bracket lets nothing out. -/
theorem leaked_eq_nil {name : List Char} (h : ']' ∉ name) : leaked name = [] := by
  induction name with
  | nil => rfl
  | cons c cs ih =>
    rw [List.mem_cons, not_or] at h
    rw [leaked, if_neg (Ne.symm h.1), ih h.2]

/-- What is let out has no placeholder, and the closing bracket after it leaves no quote open. -/
structure Harmless (name : List Char) : Prop where
  counts : outside.count false (leaked name) = 0
  ends : outside.after false (leaked name) = outside ∨
    outside.after false (leaked name) = inside ']'

instance (name : List Char) : Decidable (Harmless name) :=
  decidable_of_iff (outside.count false (leaked name) = 0 ∧
      (outside.after false (leaked name) = outside ∨
        outside.after false (leaked name) = inside ']'))
    ⟨fun h => ⟨h.1, h.2⟩, fun h => ⟨h.counts, h.ends⟩⟩

theorem Harmless.of_no_bracket {name : List Char} (h : ']' ∉ name) : Harmless name := by
  have nothing : leaked name = [] := leaked_eq_nil h
  constructor
  · rw [nothing]
    rfl
  · rw [nothing]
    exact Or.inl rfl

/-- A name is read inside its brackets as far as its first closing bracket, and what it lets out is
read outside quotes. -/
theorem inside_bracket_leaked (name : List Char) :
    (inside ']').after false (name ++ [']']) = outside.after false (leaked name ++ [']']) ∧
      (inside ']').count false (name ++ [']']) = outside.count false (leaked name ++ [']']) := by
  induction name with
  | nil => decide
  | cons c cs ih =>
    have noMark : (inside ']').marks c = false := marks_of_ne_outside (by simp) c
    rw [leaked]
    split
    · next bracket =>
      subst bracket
      simp [after_cons, count_cons, noMark]
    · next differs =>
      simpa [after_cons, count_cons, noMark, step_inside_ne differs] using ih

theorem step_bracket_eq_outside_iff {q : Quote} :
    q.step false ']' = outside ↔ q = outside ∨ q = inside ']' := by
  cases q with
  | outside => simp [step, closing?]
  | inside c =>
    by_cases same : ']' = c
    · subst same
      simp
    · have stays : (inside c).step false ']' = inside c := step_inside_ne same rfl
      simp [stays, Ne.symm same]
  | escaped c => simp [step]

end Quote

namespace Dialect

open Quote

/-- Quoted by characters that open and close, a name has no placeholder and ends its quotes. -/
theorem balanced_quoteChars {d : Dialect} (hd : d ≠ .sqlServer) {backslash : Bool}
    (literal : (backslash && takesEscapes d.closing) = false) (name : List Char) :
    Balanced backslash (d.quoteChars name) 0 := by
  have same : d.opening = d.closing := by cases d <;> first | rfl | exact absurd rfl hd
  have opens : closing? d.closing = some d.closing := by
    cases d <;> first | rfl | exact absurd rfl hd
  have first : outside.step backslash d.closing = inside d.closing := by simp [step, opens]
  have mark : outside.marks d.closing = false := by cases d <;> rfl
  have rest := inside_doubled opens literal name
  constructor
  · rw [quoteChars, List.cons_append, after_cons, same, first, rest.1]
  · rw [quoteChars, List.cons_append, count_cons, same, first, mark, rest.2]
    rfl

/-- Brackets make a name balanced exactly when what it lets out is harmless. -/
theorem balanced_bracketed_iff (name : List Char) :
    Balanced false (sqlServer.quoteChars name) 0 ↔ Harmless name := by
  have first : outside.step false '[' = inside ']' := rfl
  have mark : outside.marks '[' = false := rfl
  have unescaped : Unescaped (inside ']') := fun _ h => nomatch h
  have doubled := read_doubled_bracket name unescaped
  have ends : outside.after false (sqlServer.quoteChars name) =
      (outside.after false (leaked name)).step false ']' := by
    rw [quoteChars, List.cons_append, after_cons, opening, closing, first, after_append, doubled.1,
      ← after_append, (inside_bracket_leaked name).1, after_append]
    rfl
  have counts : outside.count false (sqlServer.quoteChars name) =
      outside.count false (leaked name) := by
    have noMark : ∀ q : Quote, q.marks ']' = false := fun q => marks_of_ne_mark q (by decide)
    rw [quoteChars, List.cons_append, count_cons, opening, closing, first, mark, count_append,
      doubled.1, doubled.2, ← count_append, (inside_bracket_leaked name).2, count_append]
    simp [count_cons, noMark]
  constructor
  · intro h
    exact ⟨counts ▸ h.counts, step_bracket_eq_outside_iff.1 (ends ▸ h.ends)⟩
  · intro h
    exact ⟨ends.trans (step_bracket_eq_outside_iff.2 h.ends), counts.trans h.counts⟩

/-- Whether the quotes of the dialect keep the name from being read as anything but a name. -/
def Contains (d : Dialect) (name : List Char) : Prop := d = sqlServer → Harmless name

instance (d : Dialect) (name : List Char) : Decidable (d.Contains name) :=
  inferInstanceAs (Decidable (d = sqlServer → Harmless name))

/-- A name without a closing bracket is contained in any quotes. -/
theorem Contains.of_no_bracket {d : Dialect} {name : List Char}
    (h : d = sqlServer → ']' ∉ name) : d.Contains name :=
  fun hd => .of_no_bracket (h hd)

/-- A text that is passed over when the placeholders around it are counted, where a backslash means
what it means in the dialect, and when they are numbered, where it means nothing. -/
structure Inert (d : Dialect) (text : List Char) : Prop where
  counted : Balanced d.escapesBackslash text 0
  numbered : Balanced false text 0

namespace Inert

variable {d : Dialect} {cs ds : List Char}

theorem append (h : d.Inert cs) (h' : d.Inert ds) : d.Inert (cs ++ ds) :=
  ⟨h.counted.append h'.counted, h.numbered.append h'.numbered⟩

theorem of_plain (h : Plain cs) : d.Inert cs :=
  ⟨.of_plain h, .of_plain h⟩

theorem quoteChars_iff (d : Dialect) (name : List Char) :
    d.Inert (d.quoteChars name) ↔ d.Contains name := by
  by_cases hd : d = sqlServer
  · subst hd
    constructor
    · intro h _
      exact (balanced_bracketed_iff name).1 h.numbered
    · intro h
      have balanced := (balanced_bracketed_iff name).2 (h rfl)
      exact ⟨balanced, balanced⟩
  · refine ⟨fun _ e => absurd e hd, fun _ => ⟨?_, ?_⟩⟩
    · exact balanced_quoteChars hd (by cases d <;> rfl) name
    · exact balanced_quoteChars hd rfl name

end Inert

end Dialect

namespace Text

theorem mem_of_mem_splitOn {sep : Char} {cs piece : List Char} (h : piece ∈ splitOn sep cs) :
    piece ⊆ cs := by
  induction cs generalizing piece with
  | nil => simp_all [splitOn]
  | cons c cs ih =>
    rw [splitOn] at h
    split at h
    · rcases List.mem_cons.1 h with rfl | later
      · exact List.nil_subset _
      · exact List.subset_cons_of_subset c (ih later)
    · obtain ⟨first, rest, pieces⟩ := List.exists_cons_of_ne_nil (splitOn_ne_nil sep cs)
      rw [pieces] at h ih
      rcases List.mem_cons.1 h with rfl | later
      · exact List.cons_subset_cons c (ih List.mem_cons_self)
      · exact List.subset_cons_of_subset c (ih (List.mem_cons_of_mem first later))

theorem subset_of_breakWhere {mark : List Char → Option (List Char)}
    (suffix : ∀ cs rest, mark cs = some rest → rest ⊆ cs) {cs before rest : List Char}
    (h : breakWhere mark cs = some (before, rest)) : before ⊆ cs ∧ rest ⊆ cs := by
  induction cs generalizing before with
  | nil => simp [breakWhere] at h
  | cons c cs ih =>
    rw [breakWhere] at h
    split at h
    · next found =>
      simp only [Option.some.injEq, Prod.mk.injEq] at h
      obtain ⟨rfl, rfl⟩ := h
      exact ⟨List.nil_subset _, suffix _ _ found⟩
    · simp only [Option.map_eq_some_iff, Prod.exists, Prod.mk.injEq] at h
      obtain ⟨before, rest, found, rfl, rfl⟩ := h
      have inner := ih found
      exact ⟨List.cons_subset_cons c inner.1, List.subset_cons_of_subset c inner.2⟩

theorem trimChars_subset (cs : List Char) : trimChars cs ⊆ cs := by
  intro c hc
  rw [trimChars, List.mem_reverse] at hc
  have inner := (List.dropWhile_sublist isBlank).subset hc
  rw [List.mem_reverse] at inner
  exact (List.dropWhile_sublist isBlank).subset inner

end Text

namespace Name

/-- The segments of a name and its alias. -/
def pieces (n : Name) : List (List Char) := n.segments ++ n.alias?.toList

theorem aliasMark_subset (cs rest : List Char) (h : aliasMark cs = some rest) : rest ⊆ cs := by
  rw [aliasMark.eq_def] at h
  split at h
  · split at h
    · cases h
      intro c hc
      simp [hc]
    · cases h
  · cases h

/-- Taking a name apart finds no character that the name does not have. -/
theorem pieces_subset {cs piece : List Char} (h : piece ∈ (ofChars cs).pieces) : piece ⊆ cs := by
  rw [ofChars] at h
  split at h
  · next before rest found =>
    have parts := Text.subset_of_breakWhere aliasMark_subset found
    rcases List.mem_append.1 h with segment | last
    · exact List.Subset.trans
        (List.Subset.trans (Text.mem_of_mem_splitOn segment) (Text.trimChars_subset before)) parts.1
    · obtain rfl : piece = Text.trimChars rest := by simpa using last
      exact List.Subset.trans (Text.trimChars_subset rest) parts.2
  · exact Text.mem_of_mem_splitOn (by simpa [pieces] using h)

variable {d : Dialect}

theorem inert_segmentsChars {segments : List (List Char)}
    (h : ∀ segment ∈ segments, d.Contains segment) : d.Inert (segmentsChars d segments) := by
  have one : ∀ segment ∈ segments, d.Inert (segmentChars d segment) := by
    intro segment hs
    rw [segmentChars]
    split
    · exact .of_plain (by decide)
    · exact (Dialect.Inert.quoteChars_iff d segment).2 (h segment hs)
  clear h
  fun_induction segmentsChars d segments with
  | case1 => exact .of_plain (by decide)
  | case2 segment => exact one segment List.mem_cons_self
  | case3 segment next rest ih =>
    have point : d.Inert ['.'] := .of_plain (by decide)
    have later := ih fun s hs => one s (List.mem_cons_of_mem segment hs)
    exact (one segment List.mem_cons_self).append (point.append later)

/-- A name is passed over as a whole where the quotes contain each of its pieces. -/
theorem inert_chars {n : Name} (h : ∀ piece ∈ n.pieces, d.Contains piece) :
    d.Inert (n.chars d) := by
  have segments : d.Inert (segmentsChars d n.segments) :=
    inert_segmentsChars fun s hs => h s (List.mem_append_left _ hs)
  rw [chars]
  cases halias : n.alias? with
  | none => simpa using segments
  | some a =>
    have contained : d.Contains a := h a (by simp [pieces, halias])
    have word : d.Inert [' ', 'a', 's', ' '] := .of_plain (by decide)
    exact segments.append (word.append ((Dialect.Inert.quoteChars_iff d a).2 contained))

end Name

namespace Dialect

variable {d : Dialect} {name : String}

theorem inert_wrap (h : ∀ piece ∈ (Name.ofChars name.toList).pieces, d.Contains piece) :
    d.Inert (d.wrap name).toList := by
  rw [wrap, String.toList_ofList]
  exact Name.inert_chars h

theorem inert_wrap_of_no_bracket (h : d = sqlServer → ']' ∉ name.toList) :
    d.Inert (d.wrap name).toList :=
  inert_wrap fun _ hp => .of_no_bracket fun hd bracket => h hd (Name.pieces_subset hp bracket)

theorem inert_quote_of_no_bracket (h : d = sqlServer → ']' ∉ name.toList) :
    d.Inert (d.quote name).toList := by
  rw [quote, String.toList_ofList]
  exact (Inert.quoteChars_iff d name.toList).2 (.of_no_bracket h)

theorem inert_wrapTarget_of_no_bracket (h : d = sqlServer → ']' ∉ name.toList) :
    d.Inert (d.wrapTarget name).toList := by
  rw [wrapTarget]
  split
  · next a last =>
    have piece : a ∈ (Name.ofChars name.toList).pieces := by simp [Name.pieces, last]
    rw [String.toList_ofList, Inert.quoteChars_iff]
    exact .of_no_bracket fun hd bracket => h hd (Name.pieces_subset piece bracket)
  · exact inert_wrap_of_no_bracket h

/-- **Names are passed over.** A quoted name has no placeholder and leaves no quote open, exactly
when the quotes contain it: always in quotes that open and close with one character, and in brackets
when what the name lets out is harmless. A written name is passed over when each of its pieces is
contained. Whatever is passed over stands in a statement as it is, and the placeholders around it
are counted and numbered as if it were not there. -/
theorem quoted_name_passed_over (d : Dialect) (name : String) :
    (d.Inert (d.quote name).toList ↔ d.Contains name.toList) ∧
    ((∀ piece ∈ (Name.ofChars name.toList).pieces, d.Contains piece) →
      d.Inert (d.wrap name).toList) ∧
    ∀ text before after : String, d.Inert text.toList →
      Quote.outside.after d.escapesBackslash before.toList = .outside →
      Quote.outside.after false before.toList = .outside →
      countPlaceholders d.escapesBackslash (before ++ text ++ after) =
        countPlaceholders d.escapesBackslash (before ++ after) ∧
      ∃ tail, numberPlaceholders (before ++ after) = numberPlaceholders before ++ tail ∧
        numberPlaceholders (before ++ text ++ after) =
          numberPlaceholders before ++ text ++ tail := by
  refine ⟨?_, inert_wrap, ?_⟩
  · rw [quote, String.toList_ofList]
    exact Inert.quoteChars_iff d name.toList
  · intro text before after inert counted numbered
    have count := (inert.counted.passed_over 1 counted after.toList).1
    obtain ⟨tail, without, inserted⟩ := (inert.numbered.passed_over 1 numbered after.toList).2
    refine ⟨by simpa [countPlaceholders] using count, String.ofList tail, ?_, ?_⟩
    · simp [numberPlaceholders, without, String.ofList_append]
    · simp only [List.append_assoc] at inserted
      simp [numberPlaceholders, inserted, String.ofList_append, String.append_assoc]

/-- In brackets a name may have closing brackets, as long as nothing harmful follows the first. -/
theorem quoted_name_passed_over_in_brackets :
    (∀ piece ∈ (Name.ofChars "a]b.c[? as d?".toList).pieces, sqlServer.Contains piece) ∧
      sqlServer.Inert (sqlServer.wrap "a]b.c[? as d?").toList := by
  have contained : ∀ piece ∈ (Name.ofChars "a]b.c[? as d?".toList).pieces,
      sqlServer.Contains piece := by decide
  exact ⟨contained, (quoted_name_passed_over sqlServer "a]b.c[? as d?").2.1 contained⟩

-- A placeholder that a name lets out of its brackets is counted.
example : countPlaceholders false (sqlServer.quote "a]?") = 1 := by decide

end Dialect

end SqlFragments
