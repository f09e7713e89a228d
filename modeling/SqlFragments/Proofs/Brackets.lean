import SqlFragments.Proofs.Markings
import SqlFragments.Proofs.Phases

/-!
# Brackets in fragments

A fragment is selected as it is written, with its bindings for the placeholders that it has. On
Postgres some of them may stand in brackets, which the scan for placeholders takes for quotes.
`Compiler.fragments_selected_iff_marked_alike` says what then becomes of the selection: it is right
exactly if the scan finds the placeholders that are read.
-/

namespace SqlFragments

/-- The selection of a fragment, from a table that is given by name or from none. -/
def RawFragment.selection (f : RawFragment) (table : Option String) : Query :=
  ({ slots := { table := table.map .name } } : Query).addSelect (.raw f)

/-- The text of such a selection on Postgres. -/
def selectionText (text : String) (table : Option String) : String :=
  "select " ++ text ++ (match table with
    | none => ""
    | some name => " from " ++ Dialect.postgres.wrap name)

/-- A lexeme like those around a fragment: no placeholder, no bracket and no backtick outside
quotes, and no quote that is not closed. -/
structure Lexeme.Framing (x : Lexeme) : Prop where
  unmarked : x ≠ .bare '?'
  calm : x.IsCalm
  closed : x.isClosed = true

theorem Lexeme.framing_bare {c : Char} (plain : Quote.isPlain c = true) :
    (Lexeme.bare c).Framing := by
  simp only [Quote.isPlain, Bool.and_eq_true, bne_iff_ne, Option.isNone_iff_eq_none] at plain
  obtain ⟨mark, quote⟩ := plain
  refine ⟨by simpa using mark, ⟨?_, ?_⟩, rfl⟩
  · rintro ⟨⟩
    cases quote
  · rintro ⟨⟩
    cases quote

theorem Lexeme.framing_word {cs : List Char} (plain : Quote.Plain cs) :
    ∀ x ∈ cs.map Lexeme.bare, x.Framing := by
  intro x member
  obtain ⟨c, within, rfl⟩ := List.mem_map.1 member
  exact framing_bare (plain c within)

theorem Name.framing_of_mem {d : Dialect} {n : Name} {x : Lexeme} (member : x ∈ n.lexemes d) :
    x.Framing := by
  rcases of_mem_lexemes member with ⟨content, rfl⟩ | ⟨c, within, rfl⟩
  · exact ⟨by simp, by simp [Lexeme.IsCalm], rfl⟩
  · have plain : Quote.Plain ['*', '.', ' ', 'a', 's'] := by decide
    exact Lexeme.framing_bare (plain c within)

/-- The words and the table around a fragment are read apart from it. -/
theorem lexemes_selectionText {text : String} (table : Option String)
    (closed : Lexeme.Closed (Dialect.postgres.lexemes text.toList)) :
    ∃ front behind, Dialect.postgres.lexemes (selectionText text table).toList =
        front ++ Dialect.postgres.lexemes text.toList ++ behind ∧
      (∀ x ∈ front, x.Framing) ∧ ∀ x ∈ behind, x.Framing := by
  have opened (rest : List Char) : Dialect.postgres.lexemes ("select ".toList ++ rest) =
      "select ".toList.map .bare ++ Dialect.postgres.lexemes rest :=
    Dialect.lexemes_word (by decide) rest
  have select : ∀ x ∈ "select ".toList.map Lexeme.bare, x.Framing :=
    Lexeme.framing_word (by decide)
  refine ⟨"select ".toList.map .bare, ?_⟩
  cases table with
  | none =>
    refine ⟨[], ?_, select, fun x member => nomatch member⟩
    rw [selectionText, String.append_empty, String.toList_append, opened, List.append_nil]
  | some name =>
    have apart : ∀ pair, Dialect.postgres.Own pair →
        (" from ".toList ++ (Dialect.postgres.wrap name).toList).head? ≠ some pair.closing := by
      intro pair own same
      have closes := (Dialect.closing?_of_own own).2
      have blank : ' ' = pair.closing := Option.some.inj same
      rw [← blank] at closes
      cases closes
    have joined (rest : List Char) : Dialect.postgres.lexemes (" from ".toList ++ rest) =
        " from ".toList.map .bare ++ Dialect.postgres.lexemes rest :=
      Dialect.lexemes_word (by decide) rest
    refine ⟨" from ".toList.map .bare ++ (Name.ofChars name.toList).lexemes .postgres, ?_, select,
      List.forall_mem_append.2 ⟨Lexeme.framing_word (by decide), fun x => Name.framing_of_mem⟩⟩
    rw [selectionText, String.toList_append, String.toList_append, String.toList_append,
      List.append_assoc, opened, Dialect.lexemes_append closed apart, joined,
      Dialect.lexemes_wrap_alone, List.append_assoc]

namespace RawFragment

variable {f : RawFragment} {table : Option String} {text : String}

theorem write_selection {w : Writer (Except Error)} (postgres : w.dialect = .postgres)
    (spelled : w.expression f.expression = .ok text) :
    w.select (f.selection table) = .ok (selectionText text table) := by
  have column : w.columnsOrAll [.raw f] = .ok text := by
    simp only [Writer.columnsOrAll, Writer.columns, Writer.each, Writer.ident, spelled]
    rfl
  obtain ⟨dialect, expression⟩ := w
  obtain rfl : dialect = .postgres := postgres
  let slots : Slots := { columns := [.raw f], table := table.map .name }
  have whole : Writer.select ⟨.postgres, expression⟩ (f.selection table) =
      Writer.components ⟨.postgres, expression⟩ slots true := by
    rw [selection, Query.addSelect, Query.edit, Writer.select]
    rfl
  have selected : Writer.selected ⟨.postgres, expression⟩ slots true = .ok (text, none) := by
    simp only [slots, Writer.selected, Writer.selection, column]
    simp [Writer.distinct, Dialect.top, bind, Except.bind, pure, Except.pure]
  rw [whole, Writer.components, selected]
  cases table with
  | none =>
    change Except.ok _ = Except.ok _
    simp [slots, selectionText, Dialect.limitOffset, Dialect.limitThenOffset]
  | some name =>
    change Except.ok _ = Except.ok _
    simp [slots, selectionText, Dialect.limitOffset, Dialect.limitThenOffset]

@[simp] theorem bindings_selection (f : RawFragment) (table : Option String) :
    (f.selection table).selectBindings = f.bindings := by
  cases table <;>
    simp [selection, Query.addSelect, Query.edit, Query.selectBindings, Query.membersBindings,
      Slots.bindings, Ident.bindings, Paging.bindings, Predicate.bindingsOfAll]

@[simp] theorem expressions_selection (f : RawFragment) (table : Option String) :
    (f.selection table).expressions = [f.expression] := by
  cases table <;>
    simp [selection, Query.addSelect, Query.edit, Query.expressions, Query.expressionsOfMembers,
      Slots.expressions, Ident.expression?, Paging.expressions, Predicate.expressionsOfAll]

theorem answer_selection {c : Compiler} (postgres : c.dialect = .postgres) {w : Workspace}
    (spelled : f.expression.resolve (w.tables.lookup c.context) = .ok text)
    (table : Option String) :
    (c.compile (f.selection table) .select w).1.answer =
      (c.finish (selectionText text table) ((Binding.evaluateAll f.bindings).run w.cells).1).map
        .one := by
  have resolved : ∃ n, configured (w.tables.lookup c.context)
      ((Form.select (f.selection table)).expressions c.dialect) = .ok n := by
    have alone : (Form.select (f.selection table)).expressions c.dialect = [f.expression] := by
      simp [Form.expressions, Form.queries, Form.target, Form.others, Form.extra]
    rw [alone, configured, configured]
    split
    · exact ⟨1, by rw [spelled]; rfl⟩
    · exact ⟨0, rfl⟩
  obtain ⟨n, resolved⟩ := resolved
  have written : (Form.select (f.selection table)).write (.reading c.dialect c.context w.tables) =
      .ok (selectionText text table) := write_selection postgres spelled
  have answered := Form.answer_of_written (f := .select (f.selection table)) rfl resolved written
  rw [Form.bindings, bindings_selection] at answered
  have charged : Request.select.charge w = w := rfl
  rw [Compiler.answer_of_form (f := .select (f.selection table)) rfl, charged, answered]

/-- A compiler that checks its texts selects a fragment if the scan finds as many placeholders as it
has bindings. -/
theorem answer_checked {c : Compiler} (postgres : c.dialect = .postgres)
    (verified : c.settings.verify = true) (question : c.settings.style = .question) {w : Workspace}
    (spelled : f.expression.resolve (w.tables.lookup c.context) = .ok text)
    (table : Option String) :
    let sql := selectionText text table
    let found := countPlaceholders false sql
    (c.compile (f.selection table) .select w).1.answer =
      if found = f.bindings.length then
        .ok (.one ⟨sql, ((Binding.evaluateAll f.bindings).run w.cells).1⟩)
      else .error (.placeholderMismatch found f.bindings.length sql) := by
  intro sql found
  have length := Binding.length_evaluateAll f.bindings w.cells
  have counts : countPlaceholders c.dialect.escapesBackslash sql = found := by
    rw [postgres]
    rfl
  rw [answer_selection postgres spelled]
  by_cases counted : found = f.bindings.length
  · have finished : c.finish sql ((Binding.evaluateAll f.bindings).run w.cells).1 =
        .ok ⟨sql, ((Binding.evaluateAll f.bindings).run w.cells).1⟩ := by
      simp [Compiler.finish, counts, question, length, counted]
    rw [if_pos counted, finished]
    rfl
  · have refused : c.finish sql ((Binding.evaluateAll f.bindings).run w.cells).1 =
        .error (.placeholderMismatch found f.bindings.length sql) := by
      simp [Compiler.finish, counts, verified, length, counted]
    rw [if_neg counted, refused]
    rfl

end RawFragment

section Reading

variable {text : String} (table : Option String)

/-- A fragment without placeholders in brackets is scanned as it is read. -/
theorem markedAlike_of_unbracketed
    (closed : Lexeme.Closed (Dialect.postgres.lexemes text.toList))
    (unbracketed : Lexeme.Unbracketed (Dialect.postgres.lexemes text.toList)) :
    Dialect.MarkedAlike (selectionText text table) := by
  obtain ⟨front, behind, read, opens, ends⟩ := lexemes_selectionText table closed
  have everywhere :
      Lexeme.Unbracketed (Dialect.postgres.lexemes (selectionText text table).toList) := by
    have first : Lexeme.Unbracketed front := .of_calm fun x member => (opens x member).calm
    have last : Lexeme.Unbracketed behind := .of_calm fun x member => (ends x member).calm
    rw [read]
    exact (first.append unbracketed).append last
  have whole : Lexeme.Closed (Dialect.postgres.lexemes (selectionText text table).toList) := by
    rw [read]
    exact List.forall_mem_append.2 ⟨List.forall_mem_append.2
      ⟨fun x member => (opens x member).closed, closed⟩, fun x member => (ends x member).closed⟩
  have marked := (Dialect.marking_of_unbracketed everywhere Dialect.reads_of_mem whole).1
  rwa [Dialect.spelled_lexemes rfl] at marked

/-- The first placeholder of a fragment in brackets is read and not scanned. -/
theorem not_markedAlike_of_bracket
    (closed : Lexeme.Closed (Dialect.postgres.lexemes text.toList))
    {front inner behind : List Lexeme} (within : Dialect.postgres.lexemes text.toList =
      front ++ .bare '[' :: inner ++ .bare '?' :: behind)
    (unbracketed : Lexeme.Unbracketed front) (unclosed : ']' ∉ Lexeme.spelling inner) :
    ¬ Dialect.MarkedAlike (selectionText text table) := by
  obtain ⟨opening, ending, read, opens, -⟩ := lexemes_selectionText table closed
  have split : Dialect.postgres.lexemes (selectionText text table).toList =
      opening ++ front ++ .bare '[' :: inner ++ .bare '?' :: (behind ++ ending) := by
    rw [read, within]
    simp only [List.append_assoc, List.cons_append]
  have member : ∀ x ∈ front, x ∈ Dialect.postgres.lexemes text.toList := by
    intro x member
    rw [within, List.append_assoc]
    exact List.mem_append_left _ member
  have own : ∀ x ∈ opening ++ front, Dialect.postgres.Reads x := by
    intro x among
    have within : x ∈ Dialect.postgres.lexemes (selectionText text table).toList := by
      rw [split, List.append_assoc]
      exact List.mem_append_left _ among
    exact Dialect.reads_of_mem x within
  have first : Lexeme.Unbracketed opening := .of_calm fun x member => (opens x member).calm
  have whole : Lexeme.Closed (opening ++ front) :=
    List.forall_mem_append.2 ⟨fun x first => (opens x first).closed,
      fun x later => closed x (member x later)⟩
  have differs := Dialect.marking_ne_of_bracket (first.append unbracketed) own whole unclosed
    (behind ++ ending)
  dsimp only at differs
  rw [← split, Dialect.spelled_lexemes rfl] at differs
  exact differs

/-- The words and the table around a fragment have no placeholders. -/
theorem count_selectionText (closed : Lexeme.Closed (Dialect.postgres.lexemes text.toList)) :
    (Dialect.postgres.lexemes (selectionText text table).toList).count (.bare '?') =
      (Dialect.postgres.lexemes text.toList).count (.bare '?') := by
  obtain ⟨front, behind, read, opens, ends⟩ := lexemes_selectionText table closed
  have first : front.count (.bare '?') = 0 :=
    List.count_eq_zero.2 fun mark => (opens _ mark).unmarked rfl
  have last : behind.count (.bare '?') = 0 :=
    List.count_eq_zero.2 fun mark => (ends _ mark).unmarked rfl
  rw [read, List.count_append, List.count_append, first, last]
  omega

end Reading

namespace Compiler

/-- **Fragments in brackets.** On Postgres, let a fragment have a text whose literals and quoted
names are closed, and as many bindings as the text has placeholders outside them, in brackets or
not. What its selection answers depends on how many the scan for placeholders finds. It is selected
with the values of its bindings, and where placeholders are numbered, those that are read in the
statement are numbered in order and all else stays as it is, exactly if the scan finds the same
ones. That is so where no placeholder stands in brackets, and it is not where one stands in brackets
behind a text that has none there. -/
theorem fragments_selected_iff_marked_alike {c : Compiler} (postgres : c.dialect = .postgres)
    (verified : c.settings.verify = true) (question : c.settings.style = .question)
    {f : RawFragment} {text : String} (w : Workspace)
    (spelled : f.expression.resolve (w.tables.lookup c.context) = .ok text)
    (closed : Lexeme.Closed (Dialect.postgres.lexemes text.toList))
    (bound : (Dialect.postgres.lexemes text.toList).count (.bare '?') = f.bindings.length)
    (table : Option String) :
    let sql := selectionText text table
    let found := countPlaceholders false sql
    let numbered := Lexeme.spelling (Lexeme.numbered 1 (Dialect.postgres.lexemes sql.toList))
    let values := ((Binding.evaluateAll f.bindings).run w.cells).1
    let selected (c : Compiler) := (c.compile (f.selection table) .select w).1.answer
    (selected c = if found = f.bindings.length then .ok (.one ⟨sql, values⟩)
      else .error (.placeholderMismatch found f.bindings.length sql)) ∧
    (selected c = .ok (.one ⟨sql, values⟩) ∧
        selected c.numbering = .ok (.one ⟨String.ofList numbered, values⟩) ↔
      Dialect.MarkedAlike sql) ∧
    (Lexeme.Unbracketed (Dialect.postgres.lexemes text.toList) → Dialect.MarkedAlike sql) ∧
    ∀ front inner behind, Dialect.postgres.lexemes text.toList =
        front ++ .bare '[' :: inner ++ .bare '?' :: behind →
      Lexeme.Unbracketed front → ']' ∉ Lexeme.spelling inner → ¬ Dialect.MarkedAlike sql := by
  intro sql found numbered values selected
  have answer : selected c = if found = f.bindings.length then .ok (.one ⟨sql, values⟩)
      else .error (.placeholderMismatch found f.bindings.length sql) :=
    f.answer_checked postgres verified question spelled table
  have inNumbers : selected c.numbering = (selected c).map Compiled.numbered := by
    simp only [selected, compile_numbering question, Run.map]
  refine ⟨answer, ?_, ?_, ?_⟩
  · rw [inNumbers]
    constructor
    · rintro ⟨answered, written⟩
      rw [answered] at written
      have texts : numberPlaceholders sql = String.ofList numbered :=
        congrArg Statement.sql (Compiled.one.inj (Except.ok.inj written))
      exact (Dialect.numberPlaceholders_eq_iff sql).1 texts
    · intro alike
      have counted : found = f.bindings.length :=
        (Dialect.countPlaceholders_of_markedAlike alike).trans
          ((count_selectionText table closed).trans bound)
      have texts : numberPlaceholders sql = String.ofList numbered :=
        (Dialect.numberPlaceholders_eq_iff sql).2 alike
      rw [answer, if_pos counted, ← texts]
      exact ⟨rfl, rfl⟩
  · exact markedAlike_of_unbracketed table closed
  · intro front inner behind within unbracketed unclosed
    exact not_markedAlike_of_bracket table closed within unbracketed unclosed

/-- An array of two values. -/
def boundArray : RawFragment :=
  ⟨.text 0 (.native []) "ARRAY[?, ?]", [.literal (.int 1), .literal (.int 2)]⟩

/-- A choice of a value, where what looks like a placeholder stands in a literal. -/
def boundChoice : RawFragment :=
  ⟨.text 0 (.native []) "coalesce(a, ?, 'b?')", [.literal (.int 1)]⟩

/-- The array is refused, because the scan takes it for a quoted name; the choice is selected and
numbered. -/
theorem boundArray_refused_but_choice_selected :
    let c : Compiler := ⟨{}, .postgres, {}⟩
    let answer (c : Compiler) (f : RawFragment) :=
      (c.compile (f.selection (some "t")) .select {}).1.answer
    let array := "select ARRAY[?, ?] from \"t\""
    let numbered := "select coalesce(a, $1, 'b?') from \"t\""
    (answer c boundArray = .error (.placeholderMismatch 0 2 array) ∧
      ¬ Dialect.MarkedAlike array) ∧
    answer c.numbering boundChoice = .ok (.one ⟨numbered, [.int 1]⟩) := by
  intro c answer array numbered
  have spelled : boundArray.expression.resolve (Tables.lookup {} c.context) =
      .ok "ARRAY[?, ?]" := rfl
  have spelled' : boundChoice.expression.resolve (Tables.lookup {} c.context) =
      .ok "coalesce(a, ?, 'b?')" := rfl
  have refused := fragments_selected_iff_marked_alike (c := c) rfl rfl rfl {} spelled (by decide)
    (by decide) (some "t")
  have chosen := fragments_selected_iff_marked_alike (c := c) rfl rfl rfl {} spelled' (by decide)
    (by decide) (some "t")
  obtain ⟨mismatch, -, -, bracketed⟩ := refused
  obtain ⟨-, alike, unbracketed, -⟩ := chosen
  have text : selectionText "ARRAY[?, ?]" (some "t") = array := by decide +kernel
  refine ⟨⟨mismatch.trans (by decide +kernel), ?_⟩, ?_⟩
  · rw [← text]
    exact bracketed ("ARRAY".toList.map .bare) [] (", ?]".toList.map .bare) (by decide)
      (.of_calm (by decide)) (by decide)
  · have selected := (alike.2 (unbracketed (.of_calm (by decide)))).2
    exact selected.trans (by decide +kernel)

end Compiler

end SqlFragments
