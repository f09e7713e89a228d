import SqlFragments.Proofs.Balance
import SqlFragments.Proofs.Forms

/-!
# Numbered placeholders

A compiler counts the placeholders of a statement as its dialect reads them, and it numbers them as
a reader does to whom a backslash is a character like any other. The two readings see the same
quotes in every dialect but MySQL, and there too as long as no backslash takes away the meaning of a
quote.

`Numbers` says what a statement with numbers is, without reading it character by character: the text
between the placeholders stays, and the placeholders between them become `$1`, `$2`, ….
`Compiler.numbers_iff_marked_alike` says when a compiler keeps to that.
-/

namespace SqlFragments

namespace Quote

variable {backslash backslash' : Bool} {q q' : Quote} {cs : List Char} {pieces : List (List Char)}

/-- A text, read from `q`, is its pieces with a placeholder between neighbours. -/
inductive Cut (backslash : Bool) : Quote → List Char → List (List Char) → Prop where
  | last {q : Quote} {piece : List Char} (unmarked : q.count backslash piece = 0) :
    Cut backslash q piece [piece]
  | mark {q : Quote} {piece rest : List Char} {pieces : List (List Char)}
    (unmarked : q.count backslash piece = 0) (outer : q.after backslash piece = outside)
    (cut : Cut backslash outside rest pieces) :
    Cut backslash q (piece ++ '?' :: rest) (piece :: pieces)

/-- Pieces with the numbers from `next` on between neighbours. -/
def numbered (next : Nat) : List (List Char) → List Char
  | [] => []
  | [piece] => piece
  | piece :: second :: rest =>
    piece ++ '$' :: (toString next).toList ++ numbered (next + 1) (second :: rest)

/-- A placeholder leaves the reading where it is. -/
theorem step_mark : outside.step backslash '?' = outside := rfl

/-- Only a question mark outside quotes is a placeholder. -/
theorem marks_iff {c : Char} : q.marks c = true ↔ q = outside ∧ c = '?' := by
  simp [marks]

/-- Every text can be cut at its placeholders. -/
theorem exists_cut (backslash : Bool) (q : Quote) (cs : List Char) :
    ∃ pieces, Cut backslash q cs pieces := by
  induction cs generalizing q with
  | nil => exact ⟨[[]], .last rfl⟩
  | cons c cs ih =>
    by_cases marked : q.marks c = true
    · obtain ⟨rfl, rfl⟩ := marks_iff.1 marked
      obtain ⟨pieces, cut⟩ := ih outside
      have whole : Cut backslash outside ([] ++ '?' :: cs) ([] :: pieces) := .mark rfl rfl cut
      exact ⟨[] :: pieces, whole⟩
    · have unread (piece : List Char) :
          q.count backslash (c :: piece) = (q.step backslash c).count backslash piece := by
        rw [count_cons, if_neg marked, Nat.zero_add]
      obtain ⟨pieces, cut⟩ := ih (q.step backslash c)
      cases cut with
      | last unmarked => exact ⟨[c :: cs], .last ((unread cs).trans unmarked)⟩
      | @mark _ piece rest pieces unmarked outer cut =>
        have whole : Cut backslash q (c :: piece ++ '?' :: rest) ((c :: piece) :: pieces) :=
          .mark ((unread piece).trans unmarked) outer cut
        exact ⟨(c :: piece) :: pieces, whole⟩

/-- There is one piece more than there are placeholders. -/
theorem Cut.length_eq (h : Cut backslash q cs pieces) :
    pieces.length = q.count backslash cs + 1 := by
  induction h with
  | last unmarked => rw [unmarked, List.length_singleton]
  | mark unmarked outer _ ih =>
    have marked : outside.marks '?' = true := rfl
    rw [count_append, unmarked, outer, count_cons, step_mark, if_pos marked, List.length_cons, ih]
    omega

/-- Numbering puts the numbers between the pieces. -/
theorem Cut.number_eq (h : Cut backslash q cs pieces) (next : Nat) :
    q.number backslash next cs = numbered next pieces := by
  induction h generalizing next with
  | last unmarked => rw [number_of_count_eq_zero next unmarked, numbered]
  | @mark q piece rest pieces unmarked outer cut ih =>
    have marked : outside.marks '?' = true := rfl
    rw [number_append, number_of_count_eq_zero next unmarked, outer, unmarked, Nat.add_zero,
      number, if_pos marked, step_mark, ih (next + 1)]
    cases cut <;> simp [numbered]

/-- For each character of a text, read from here, whether it is a placeholder. -/
def marking (backslash : Bool) : Quote → List Char → List Bool
  | _, [] => []
  | q, c :: cs => q.marks c :: marking backslash (q.step backslash c) cs

/-- Two readings number a text alike exactly when they find the same placeholders: at the first
character on which they differ one writes a number and the other leaves the question mark. -/
theorem number_eq_iff (q q' : Quote) (next : Nat) (cs : List Char) :
    q.number backslash next cs = q'.number backslash' next cs ↔
      q.marking backslash cs = q'.marking backslash' cs := by
  induction cs generalizing q q' next with
  | nil => simp [number, marking]
  | cons c cs ih =>
    have differs (h : q.marks c = true ∨ q'.marks c = true) : c ≠ '$' := by
      rintro rfl
      simp [marks_iff] at h
    rw [number, number, marking, marking, List.cons.injEq]
    cases hq : q.marks c <;> cases hq' : q'.marks c
    · simp [ih]
    · simpa using fun same : c = '$' => absurd same (differs (.inr hq'))
    · simpa using fun same : '$' = c => absurd same.symm (differs (.inl hq))
    · simp [ih]

/-- What a backslash means shows only where there is one. -/
theorem marking_of_no_backslash (unescaped : Unescaped q) (h : '\\' ∉ cs) :
    q.marking false cs = q.marking backslash cs := by
  induction cs generalizing q with
  | nil => rfl
  | cons c cs ih =>
    have plain : c ≠ '\\' := fun same => h (same ▸ List.mem_cons_self)
    have rest : '\\' ∉ cs := fun later => h (List.mem_cons_of_mem c later)
    have same : q.step false c = q.step backslash c := by
      cases q with
      | outside => rfl
      | inside closing => simp [step, plain]
      | escaped closing => exact absurd rfl (unescaped closing)
    rw [marking, marking, ← same, ih (unescaped.step c) rest]

end Quote

/-- The text `t` is `s` with its `n` placeholders written `$1` to `$n`. -/
def Numbers (backslash : Bool) (s t : String) (n : Nat) : Prop :=
  ∃ pieces, Quote.Cut backslash .outside s.toList pieces ∧ pieces.length = n + 1 ∧
    t.toList = Quote.numbered 1 pieces

/-- There is one such text, which reading character by character makes. -/
theorem numbers_iff {backslash : Bool} {s t : String} {n : Nat} :
    Numbers backslash s t n ↔
      countPlaceholders backslash s = n ∧ t.toList = Quote.outside.number backslash 1 s.toList := by
  constructor
  · rintro ⟨pieces, cut, length, written⟩
    have counted := cut.length_eq
    exact ⟨by unfold countPlaceholders; omega, written.trans (cut.number_eq 1).symm⟩
  · rintro ⟨counted, written⟩
    obtain ⟨pieces, cut⟩ := Quote.exists_cut backslash .outside s.toList
    exact ⟨pieces, cut, cut.length_eq.trans (congrArg (· + 1) counted),
      written.trans (cut.number_eq 1)⟩

/-! ## Compiling with numbers -/

/-- The statement with its placeholders numbered. -/
def Statement.numbered (s : Statement) : Statement := ⟨numberPlaceholders s.sql, s.bindings⟩

/-- A statement with its placeholders numbered; those that empty a table are left as they are. -/
def Compiled.numbered : Compiled → Compiled
  | one s => one s.numbered
  | several ss => several ss

namespace Compiler

variable {c : Compiler} {q : Query} {r : Request} {w : Workspace} {s : Statement}

/-- The compiler that writes `$1`, `$2`, …. -/
def numbering (c : Compiler) : Compiler :=
  { c with settings := { c.settings with style := .numbered } }

theorem finish_numbering (question : c.settings.style = .question) (sql : String)
    (values : List Value) :
    c.numbering.finish sql values = (c.finish sql values).map Statement.numbered := by
  let placeholders := countPlaceholders c.dialect.escapesBackslash sql
  by_cases mismatch : (c.settings.verify && placeholders != values.length) = true
  · have asked : c.finish sql values =
        .error (.placeholderMismatch placeholders values.length sql) := if_pos mismatch
    rw [asked]
    exact if_pos mismatch
  · have asked : c.finish sql values = .ok ⟨sql, values⟩ := by
      refine (if_neg mismatch).trans ?_
      rw [question]
    rw [asked]
    exact if_neg mismatch

/-- The style matters only for the text of a finished statement. -/
theorem run_numbering (question : c.settings.style = .question) (others : List Query)
    (extra : List Expression) (write : Writer Resolution → Resolution String)
    (bindings : List Binding) :
    c.numbering.run q others extra write bindings w =
      ((c.run q others extra write bindings w).1.map Statement.numbered,
        (c.run q others extra write bindings w).2) := by
  have same : c.numbering.draft q others extra write w = c.draft q others extra write w := rfl
  rw [run_eq, run_eq, same]
  rcases c.draft q others extra write w with ⟨⟨e | sql, phases, after⟩, w⟩
  · rfl
  · unfold settle
    dsimp only
    rcases Workspace.evaluating (Binding.evaluateAll bindings) w with ⟨values, w⟩
    dsimp only
    rw [finish_numbering question]
    cases c.finish sql values <;> rfl

theorem compile_numbering (question : c.settings.style = .question) :
    c.numbering.compile q r w =
      ((c.compile q r w).1.map Compiled.numbered, (c.compile q r w).2) := by
  rw [compile_eq, compile_eq]
  rcases Form.ofRequest q w.next r with e | _ | f
  · rfl
  · simp only [truncate, numbering]
    cases c.dialect.truncateQuery q <;> rfl
  · have run : f.run c.numbering (r.charge w) =
        ((f.run c (r.charge w)).1.map Statement.numbered, (f.run c (r.charge w)).2) :=
      run_numbering question _ _ _ _
    dsimp only
    rw [run]
    rcases f.run c (r.charge w) with ⟨⟨e | s, phases, after⟩, w'⟩ <;> rfl

/-- A statement that a run answers was finished from a text and values. -/
theorem finish_of_run {others : List Query} {extra : List Expression}
    {write : Writer Resolution → Resolution String} {bindings : List Binding}
    (answered : (c.run q others extra write bindings w).1.answer = .ok s) :
    ∃ sql values, c.finish sql values = .ok s := by
  rw [run_eq, settle_answer] at answered
  cases drafted : (c.draft q others extra write w).1.answer with
  | error e =>
    rw [drafted] at answered
    cases answered
  | ok sql =>
    rw [drafted] at answered
    exact ⟨sql, _, answered⟩

/-- A statement is what is finished from a text and values. -/
theorem finish_of_compile (compiled : (c.compile q r w).1.answer = .ok (.one s)) :
    ∃ sql values, c.finish sql values = .ok s := by
  rcases form : Form.ofRequest q w.next r with e | _ | f
  · rw [compile_eq, form] at compiled
    cases compiled
  · rw [compile_eq, form] at compiled
    exact absurd compiled (c.truncate_ne_one q s)
  · rw [compile_of_form form] at compiled
    obtain ⟨_, answered, ⟨⟩⟩ := map_eq_ok.1 compiled
    exact finish_of_run answered

/-- A text that was checked has one placeholder for each value. -/
theorem count_eq_of_finish {sql : String} {values : List Value}
    (question : c.settings.style = .question) (verified : c.settings.verify = true)
    (finished : c.finish sql values = .ok s) :
    countPlaceholders c.dialect.escapesBackslash s.sql = s.bindings.length := by
  by_cases mismatch : countPlaceholders c.dialect.escapesBackslash sql = values.length
  · simp [finish, mismatch, question] at finished
    subst finished
    exact mismatch
  · simp [finish, mismatch, verified] at finished

/-- **Numbered statements.** Where a checked compilation comes to a statement, the one with numbers
comes to a statement with the same values, through the same phases. Its text is that of the first
with each placeholder that was checked numbered, and nothing else changed, exactly when a reader to
whom a backslash is a character like any other finds the same placeholders. That is so in every
dialect but MySQL, and in every text without a backslash. -/
theorem numbers_iff_marked_alike (question : c.settings.style = .question)
    (verified : c.settings.verify = true)
    (compiled : (c.compile q r w).1.answer = .ok (.one s)) :
    ∃ t, c.numbering.compile q r w =
        (⟨.ok (.one ⟨t, s.bindings⟩), (c.compile q r w).1.phases, (c.compile q r w).1.query⟩,
          (c.compile q r w).2) ∧
      (Numbers c.dialect.escapesBackslash s.sql t s.bindings.length ↔
        Quote.outside.marking false s.sql.toList =
          Quote.outside.marking c.dialect.escapesBackslash s.sql.toList) ∧
      (c.dialect ≠ .mysql ∨ '\\' ∉ s.sql.toList →
        Numbers c.dialect.escapesBackslash s.sql t s.bindings.length) := by
  obtain ⟨sql, values, finished⟩ := finish_of_compile compiled
  have counted := count_eq_of_finish question verified finished
  have right : Numbers c.dialect.escapesBackslash s.sql (numberPlaceholders s.sql)
      s.bindings.length ↔ Quote.outside.marking false s.sql.toList =
        Quote.outside.marking c.dialect.escapesBackslash s.sql.toList := by
    rw [numbers_iff, numberPlaceholders, String.toList_ofList, Quote.number_eq_iff,
      and_iff_right counted]
  refine ⟨numberPlaceholders s.sql, ?_, right, fun easy => right.2 ?_⟩
  · rw [compile_numbering question, Run.map, compiled]
    rfl
  · rcases easy with other | plain
    · have literal : c.dialect.escapesBackslash = false := by
        cases dialect : c.dialect with
        | mysql => exact absurd dialect other
        | postgres | sqlite | sqlServer => rfl
      rw [literal]
    · exact Quote.marking_of_no_backslash Quote.unescaped_outside plain

/-- A query that compares a column with a literal in which a backslash stands before a quote. -/
def escapedLiteral : Query :=
  let condition : RawFragment :=
    ⟨.text 0 (.native []) "name <> 'it\\'s' and id = ?", [.literal (.int 1)]⟩
  (({} : Query).fromTable (.name "users")).addWhere (.raw .and condition)

/-- On MySQL the only placeholder stays as it is, because a reader that does not know what the
backslash means takes it for a part of a literal. -/
theorem escapedLiteral_not_numbered :
    let sql := "select * from `users` where name <> 'it\\'s' and id = ?"
    let c : Compiler := ⟨{}, .mysql, {}⟩
    c.settings.style = .question ∧ c.settings.verify = true ∧
      (c.compile escapedLiteral .select {}).1.answer = .ok (.one ⟨sql, [.int 1]⟩) ∧
      (c.numbering.compile escapedLiteral .select {}).1.answer = .ok (.one ⟨sql, [.int 1]⟩) ∧
      ¬ Numbers true sql sql 1 := by
  intro sql c
  have compiled : (c.compile escapedLiteral .select {}).1.answer = .ok (.one ⟨sql, [.int 1]⟩) := by
    decide +kernel
  have numbered : (c.numbering.compile escapedLiteral .select {}).1.answer =
      .ok (.one ⟨sql, [.int 1]⟩) := by
    decide +kernel
  obtain ⟨t, answer, right, -⟩ := numbers_iff_marked_alike rfl rfl compiled
  have same : t = sql := by
    rw [answer] at numbered
    cases numbered
    rfl
  refine ⟨rfl, rfl, compiled, numbered, fun wrong => ?_⟩
  rw [same] at right
  exact absurd (right.1 wrong) (by decide +kernel)

end Compiler

end SqlFragments
