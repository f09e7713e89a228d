import SqlFragments.Proofs.Remembering
import SqlFragments.Proofs.Spelling

/-!
# Predicates and their bindings

The text of a predicate is spelled by the sources of its parts (`Predicate.spelled`), whatever its
shape and however deep predicates are nested in it. Its bindings are those that the parts bring,
with one exception: an `in` over no values is written without its column, while the bindings of the
column are collected all the same. So the placeholders of a predicate fall short of its bindings by
those that it forgets, and a predicate that forgets none is aligned (`Predicate.aligned_of_safe`).
-/

namespace SqlFragments

variable {w : Writer (Except Error)} {ss ts : List Source}

/-- Two texts with an operator between them. -/
theorem Spelled.compared {left operator right : String} (hl : Spelled w left ss)
    (ho : Spelled w operator []) (hr : Spelled w right ts) :
    Spelled w (left ++ " " ++ operator ++ " " ++ right) (ss ++ ts) := by
  exact (((hl.closed " " rfl).followed ho).closed " " rfl).append hr

/-- A compared part of a date, in the words of any dialect. -/
theorem Spelled.dated {part : DatePart} {column operator value : String}
    (hc : Spelled w column ss) (ho : Spelled w operator []) (hv : Spelled w value ts) :
    Spelled w (w.dialect.dateWhere part column operator value) (ss ++ ts) := by
  have word : Spelled w part.word [] := .plain (by cases part <;> decide)
  have called : Spelled w (part.word ++ "(" ++ column ++ ")") ss :=
    (hc.preceded (word.closed "(" rfl)).closed ")" rfl
  obtain ⟨d, texts⟩ := w
  cases d with
  | mysql => exact called.compared ho hv
  | postgres =>
    have extracted : Spelled ⟨.postgres, texts⟩
        ("extract(" ++ part.word ++ " from " ++ column ++ ")") ss := by
      have before := word.opened "extract(" rfl
      have between := before.closed " from " rfl
      exact (hc.preceded between).closed ")" rfl
    cases part with
    | date => exact (hc.closed "::date" rfl).compared ho hv
    | time => exact (hc.closed "::time" rfl).compared ho hv
    | day | month | year => exact extracted.compared ho hv
  | sqlite =>
    have pattern :
        Spelled ⟨.sqlite, texts⟩ ("strftime('" ++ Dialect.datePattern part ++ "', ") [] := by
      refine .words ?_
      show Quote.Balanced false _ 0
      cases part <;> decide
    have left := (((hc.preceded pattern).closed ") " rfl).followed ho).closed " cast(" rfl
    exact (left.append hv).closed " as text)" rfl
  | sqlServer =>
    have cast : Spelled ⟨.sqlServer, texts⟩ ("cast(" ++ column) ss := hc.opened "cast(" rfl
    cases part with
    | date => exact (cast.closed " as date)" rfl).compared ho hv
    | time => exact (cast.closed " as time)" rfl).compared ho hv
    | day | month | year => exact called.compared ho hv

namespace Predicate

mutual

/-- The bindings of columns that the text leaves out: of those before `in` over no values. -/
def forgotten : Predicate → List Binding
  | among _ column _ values => if values.isEmpty then column.bindings else []
  | nested _ members => forgottenOfAll members
  | compare .. | raw .. | null .. | between .. | columns .. | dated .. => []

/-- The bindings that predicates in a row forget. -/
def forgottenOfAll : List Predicate → List Binding
  | [] => []
  | p :: ps => p.forgotten ++ forgottenOfAll ps

end

mutual

/-- A predicate collects what its text brings, and what it forgets. -/
theorem length_bindings : ∀ p : Predicate,
    p.bindings.length = (brought p.parts).length + p.forgotten.length
  | compare .. | raw .. | null .. | between .. | columns .. | dated .. => by
    simp [bindings, parts, forgotten, Source.bindings]
  | among _ column _ values => by
    cases values with
    | nil => simp [bindings, parts, forgotten]
    | cons v vs => simp [bindings, parts, forgotten]
  | nested _ members => by
    simpa only [bindings, parts, forgotten] using length_bindingsOfAll members

theorem length_bindingsOfAll : ∀ ps : List Predicate,
    (bindingsOfAll ps).length = (brought (partsOfAll ps)).length + (forgottenOfAll ps).length
  | [] => rfl
  | p :: ps => by
    have first := length_bindings p
    have rest := length_bindingsOfAll ps
    simp only [bindingsOfAll, partsOfAll, forgottenOfAll, brought_append, List.length_append]
    omega

end

mutual

theorem brought_sublist : ∀ p : Predicate, (brought p.parts).Sublist p.bindings
  | compare .. | raw .. | null .. | between .. | columns .. | dated .. => by
    simp [bindings, parts, Source.bindings]
  | among _ column _ values => by
    cases values with
    | nil => simp [bindings, parts]
    | cons v vs => simp [bindings, parts]
  | nested _ members => by
    simpa only [bindings, parts] using brought_sublist_ofAll members

theorem brought_sublist_ofAll : ∀ ps : List Predicate,
    (brought (partsOfAll ps)).Sublist (bindingsOfAll ps)
  | [] => List.Sublist.refl []
  | p :: ps => by
    simp only [bindingsOfAll, partsOfAll, brought_append]
    exact (brought_sublist p).append (brought_sublist_ofAll ps)

end

/-- A predicate that forgets nothing collects exactly what its text brings. -/
theorem brought_parts_iff (p : Predicate) : brought p.parts = p.bindings ↔ p.forgotten = [] := by
  have lengths := p.length_bindings
  constructor
  · intro same
    rw [same] at lengths
    exact List.length_eq_zero_iff.1 (by omega)
  · intro nothing
    rw [nothing, List.length_nil, Nat.add_zero] at lengths
    exact p.brought_sublist.eq_of_length lengths.symm

mutual

/-- What a predicate is written as is spelled by the sources of its parts. -/
theorem spelled : ∀ p : Predicate, (∀ part ∈ p.parts, part.Safe w) → ∀ {text : String},
    w.predicate p = .ok text → Spelled w text (sources p.parts)
  | compare _ column operator value, safe, text, h => by
    simp only [Writer.predicate, bind_eq_ok, pure_eq_ok] at h
    obtain ⟨left, hl, right, hr, rfl⟩ := h
    have first := Ident.spelled (fun q hq => safe q (by simp [parts, hq])) hl
    have second := Operand.spelled (fun q hq => safe q (by simp [parts, hq])) hr
    have between : (Part.operator operator).Safe w := safe _ (by simp [parts])
    simpa [parts] using first.compared between.operator_spelled second
  | raw _ f, safe, text, h => by
    simp only [Writer.predicate] at h
    simpa [parts] using Spelled.fragment h (safe (.source (.fragment f)) (by simp [parts]) text h)
  | among _ column negated values, safe, text, h => by
    simp only [Writer.predicate] at h
    split at h
    · next none =>
      obtain rfl : (if negated then "1 = 1" else "0 = 1") = text := pure_eq_ok.1 h
      simp only [parts, none, if_true]
      exact .plain (by cases negated <;> decide)
    · next some =>
      simp only [bind_eq_ok, pure_eq_ok] at h
      obtain ⟨list, hlist, left, hl, rfl⟩ := h
      have safe : ∀ q ∈ column.parts ++ values.flatMap Operand.parts, q.Safe w := by
        simpa [parts, some] using safe
      have first := Ident.spelled (fun q hq => safe q (List.mem_append_left _ hq)) hl
      have members : List.Forall₂ (Spelled w) list (values.map fun v => sources v.parts) :=
        Spelled.each hlist fun v hv t ht => Operand.spelled
          (fun q hq => safe q (List.mem_append_right _ (List.mem_flatMap.2 ⟨v, hv, hq⟩))) ht
      have word : Spelled w (if negated then " not in (" else " in (") [] :=
        .plain (by cases negated <;> decide)
      have whole := ((first.followed word).append (.commaList members)).closed ")" rfl
      rw [parts, if_neg some, sources_append, sources_flatMap, List.flatMap_def]
      exact whole
  | null _ column negated, safe, text, h => by
    simp only [Writer.predicate, bind_eq_ok, pure_eq_ok] at h
    obtain ⟨left, hl, rfl⟩ := h
    have first := Ident.spelled (fun q hq => safe q (by simpa [parts] using hq)) hl
    simpa only [parts] using first.followed (.plain (by cases negated <;> decide))
  | between _ column negated low high, safe, text, h => by
    simp only [Writer.predicate, bind_eq_ok, pure_eq_ok] at h
    obtain ⟨left, hl, first, hlow, last, hhigh, rfl⟩ := h
    have column := Ident.spelled (fun q hq => safe q (by simp [parts, hq])) hl
    have lower := Operand.spelled (fun q hq => safe q (by simp [parts, hq])) hlow
    have upper := Operand.spelled (fun q hq => safe q (by simp [parts, hq])) hhigh
    have word : Spelled w (if negated then " not between " else " between ") [] :=
      .plain (by cases negated <;> decide)
    have whole := (((column.followed word).append lower).closed " and " rfl).append upper
    simpa [parts] using whole
  | columns _ first operator second, safe, text, h => by
    simp only [Writer.predicate, bind_eq_ok, pure_eq_ok] at h
    obtain ⟨left, hl, right, hr, rfl⟩ := h
    have first := Ident.spelled (fun q hq => safe q (by simp [parts, hq])) hl
    have second := Ident.spelled (fun q hq => safe q (by simp [parts, hq])) hr
    have between : (Part.operator operator).Safe w := safe _ (by simp [parts])
    simpa [parts] using first.compared between.operator_spelled second
  | nested _ members, safe, text, h => by
    simp only [Writer.predicate, bind_eq_ok, pure_eq_ok] at h
    obtain ⟨inner, hi, rfl⟩ := h
    have inside := spelledAll members (fun q hq => safe q (by simpa [parts] using hq)) hi
    simpa only [parts] using
      (inside.opened "(" rfl).closed ")" rfl
  | dated _ part column operator value, safe, text, h => by
    simp only [Writer.predicate, bind_eq_ok, pure_eq_ok] at h
    obtain ⟨left, hl, right, hr, rfl⟩ := h
    have first := Ident.spelled (fun q hq => safe q (by simp [parts, hq])) hl
    have second := Operand.spelled (fun q hq => safe q (by simp [parts, hq])) hr
    have between : (Part.operator operator).Safe w := safe _ (by simp [parts])
    simpa [parts] using first.dated between.operator_spelled second

/-- Predicates joined by their words are spelled one after another. -/
theorem spelledAll : ∀ ps : List Predicate, (∀ part ∈ partsOfAll ps, part.Safe w) →
    ∀ {text : String}, w.predicates ps = .ok text → Spelled w text (sources (partsOfAll ps))
  | [], _, text, h => by
    simp only [Writer.predicates] at h
    obtain rfl : "" = text := pure_eq_ok.1 h
    exact .word "" rfl
  | p :: ps, safe, text, h => by
    simp only [Writer.predicates, bind_eq_ok, pure_eq_ok] at h
    obtain ⟨first, hfirst, others, hothers, rfl⟩ := h
    have head := spelled p (fun q hq => safe q (by simp [partsOfAll, hq])) hfirst
    have tail := spelledFollowers ps (fun q hq => safe q (by simp [partsOfAll, hq])) hothers
    simpa [partsOfAll] using head.append tail

theorem spelledFollowers : ∀ ps : List Predicate, (∀ part ∈ partsOfAll ps, part.Safe w) →
    ∀ {text : String}, w.followers ps = .ok text → Spelled w text (sources (partsOfAll ps))
  | [], _, text, h => by
    simp only [Writer.followers] at h
    obtain rfl : "" = text := pure_eq_ok.1 h
    exact .word "" rfl
  | p :: ps, safe, text, h => by
    simp only [Writer.followers, bind_eq_ok, pure_eq_ok] at h
    obtain ⟨first, hfirst, others, hothers, rfl⟩ := h
    have head := spelled p (fun q hq => safe q (by simp [partsOfAll, hq])) hfirst
    have tail := spelledFollowers ps (fun q hq => safe q (by simp [partsOfAll, hq])) hothers
    have word : Spelled w (" " ++ p.link.word ++ " ") [] := .plain (by cases p.link <;> decide)
    simpa [partsOfAll] using (head.preceded word).append tail

end

/-- Whenever the predicate is written on its own, its text is aligned with its bindings. -/
def AlignedAlone (w : Writer (Except Error)) (p : Predicate) : Prop :=
  ∀ text, w.predicate p = .ok text → Aligned w text (sources p.parts) p.bindings

/-- A predicate of safe parts is aligned, if it has no list without values before which a binding is
forgotten. -/
theorem aligned_of_safe {p : Predicate} (safe : ∀ part ∈ p.parts, part.Safe w)
    (nothing : p.forgotten = []) : p.AlignedAlone w := by
  intro text written
  exact ⟨p.spelled safe written, p.brought_parts_iff.2 nothing⟩

/-- **Predicates are aligned.** Where its parts are safe, the text of a predicate is spelled by its
sources in order, so it has a placeholder for each of their bindings. The bindings that the
predicate collects are these and those that it forgets: it is aligned, in number and in order,
exactly when it forgets none. -/
theorem aligned_iff_forgets_nothing {d : Dialect} {ctx : Context} {tables : Tables}
    {p : Predicate} {text : String} (safe : ∀ part ∈ p.parts, part.Safe (.reading d ctx tables))
    (written : (((Writer.remembering d ctx).predicate p).run.run tables).1 = .ok text) :
    Spelled (.reading d ctx tables) text (sources p.parts) ∧
      countPlaceholders d.escapesBackslash text + p.forgotten.length = p.bindings.length ∧
      (countPlaceholders d.escapesBackslash text = p.bindings.length ↔ p.forgotten = []) ∧
      (Aligned (.reading d ctx tables) text (sources p.parts) p.bindings ↔
        p.forgotten = []) := by
  have spelled : Spelled (.reading d ctx tables) text (sources p.parts) := by
    rw [Tables.recalled ((Tables.recalling_writers d ctx tables).predicate p)] at written
    exact p.spelled safe written
  have counted : countPlaceholders d.escapesBackslash text = (brought p.parts).length :=
    spelled.count_eq
  have lengths := p.length_bindings
  refine ⟨spelled, by omega, ?_, ?_⟩
  · rw [← List.length_eq_zero_iff]
    omega
  · constructor
    · intro aligned
      exact p.brought_parts_iff.1 aligned.brought
    · intro nothing
      exact ⟨spelled, p.brought_parts_iff.2 nothing⟩

/-- A group with an `in` over two values and one over none, whose column has a binding. -/
def groupOfLists : Predicate :=
  .nested .and [
    .among .and (.raw ⟨.text 0 (.native [.literal (.int 1)]) "a + ?", []⟩) false
      [.bound (.literal (.int 2)), .inline (.text 1 (.native []) "now()")],
    .among .or (.raw ⟨.text 2 (.native [.literal (.int 3)]) "b + ?", []⟩) true []]

theorem aligned_groupOfLists :
    (∀ part ∈ groupOfLists.parts, part.Safe (.reading .mysql {} {})) ∧
      (((Writer.remembering .mysql {}).predicate groupOfLists).run.run {}).1 =
        .ok "(a + ? in (?, now()) or 1 = 1)" ∧
      countPlaceholders true "(a + ? in (?, now()) or 1 = 1)" + groupOfLists.forgotten.length =
        groupOfLists.bindings.length := by
  have safe : ∀ part ∈ groupOfLists.parts, part.Safe (.reading .mysql {} {}) := by
    decide +kernel
  have written : (((Writer.remembering .mysql {}).predicate groupOfLists).run.run {}).1 =
      .ok "(a + ? in (?, now()) or 1 = 1)" := by
    decide +kernel
  exact ⟨safe, written, (aligned_iff_forgets_nothing safe written).2.1⟩

theorem aligned_followers {ps : List Predicate} (h : ∀ p ∈ ps, p.AlignedAlone w) {text : String}
    (written : w.followers ps = .ok text) :
    Aligned w text (sources (partsOfAll ps)) (bindingsOfAll ps) := by
  induction ps generalizing text with
  | nil =>
    obtain rfl : "" = text := pure_eq_ok.1 written
    exact .empty
  | cons p ps ih =>
    simp only [Writer.followers, bind_eq_ok, pure_eq_ok] at written
    obtain ⟨first, hfirst, others, hothers, rfl⟩ := written
    have word : Spelled w (" " ++ p.link.word ++ " ") [] := .plain (by cases p.link <;> decide)
    have head := (h p List.mem_cons_self first hfirst).preceded word
    have tail := ih (fun q hq => h q (List.mem_cons_of_mem p hq)) hothers
    simpa [partsOfAll, bindingsOfAll] using head.append tail

/-- Predicates that are aligned one by one are aligned in a row. -/
theorem aligned_all {ps : List Predicate} (h : ∀ p ∈ ps, p.AlignedAlone w) {text : String}
    (written : w.predicates ps = .ok text) :
    Aligned w text (sources (partsOfAll ps)) (bindingsOfAll ps) := by
  cases ps with
  | nil =>
    obtain rfl : "" = text := pure_eq_ok.1 written
    exact .empty
  | cons p ps =>
    simp only [Writer.predicates, bind_eq_ok, pure_eq_ok] at written
    obtain ⟨first, hfirst, others, hothers, rfl⟩ := written
    have head := h p List.mem_cons_self first hfirst
    have tail := aligned_followers (fun q hq => h q (List.mem_cons_of_mem p hq)) hothers
    simpa [partsOfAll, bindingsOfAll] using head.append tail

end Predicate

end SqlFragments
