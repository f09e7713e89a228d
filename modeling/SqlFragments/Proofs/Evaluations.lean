import SqlFragments.Proofs.Phases
import SqlFragments.Proofs.Reordering

/-!
# How often bindings are evaluated

The bindings of a request stand at places: in a slot of one of its queries, in a row, among the
assigned values. `Request.occurrences` lists them, one for each place. A compilation evaluates
bindings of this list in some order, each at most once, with one exception: a deletion through a join
names its table twice, and where the table is raw its bindings are evaluated for the first naming and
again for the second (`Request.repeated`, `Compiler.evaluates_once_but_repeated`). So a counting
binding there is given two values, and its cell moves on twice (`Compiler.countedTable_twice`).
-/

namespace SqlFragments

/-! ## Evaluating lists of bindings -/

namespace Binding

theorem evaluateAll_cons (b : Binding) (bs : List Binding) (cells : Cells) :
    (evaluateAll (b :: bs)).run cells =
      ((b.evaluate.run cells).1 :: ((evaluateAll bs).run (b.evaluate.run cells).2).1,
        ((evaluateAll bs).run (b.evaluate.run cells).2).2) :=
  rfl

theorem evaluateAll_append (bs more : List Binding) (cells : Cells) :
    (evaluateAll (bs ++ more)).run cells =
      (((evaluateAll bs).run cells).1 ++
          ((evaluateAll more).run ((evaluateAll bs).run cells).2).1,
        ((evaluateAll more).run ((evaluateAll bs).run cells).2).2) := by
  induction bs generalizing cells with
  | nil => rfl
  | cons b bs ih =>
    rw [List.cons_append, evaluateAll_cons, evaluateAll_cons, ih]
    rfl

/-- A counting binding yields its cell and moves it on. -/
theorem evaluate_counting {cells : Cells} {cell : String} {n : Int64}
    (holds : cells.get cell = .int n) :
    (deferred (.counting cell)).evaluate.run cells = (.int n, cells.set cell (.int (n + 1))) := by
  simp only [evaluate, StateT.run, holds]

/-- A binding leaves the cells alone that it does not count. -/
theorem get_evaluate_of_ne {b : Binding} {cell : String} (other : b ≠ .deferred (.counting cell))
    (cells : Cells) : (b.evaluate.run cells).2.get cell = cells.get cell := by
  cases b with
  | literal v => rfl
  | deferred source =>
    cases source with
    | reading name => rfl
    | counting name =>
      have apart : cell ≠ name := by
        rintro rfl
        exact other rfl
      simp only [evaluate, StateT.run]
      split
      · exact Cells.get_set_ne _ _ apart
      · rfl

/-- **Counting.** A cell moves on by the number of times that it is counted. -/
theorem get_evaluateAll (bs : List Binding) {cells : Cells} {cell : String} {n : Int64}
    (holds : cells.get cell = .int n) :
    ((evaluateAll bs).run cells).2.get cell =
      .int (n + Int64.ofNat (bs.count (.deferred (.counting cell)))) := by
  induction bs generalizing cells n with
  | nil =>
    rw [List.count_nil]
    exact holds.trans (congrArg Value.int (Int64.add_zero n).symm)
  | cons b bs ih =>
    rw [evaluateAll_cons, List.count_cons]
    dsimp only
    by_cases counts : b = .deferred (.counting cell)
    · have first : (b.evaluate.run cells).2.get cell = .int (n + 1) := by
        rw [counts, evaluate_counting holds]
        exact Cells.get_set_self _ _ _
      rw [ih first, if_pos (beq_iff_eq.2 counts), Int64.ofNat_add, Int64.add_assoc,
        Int64.add_comm 1]
      rfl
    · rw [ih ((get_evaluate_of_ne counts cells).trans holds), if_neg (mt beq_iff_eq.1 counts),
        Nat.add_zero]

/-- Bindings that count nothing leave the cells alone. -/
theorem evaluateAll_of_still {bs : List Binding} (still : ∀ cell, .deferred (.counting cell) ∉ bs)
    (cells : Cells) : ((evaluateAll bs).run cells).2 = cells := by
  induction bs generalizing cells with
  | nil => rfl
  | cons b bs ih =>
    have first : (b.evaluate.run cells).2 = cells := by
      cases b with
      | literal v => rfl
      | deferred source =>
        cases source with
        | reading cell => rfl
        | counting cell => exact absurd List.mem_cons_self (still cell)
    rw [evaluateAll_cons, first]
    exact ih (fun cell member => still cell (List.mem_cons_of_mem _ member)) cells

end Binding

/-! ## Places of bindings -/

/-- The bindings in all slots but the order of a united whole. -/
def Slots.occurrences (s : Slots) : List Binding :=
  s.aggregate.toList.flatMap (fun a => a.columns.flatMap Ident.bindings) ++
  s.columns.flatMap Ident.bindings ++
  s.table.toList.flatMap Ident.bindings ++
  s.joins.flatMap Join.bindings ++
  Predicate.bindingsOfAll s.wheres ++
  s.groups.flatMap Ident.bindings ++
  Predicate.bindingsOfAll s.havings ++
  s.page.bindings

mutual

/-- The bindings of a query, one for each place in a slot, and of the queries it is united with. -/
def Query.occurrences : Query → List Binding
  | ⟨slots, unions, _, _⟩ =>
    slots.occurrences ++ Query.memberOccurrences unions ++ slots.combined.bindings

/-- The bindings of united queries. -/
def Query.memberOccurrences : List (Bool × Query) → List Binding
  | [] => []
  | (_, q) :: rest => q.occurrences ++ Query.memberOccurrences rest

end

/-- The bindings of the table of a deletion through joins, which names it twice. -/
def Query.repeated (q : Query) : List Binding :=
  match q.slots.joins, q.slots.table with
  | _ :: _, some (.raw fragment) => fragment.bindings
  | _, _ => []

namespace Request

/-- The bindings of a request, one for each place: in its queries, its rows and its assigned
values. -/
def occurrences (r : Request) (q : Query) : List Binding :=
  (r.target q).occurrences ++ r.sources.flatMap Query.occurrences ++
    r.records.flatMap Record.bindings

/-- The bindings whose text the statement of a request repeats. -/
def repeated (r : Request) (q : Query) : List Binding :=
  match r with
  | delete => q.repeated
  | _ => []

end Request

theorem Slots.bindings_sublist (s : Slots) (united : Bool) :
    (s.bindings united).Sublist s.occurrences := by
  have columns : (if s.aggregate.isNone || united then s.columns.flatMap Ident.bindings
      else []).Sublist (s.columns.flatMap Ident.bindings) := by
    split
    · exact .refl _
    · exact List.nil_sublist _
  unfold bindings occurrences
  -- The slots from the table on are the same on both sides.
  iterate 6 refine List.Sublist.append ?_ (.refl _)
  refine .append ?_ columns
  cases s.aggregate with
  | none => exact .refl _
  | some a => exact (List.flatMap_singleton _ a).symm ▸ .refl _

namespace Query

mutual

/-- What a query that is read brings stands at different places of it. -/
theorem selectBindings_sublist : ∀ q : Query, q.selectBindings.Sublist q.occurrences
  | ⟨slots, unions, _, _⟩ => by
    rw [selectBindings, occurrences]
    exact .append (.append (slots.bindings_sublist _) (membersBindings_sublist unions)) (.refl _)

theorem membersBindings_sublist :
    ∀ us : List (Bool × Query), (membersBindings us).Sublist (memberOccurrences us)
  | [] => .refl _
  | (_, q) :: rest => by
    rw [membersBindings, memberOccurrences]
    exact .append (selectBindings_sublist q) (membersBindings_sublist rest)

end

/-- What the table, the joins, the conditions and the order bring stands at different places. -/
theorem target_sublist (q : Query) :
    (q.tableBindings ++ q.slots.joins.flatMap Join.bindings ++ q.tailBindings).Sublist
      q.occurrences := by
  have own : q.occurrences =
      q.slots.occurrences ++ memberOccurrences q.unions ++ q.slots.combined.bindings := by
    cases q
    rfl
  rw [own, tailBindings, ← List.append_assoc]
  refine List.Sublist.trans ?_ ((List.sublist_append_left _ _).trans (List.sublist_append_left _ _))
  refine .append (.trans ?_ ((List.sublist_append_left _ _).trans (List.sublist_append_left _ _)))
    (.refl _)
  exact .append (.append (List.sublist_append_right _ _) (.refl _)) (.refl _)

theorem table_sublist (q : Query) : q.tableBindings.Sublist q.occurrences :=
  ((List.sublist_append_left _ _).trans (List.sublist_append_left _ _)).trans q.target_sublist

theorem updateBindings_subperm (q : Query) (values : Record) :
    (q.updateBindings values).Subperm (q.occurrences ++ values.bindings) := by
  have moved : (q.updateBindings values).Perm
      (q.tableBindings ++ q.slots.joins.flatMap Join.bindings ++ q.tailBindings ++
        values.bindings) := by
    rw [updateBindings, List.append_assoc, List.append_assoc _ q.tailBindings]
    exact List.perm_append_comm.append_left _
  exact moved.subperm.trans (q.target_sublist.append (.refl _)).subperm

end Query

/-- A request that reads no other query has its places in its own and in what is given with it. -/
theorem Request.occurrences_alone {r : Request} {q : Query} (target : r.target q = q)
    (alone : r.sources = []) :
    r.occurrences q = q.occurrences ++ r.records.flatMap Record.bindings := by
  rw [occurrences, target, alone, List.flatMap_nil, List.append_nil]

/-- What is collected for a deletion is the table's once more where its text is repeated. -/
theorem Query.deleteBindings_split (q : Query) :
    ∃ rest, q.deleteBindings = q.repeated ++ (q.repeated ++ rest) ∧
      q.repeated ++ rest =
        q.tableBindings ++ q.slots.joins.flatMap Join.bindings ++ q.tailBindings := by
  have all : q.deleteBindings = q.repeated ++
      (q.tableBindings ++ q.slots.joins.flatMap Join.bindings ++ q.tailBindings) := by
    simp only [← List.append_assoc]
    rfl
  have first : ∃ others, q.tableBindings = q.repeated ++ others := by
    unfold repeated
    split
    · next given =>
      rw [tableBindings, given]
      exact ⟨[], rfl⟩
    · exact ⟨q.tableBindings, rfl⟩
  obtain ⟨others, split⟩ := first
  refine ⟨others ++ q.slots.joins.flatMap Join.bindings ++ q.tailBindings, ?_, ?_⟩
  · rw [all, split]
    simp only [List.append_assoc]
  · rw [split]
    simp only [List.append_assoc]

/-- What is collected for a statement stands at different places of its request, but for what is
repeated. -/
theorem Writing.collected {d : Dialect} {q : Query} {id : Identity} {r : Request} {w : Writing}
    (made : ofRequest q id r = .ok (some w)) :
    ∃ rest, w.bindings d = r.repeated q ++ (r.repeated q ++ rest) ∧
      (r.repeated q ++ rest).Subperm (r.occurrences q) := by
  have inserted {rows normal : List Record} (ordered : Record.normalizeRows rows = .ok normal) :
      (q.insertBindings normal).Subperm (q.occurrences ++ rows.flatMap Record.bindings) :=
    q.table_sublist.subperm.append (Record.subperm_of_normalizeRows _ ordered)
  cases r with
  | select | hasRows | aggregate | truncate => cases made
  | insert rows | insertOrIgnore rows =>
    simp only [ofRequest, bind_eq_ok, pure_eq_ok, Option.some.injEq] at made
    obtain ⟨normal, ordered, rfl⟩ := made
    refine ⟨_, rfl, ?_⟩
    rw [Request.occurrences_alone rfl rfl]
    exact inserted ordered
  | insertGetId row sequence =>
    cases made
    refine ⟨_, rfl, ?_⟩
    rw [Request.occurrences_alone rfl rfl]
    exact (q.table_sublist.append (.refl _)).subperm
  | insertUsing columns source =>
    cases made
    refine ⟨_, rfl, ?_⟩
    have both : (Request.insertUsing columns source).occurrences q =
        q.occurrences ++ (source.occurrences ++ []) ++ [] := rfl
    rw [both, List.append_nil, List.append_nil]
    exact (q.table_sublist.append source.selectBindings_sublist).subperm
  | update values =>
    cases made
    refine ⟨_, rfl, ?_⟩
    rw [Request.occurrences_alone rfl rfl, Request.records, List.flatMap_singleton]
    exact q.updateBindings_subperm values
  | step column down amount extra =>
    cases made
    refine ⟨_, rfl, ?_⟩
    rw [Request.occurrences_alone rfl rfl, Request.records, List.flatMap_singleton]
    exact q.updateBindings_subperm (extra.stepped d id column down amount)
  | upsert rows uniqueBy changed given =>
    rw [Request.occurrences_alone rfl rfl, Request.records, List.flatMap_append,
      ← List.append_assoc]
    rw [ofRequest] at made
    split at made
    all_goals
      simp only [bind_eq_ok, pure_eq_ok, Option.some.injEq] at made
      obtain ⟨normal, ordered, rfl⟩ := made
      refine ⟨_, rfl, ?_⟩
    · exact (inserted ordered).trans (List.sublist_append_left _ _).subperm
    · rw [List.flatMap_singleton]
      exact (inserted ordered).append (.refl _)
  | delete =>
    cases made
    obtain ⟨rest, collected, stands⟩ := q.deleteBindings_split
    refine ⟨rest, collected, ?_⟩
    rw [Request.occurrences_alone rfl rfl]
    exact (stands ▸ q.target_sublist).subperm.trans (List.sublist_append_left _ _).subperm

namespace Form

variable {d : Dialect} {q : Query} {id : Identity} {r : Request} {f : Form}

theorem collected (made : ofRequest q id r = .ok (some f)) :
    ∃ rest, f.bindings d = r.repeated q ++ (r.repeated q ++ rest) ∧
      (r.repeated q ++ rest).Subperm (r.occurrences q) := by
  have read : (r.target q).selectBindings.Subperm (r.occurrences q) :=
    ((r.target q).selectBindings_sublist.trans
      ((List.sublist_append_left _ _).trans (List.sublist_append_left _ _))).subperm
  cases r with
  | select | hasRows =>
    cases made
    exact ⟨q.selectBindings, rfl, read⟩
  | aggregate function columns =>
    cases made
    exact ⟨((Request.aggregate function columns).target q).selectBindings, rfl, read⟩
  | insert | insertOrIgnore | insertGetId | insertUsing | update | step | upsert | delete
  | truncate =>
    simp only [ofRequest, bind_eq_ok, pure_eq_ok] at made
    obtain ⟨written, made, mapped⟩ := made
    obtain ⟨w, rfl, rfl⟩ := Option.map_eq_some_iff.1 mapped
    exact Writing.collected made

/-- A run evaluates nothing or what is collected for its form, whatever the cells hold. -/
theorem run_evaluates (c : Compiler) (f : Form) (w : Workspace) :
    (∃ e, ∀ cells, (f.run c { w with cells := cells }).1.answer = .error e ∧
      (f.run c { w with cells := cells }).2.cells = cells) ∨
    ∀ cells, (f.run c { w with cells := cells }).2.cells =
        ((Binding.evaluateAll (f.bindings c.dialect)).run cells).2 ∧
      ∀ s, (f.run c { w with cells := cells }).1.answer = .ok s →
        s.bindings = ((Binding.evaluateAll (f.bindings c.dialect)).run cells).1 := by
  have runs (cells : Cells) : f.run c { w with cells := cells } =
      c.settle (f.bindings c.dialect) (c.draft f.target f.others (f.extra c.dialect) f.write w).1
        { (c.draft f.target f.others (f.extra c.dialect) f.write w).2 with cells := cells } := by
    rw [run, Compiler.run_eq, c.draft_cells]
  simp only [runs]
  rcases c.draft f.target f.others (f.extra c.dialect) f.write w with ⟨⟨e | sql, phases, q⟩, w'⟩
  · exact .inl ⟨e, fun cells => ⟨rfl, rfl⟩⟩
  · refine .inr fun cells => ?_
    rw [Compiler.settle_ok]
    dsimp only
    cases finished : c.finish sql ((Binding.evaluateAll (f.bindings c.dialect)).run cells).1 with
    | error e =>
      refine ⟨rfl, ?_⟩
      rintro _ ⟨⟩
    | ok s =>
      refine ⟨rfl, ?_⟩
      rintro _ ⟨⟩
      exact Compiler.bindings_of_finish finished

/-- A statement has the values of the bindings that are collected for its form. -/
theorem bindings_of_answer {c : Compiler} {f : Form} {w : Workspace} {s : Statement}
    (answered : (f.run c w).1.answer = .ok s) :
    s.bindings = ((Binding.evaluateAll (f.bindings c.dialect)).run w.cells).1 := by
  rcases f.run_evaluates c w with ⟨e, failed⟩ | evaluated
  · cases (failed w.cells).1.symm.trans answered
  · exact (evaluated w.cells).2 s answered

end Form

/-! ## What a compilation evaluates -/

namespace Compiler

/-- The compilation evaluates these bindings one after another and no others, whatever the cells
hold: that is how it changes the cells, and these are the values of a statement that it comes to. -/
def Evaluates (c : Compiler) (q : Query) (r : Request) (w : Workspace) (bs : List Binding) : Prop :=
  ∀ cells, (c.compile q r { w with cells := cells }).2.cells =
      ((Binding.evaluateAll bs).run cells).2 ∧
    ∀ s, (c.compile q r { w with cells := cells }).1.answer = .ok (.one s) →
      s.bindings = ((Binding.evaluateAll bs).run cells).1

variable (c : Compiler) (q : Query) (r : Request) (w : Workspace)

/-- A compilation evaluates what is collected for its request, in that order, or nothing, and then it
comes to no statement with bindings. -/
theorem evaluates :
    (c.Evaluates q r w [] ∧ ∀ s, (c.compile q r w).1.answer ≠ .ok (.one s)) ∨
    ∃ rest, c.Evaluates q r w (r.repeated q ++ (r.repeated q ++ rest)) ∧
      (r.repeated q ++ rest).Subperm (r.occurrences q) := by
  have compiled (cells : Cells) := c.compile_eq q r { w with cells := cells }
  rcases made : Form.ofRequest q w.next r with e | - | f
  · have nothing (cells : Cells) :
        c.compile q r { w with cells := cells } = (⟨.error e, [], q⟩, { w with cells := cells }) := by
      rw [compiled, made]
    refine .inl ⟨fun cells => ?_, fun s => ?_⟩
    · rw [nothing]
      exact ⟨rfl, nofun⟩
    · rw [nothing w.cells]
      exact nofun
  · have emptied (cells : Cells) : c.compile q r { w with cells := cells } =
        ((c.truncate q).map .several, { w with cells := cells }) := by
      rw [compiled, made]
    refine .inl ⟨fun cells => ?_, fun s => ?_⟩
    · rw [emptied]
      exact ⟨rfl, fun s answered => absurd answered (c.truncate_ne_one q s)⟩
    · rw [emptied w.cells]
      exact c.truncate_ne_one q s
  · have ran (cells : Cells) : c.compile q r { w with cells := cells } =
        let ran := f.run c { r.charge w with cells := cells }
        (⟨ran.1.answer.map .one, ran.1.phases, r.leaves q ran.1.query⟩, ran.2) := by
      rw [← r.charge_with_cells]
      exact compile_of_form made
    rcases f.run_evaluates c (r.charge w) with ⟨e, failed⟩ | evaluated
    · refine .inl ⟨fun cells => ?_, fun s => ?_⟩
      · rw [ran]
        dsimp only
        rw [(failed cells).1, (failed cells).2]
        exact ⟨rfl, nofun⟩
      · rw [ran w.cells]
        dsimp only
        rw [(failed w.cells).1]
        exact nofun
    · obtain ⟨rest, collected, stands⟩ := Form.collected (d := c.dialect) made
      refine .inr ⟨rest, fun cells => ?_, stands⟩
      rw [ran, ← collected]
      refine ⟨(evaluated cells).1, fun s answered => ?_⟩
      obtain ⟨_, answer, ⟨⟩⟩ := map_eq_ok.1 answered
      exact (evaluated cells).2 s answer

/-- **Each place at most once, but for what is repeated.** A compilation evaluates nothing and comes
to no statement with bindings, or it evaluates bindings that stand at different places of its
request, after those of a repeated table. So a cell moves on by no more than the number of places
that count it, and the repeated ones once more; and a repeated table is given the same values again,
if it counts nothing. -/
theorem evaluates_once_but_repeated :
    ((c.Evaluates q r w [] ∧ ∀ s, (c.compile q r w).1.answer ≠ .ok (.one s)) ∨
      ∃ rest, c.Evaluates q r w (r.repeated q ++ (r.repeated q ++ rest)) ∧
        (r.repeated q ++ rest).Subperm (r.occurrences q)) ∧
    (∀ cell n, w.cells.get cell = .int n →
      ∃ k ≤ (r.occurrences q).count (.deferred (.counting cell)) +
          (r.repeated q).count (.deferred (.counting cell)),
        (c.compile q r w).2.cells.get cell = .int (n + Int64.ofNat k)) ∧
    ((∀ cell, .deferred (.counting cell) ∉ r.repeated q) →
      ∀ s, (c.compile q r w).1.answer = .ok (.one s) →
        ∃ values others, values.length = (r.repeated q).length ∧
          s.bindings = values ++ (values ++ others)) := by
  rcases c.evaluates q r w with ⟨nothing, unanswered⟩ | ⟨rest, evaluated, stands⟩
  · refine ⟨.inl ⟨nothing, unanswered⟩, fun cell n holds => ⟨0, Nat.zero_le _, ?_⟩,
      fun _ s answered => absurd answered (unanswered s)⟩
    rw [(nothing w.cells).1]
    exact Binding.get_evaluateAll [] holds
  · refine ⟨.inr ⟨rest, evaluated, stands⟩, fun cell n holds => ?_, fun still s answered => ?_⟩
    · refine ⟨(r.repeated q ++ (r.repeated q ++ rest)).count (.deferred (.counting cell)), ?_, ?_⟩
      · rw [List.count_append, Nat.add_comm]
        exact Nat.add_le_add_right (stands.count_le _) _
      · rw [(evaluated w.cells).1]
        exact Binding.get_evaluateAll _ holds
    · have values := (evaluated w.cells).2 s answered
      rw [Binding.evaluateAll_append, Binding.evaluateAll_of_still still,
        Binding.evaluateAll_append, Binding.evaluateAll_of_still still] at values
      exact ⟨_, _, Binding.length_evaluateAll _ w.cells, values⟩

/-- The rows of a raw table that counts a cell, as far as they join others. -/
def countedTable : Query :=
  let table : RawFragment :=
    ⟨.text 0 (.native [.deferred (.counting "n")]) "(select ? as id) t", []⟩
  (({} : Query).fromTable (.raw table)).join
    ⟨.inner, .name "u", [.columns .and (.name "t.id") "=" (.name "u.id")]⟩

/-- The only binding of the deletion is evaluated twice, and the two namings of the table are given
different values. -/
theorem countedTable_twice :
    let c : Compiler := ⟨{}, .mysql, {}⟩
    let w : Workspace := ⟨{}, ⟨[("n", .int 1)]⟩, 1⟩
    let b : Binding := .deferred (.counting "n")
    Request.delete.occurrences countedTable = [b] ∧
      c.Evaluates countedTable .delete w [b, b] ∧
      (c.compile countedTable .delete w).1.answer = .ok (.one
        ⟨"delete (select ? as id) t from (select ? as id) t inner join `u` on `t`.`id` = `u`.`id`",
          [.int 1, .int 2]⟩) := by
  intro c w b
  have places : Request.delete.occurrences countedTable = [b] := rfl
  have repeated : Request.delete.repeated countedTable = [b] := rfl
  have answered : (c.compile countedTable .delete w).1.answer = .ok (.one
      ⟨"delete (select ? as id) t from (select ? as id) t inner join `u` on `t`.`id` = `u`.`id`",
        [.int 1, .int 2]⟩) := by
    decide +kernel
  refine ⟨places, ?_, answered⟩
  rcases (c.evaluates_once_but_repeated countedTable .delete w).1 with
    ⟨-, unanswered⟩ | ⟨rest, evaluated, stands⟩
  · exact absurd answered (unanswered _)
  · rw [repeated, places] at stands
    have short := stands.length_le
    have none : rest = [] := by simpa using short
    rw [repeated, none] at evaluated
    exact evaluated

end Compiler

end SqlFragments
