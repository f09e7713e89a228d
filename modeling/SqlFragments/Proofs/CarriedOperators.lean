import SqlFragments.Proofs.Comparators
import SqlFragments.Proofs.Phases

/-!
# Operators that reach a statement

A text `Carries` operators when they stand in it one after another, each at a place of its own with
blanks around it. What a writer writes for a statement carries the operators of the statement, as
they are in its slots (`Form.carried`). So the operators of conditions that reach a statement are
among `operators`, since a query with another one has a fault and is not compiled
(`Compiler.operators_checked_outside_joins`).

The operators of joins reach the statement without a check, whatever they are: one can be a piece of
SQL that turns the condition of the join into another (`Compiler.smuggled_carried`).
-/

namespace SqlFragments

/-- The operators stand in the text in this order, each with a blank before it and behind it. -/
inductive Carries : List Comparator → String → Prop where
  | none (text : String) : Carries [] text
  | next {os : List Comparator} {rest : String} (before : String) (o : Comparator)
    (later : Carries os rest) :
    Carries (o :: os) (before ++ " " ++ o.operator ++ " " ++ rest)

namespace Carries

variable {os ps : List Comparator} {s t : String}

/-- A text in front changes nothing. -/
theorem preceded (h : Carries os t) (s : String) : Carries os (s ++ t) := by
  cases h with
  | none => exact .none _
  | next before o later =>
    simp only [← String.append_assoc]
    exact .next (s ++ before) o later

theorem append (left : Carries os s) (right : Carries ps t) : Carries (os ++ ps) (s ++ t) := by
  induction left with
  | none text => exact right.preceded text
  | next before o _ ih =>
    rw [String.append_assoc]
    exact .next before o ih

/-- A text behind changes nothing. -/
theorem followed (h : Carries os s) (t : String) : Carries os (s ++ t) := by
  simpa using h.append (.none t)

/-- One operator between two operands. -/
theorem between (left : String) (o : Comparator) (right : String) :
    Carries [o] (left ++ " " ++ o.operator ++ " " ++ right) :=
  .next left o (.none right)

end Carries

/-! ## What a writer writes -/

theorem Dialect.dateWhere_carries (d : Dialect) (part : DatePart) (column : String) (o : Comparator)
    (value : String) : Carries [o] (d.dateWhere part column o.operator value) := by
  have pattern : Carries [o] ("strftime('" ++ datePattern part ++ "', " ++ column ++ ") " ++
      o.operator ++ " cast(" ++ value ++ " as text)") := by
    -- The blanks around the operator belong to the words next to it.
    have before : ") " = ")" ++ " " := rfl
    have behind : " cast(" = " " ++ "cast(" := rfl
    have spread := Carries.between ("strftime('" ++ datePattern part ++ "', " ++ column ++ ")") o
      ("cast(" ++ value ++ " as text)")
    simpa only [before, behind, String.append_assoc] using spread
  unfold dateWhere
  dsimp only
  split
  all_goals first | exact pattern | exact .between _ o _

section Writers

variable {w : Writer (Except Error)} {text : String}

/-- A clause carries what is written in it, if it is written where there is something to carry. -/
theorem Writer.clause_carries {present : Bool} {keyword : String} {x : Except Error String}
    {os : List Comparator} (absent : present = false → os = [])
    (inner : ∀ t, x = .ok t → Carries os t) (h : clause present keyword x = .ok text) :
    Carries os text := by
  unfold clause at h
  split at h
  · simp only [bind_eq_ok, pure_eq_ok] at h
    obtain ⟨t, written, rfl⟩ := h
    exact (inner t written).preceded keyword
  · next missing =>
    rw [absent (Bool.eq_false_iff.2 missing)]
    exact .none text

namespace Predicate

mutual

/-- A predicate is written with its operators. -/
theorem carried (joined : Bool) : ∀ (p : Predicate) {text : String}, w.predicate p = .ok text →
    Carries (p.comparators joined) text
  | .compare _ _ operator _, _, h | .columns _ _ operator _, _, h => by
    simp only [Writer.predicate, bind_eq_ok, pure_eq_ok] at h
    obtain ⟨left, -, right, -, rfl⟩ := h
    exact .between left ⟨operator, joined⟩ right
  | .dated _ part _ operator _, _, h => by
    simp only [Writer.predicate, bind_eq_ok, pure_eq_ok] at h
    obtain ⟨left, -, right, -, rfl⟩ := h
    exact w.dialect.dateWhere_carries part left ⟨operator, joined⟩ right
  | .nested _ members, _, h => by
    simp only [Writer.predicate, bind_eq_ok, pure_eq_ok] at h
    obtain ⟨inner, written, rfl⟩ := h
    exact ((carriedAll joined members written).preceded "(").followed ")"
  | .raw _ _, text, _ | .among _ _ _ _, text, _ | .null _ _ _, text, _
  | .between _ _ _ _ _, text, _ => .none text

theorem carriedAll (joined : Bool) : ∀ (ps : List Predicate) {text : String},
    w.predicates ps = .ok text → Carries (comparatorsOfAll joined ps) text
  | [], text, _ => .none text
  | p :: ps, _, h => by
    simp only [Writer.predicates, bind_eq_ok, pure_eq_ok] at h
    obtain ⟨first, written, others, later, rfl⟩ := h
    exact (carried joined p written).append (carriedFollowers joined ps later)

theorem carriedFollowers (joined : Bool) : ∀ (ps : List Predicate) {text : String},
    w.followers ps = .ok text → Carries (comparatorsOfAll joined ps) text
  | [], text, _ => .none text
  | p :: ps, _, h => by
    simp only [Writer.followers, bind_eq_ok, pure_eq_ok] at h
    obtain ⟨first, written, others, later, rfl⟩ := h
    exact ((carried joined p written).preceded _).append (carriedFollowers joined ps later)

end

theorem clause_carried {ps : List Predicate} {keyword : String} (joined : Bool)
    {present : Bool} (absent : present = false → ps = [])
    (h : Writer.clause present keyword (w.predicates ps) = .ok text) :
    Carries (comparatorsOfAll joined ps) text := by
  refine Writer.clause_carries (fun missing => ?_) (fun _ => carriedAll joined ps) h
  rw [absent missing]
  rfl

end Predicate

theorem Join.carried {j : Join} (h : w.join j = .ok text) : Carries j.comparators text := by
  simp only [Writer.join, bind_eq_ok, pure_eq_ok] at h
  obtain ⟨table, -, conditions, written, rfl⟩ := h
  refine (Predicate.clause_carried true (fun missing => ?_) written).preceded _
  rw [Bool.or_eq_false_iff, Bool.not_eq_false', List.isEmpty_iff] at missing
  exact missing.2

theorem Join.carriedAll {js : List Join} (h : w.joins js = .ok text) :
    Carries (js.flatMap Join.comparators) text := by
  induction js generalizing text with
  | nil => exact .none text
  | cons j js ih =>
    simp only [Writer.joins, bind_eq_ok, pure_eq_ok] at h
    obtain ⟨first, written, others, later, rfl⟩ := h
    exact (Join.carried written).append (ih later)

theorem Predicate.whereClause_carried {wheres : List Predicate}
    (h : w.whereClause wheres = .ok text) : Carries (comparatorsOfAll false wheres) text := by
  refine clause_carried false (fun missing => ?_) h
  rwa [Bool.not_eq_false', List.isEmpty_iff] at missing

theorem Slots.carried {s : Slots} {aggregated : Bool} (h : w.components s aggregated = .ok text) :
    Carries s.comparators text := by
  simp only [Writer.components, bind_eq_ok, pure_eq_ok] at h
  obtain ⟨selected, -, source, -, joins, joined, wheres, conditions, groups, -, havings, grouped,
    orders, -, rfl⟩ := h
  have having : Carries (Predicate.comparatorsOfAll false s.havings) havings := by
    refine Predicate.clause_carried false (fun missing => ?_) grouped
    rwa [Bool.not_eq_false', List.isEmpty_iff] at missing
  have front := ((Join.carriedAll joined).preceded ("select " ++ selected.1 ++ source)).append
    (Predicate.whereClause_carried conditions)
  exact ((((front.followed groups).append having).followed orders).followed _).followed _

theorem Carries.wrapUnion {os : List Comparator} (h : Carries os text) (d : Dialect) :
    Carries os (d.wrapUnion text) := by
  cases d with
  | mysql | postgres => exact (h.preceded "(").followed ")"
  | sqlite => exact (h.preceded "select * from (").followed ")"
  | sqlServer => exact ((h.preceded "select * from (").followed ") as ").followed _

namespace Query

mutual

/-- A query is written with its operators. -/
theorem carried : ∀ (q : Query) {text : String}, w.select q = .ok text → Carries q.comparators text
  | ⟨slots, [], _, _⟩, _, h => by
    rw [comparators, memberComparators, List.append_nil]
    rw [Writer.select] at h
    exact slots.carried h
  | ⟨slots, u :: us, _, _⟩, _, h => by
    simp only [Writer.select, bind_eq_ok] at h
    obtain ⟨first, written, others, united, orders, -, closed⟩ := h
    have whole := (((((Slots.carried written).wrapUnion w.dialect).append
      (carriedMembers (u :: us) united)).followed orders).followed
        (w.dialect.limitOffset slots.combined.limit slots.combined.offset
          (!slots.combined.orders.isEmpty)))
    rw [comparators]
    split at closed
    · simp only [bind_eq_ok, pure_eq_ok] at closed
      obtain ⟨call, -, rfl⟩ := closed
      exact ((whole.preceded ("select " ++ call ++ " from (")).followed ") as ").followed _
    · obtain rfl := pure_eq_ok.1 closed
      exact whole

theorem carriedMembers : ∀ (us : List (Bool × Query)) {text : String}, w.members us = .ok text →
    Carries (memberComparators us) text
  | [], text, _ => .none text
  | (all, q) :: rest, _, h => by
    simp only [Writer.members, bind_eq_ok, pure_eq_ok] at h
    obtain ⟨first, written, others, later, rfl⟩ := h
    rw [memberComparators]
    exact (((carried q written).wrapUnion w.dialect).preceded _).append (carriedMembers rest later)

end

end Query

end Writers

/-! ## What a statement carries -/

/-- The operators that a statement which changes rows writes. -/
def Writing.comparators : Writing → List Comparator
  | insertUsing _ _ source => source.comparators
  | update q _ | step q _ _ _ _ _ | delete q =>
    q.slots.joins.flatMap Join.comparators ++ Predicate.comparatorsOfAll false q.slots.wheres
  | insert _ _ | insertOrIgnore _ _ | insertGetId _ _ _ | upsert _ _ _ _ _ => []

/-- The operators that a statement writes. -/
def Form.comparators : Form → List Comparator
  | select q | hasRows q => q.comparators
  | writing x => x.comparators

section Writers

variable {w : Writer (Except Error)} {text : String}

theorem Predicate.mutationTail_carried {s : Slots} (h : w.mutationTail s = .ok text) :
    Carries (comparatorsOfAll false s.wheres) text := by
  simp only [Writer.mutationTail, bind_eq_ok, pure_eq_ok] at h
  obtain ⟨wheres, written, orders, -, rfl⟩ := h
  exact ((whereClause_carried written).followed orders).followed _

theorem Query.update_carried {q : Query} {values : Record} (h : w.update q values = .ok text) :
    Carries (q.slots.joins.flatMap Join.comparators ++
      Predicate.comparatorsOfAll false q.slots.wheres) text := by
  simp only [Writer.update, bind_eq_ok] at h
  obtain ⟨-, -, h⟩ := h
  split at h
  · cases h
  · simp only [bind_eq_ok, pure_eq_ok] at h
    obtain ⟨table, -, assignments, -, joins, joined, tail, conditions, rfl⟩ := h
    exact ((((Join.carriedAll joined).preceded ("update " ++ table)).followed " set ").followed
      (Text.commaList assignments)).append (Predicate.mutationTail_carried conditions)

theorem Query.delete_carried {q : Query} (h : w.delete q = .ok text) :
    Carries (q.slots.joins.flatMap Join.comparators ++
      Predicate.comparatorsOfAll false q.slots.wheres) text := by
  simp only [Writer.delete, bind_eq_ok, pure_eq_ok] at h
  obtain ⟨-, -, table, -, joins, joined, tail, conditions, rfl⟩ := h
  exact ((Join.carriedAll joined).preceded _).append (Predicate.mutationTail_carried conditions)

theorem Writing.carried {x : Writing} (h : x.write w = .ok text) : Carries x.comparators text := by
  cases x with
  | insert | insertOrIgnore | insertGetId | upsert => exact .none text
  | insertUsing q columns source =>
    simp only [write, Writer.insertUsing, bind_eq_ok, pure_eq_ok] at h
    obtain ⟨table, -, read, written, rfl⟩ := h
    exact (source.carried written).preceded _
  | update q values => exact Query.update_carried h
  | step q id column down amount extra => exact Query.update_carried h
  | delete q => exact Query.delete_carried h

/-- **Carried operators.** A statement is written with its operators, in this order. -/
theorem Form.carried {f : Form} (h : f.write w = .ok text) : Carries f.comparators text := by
  cases f with
  | select q => exact q.carried h
  | hasRows q =>
    simp only [write, Writer.hasRows, bind_eq_ok, pure_eq_ok] at h
    obtain ⟨read, written, rfl⟩ := h
    have inner := q.carried written
    cases w.dialect with
    | sqlServer => exact ((inner.preceded "select case when exists(").followed _).followed _
    | mysql | postgres | sqlite => exact ((inner.preceded "select exists(").followed _).followed _
  | writing x => exact x.carried h

end Writers

/-! ## What a compiler lets through -/

/-- A statement of checked queries has only operators among `operators` outside its joins. -/
theorem Form.checked {f : Form} (checked : ∀ p ∈ f.queries, p.Checked) :
    ∀ o ∈ f.comparators, o.joined = false → o.operator ∈ operators := by
  have target : f.target.Checked := checked f.target List.mem_cons_self
  -- A statement that changes rows writes slots that a query which is read writes too.
  have changed {q : Query} (checked : q.Checked) : ∀ o ∈ q.slots.joins.flatMap Join.comparators ++
      Predicate.comparatorsOfAll false q.slots.wheres, o.joined = false → o.operator ∈ operators :=
    fun o member => checked.slots o (List.mem_append_left _ member)
  cases f with
  | select q | hasRows q => exact target.comparators
  | writing x =>
    cases x with
    | insert | insertOrIgnore | insertGetId | upsert => exact List.forall_mem_nil _
    | insertUsing q columns source =>
      exact (checked source (List.mem_cons_of_mem _ List.mem_cons_self)).comparators
    | update | step | delete => exact changed target

theorem Form.called_of_request {q : Query} {id : Identity} {r : Request} {f : Form}
    (made : ofRequest q id r = .ok (some f)) (called : ∀ p ∈ q :: r.sources, p.Called) :
    ∀ p ∈ f.queries, p.Called := by
  rw [List.forall_mem_cons] at called
  have target : (r.target q).Called := by
    cases r with
    | aggregate => exact called.1.withAggregate _
    | select | hasRows | insert | insertOrIgnore | insertGetId | insertUsing | update | step
    | upsert | delete | truncate => exact called.1
  rw [queries_of_request made]
  exact List.forall_mem_cons.2 ⟨target, called.2⟩

namespace Compiler

/-- **Operators are checked outside joins.** A statement that is compiled carries its operators as
they are in its slots, and all but those of joins are among `operators`. With a condition whose
operator is not among them there is no statement: the fault that says so is the answer. -/
theorem operators_checked_outside_joins (c : Compiler) {q : Query} {r : Request} {w : Workspace}
    {f : Form} (made : Form.ofRequest q w.next r = .ok (some f))
    (called : ∀ p ∈ q :: r.sources, p.Called) :
    (∀ s, (c.compile q r w).1.answer = .ok (.one s) →
      (∃ sql, f.write (.reading c.dialect c.context w.tables) = .ok sql ∧
        c.finish sql s.bindings = .ok s ∧ Carries f.comparators sql) ∧
      ∀ o ∈ f.comparators, o.joined = false → o.operator ∈ operators) ∧
    ∀ o ∈ f.comparators, o.joined = false → o.operator ∉ operators →
      ∃ operator, normalOperator operator ∉ operators ∧
        (c.compile q r w).1.answer = .error (.invalid (.invalidOperator operator)) := by
  have queries := Form.called_of_request made called
  have allowed (faultless : f.queries.findSome? Query.fault = none) :
      ∀ o ∈ f.comparators, o.joined = false → o.operator ∈ operators := by
    refine Form.checked fun p member => (queries p member).checked ?_
    exact List.findSome?_eq_none_iff.1 faultless p member
  rw [compile_of_form made]
  refine ⟨fun s answered => ?_, fun o member condition unknown => ?_⟩
  · obtain ⟨_, answered, ⟨⟩⟩ := map_eq_ok.1 answered
    obtain ⟨faultless, sql, written, finished⟩ := Form.written_of_answer answered
    rw [r.charge_tables] at written
    exact ⟨⟨sql, written, finished, Form.carried written⟩, allowed faultless⟩
  · cases faulted : f.queries.findSome? Query.fault with
    | none => exact absurd (allowed faulted o member condition) unknown
    | some fault =>
      obtain ⟨p, among, faulty⟩ := List.exists_of_findSome?_eq_some faulted
      obtain ⟨operator, rfl, refused⟩ := (queries p among).fault_is_operator faulty
      exact ⟨operator, refused, map_eq_error.2 (Form.answer_of_fault faulted)⟩

/-- A join with an operator that closes its comparison and begins another condition. -/
def smuggled : Query :=
  let joined : Join := ⟨.inner, .name "u", []⟩
  (({} : Query).fromTable (.name "t")).join
    (joined.onColumns .and (.name "t.id") "= u.id or 1 =" (.name "t.x"))

/-- The operator is not among `operators`, and the statement carries it. -/
theorem smuggled_carried :
    let c : Compiler := ⟨{}, .mysql, {}⟩
    let sql := "select * from `t` inner join `u` on `t`.`id` = u.id or 1 = `t`.`x`"
    "= u.id or 1 =" ∉ operators ∧
      (c.compile smuggled .select {}).1.answer = .ok (.one ⟨sql, []⟩) ∧
      Carries [⟨"= u.id or 1 =", true⟩] sql := by
  intro c sql
  have answered : (c.compile smuggled .select {}).1.answer = .ok (.one ⟨sql, []⟩) := by
    decide +kernel
  have called : ∀ p ∈ [smuggled], p.Called :=
    List.forall_mem_singleton.2 ((Query.Called.empty.fromTable _).join _)
  have made : Form.ofRequest smuggled (default : Workspace).next .select =
      .ok (some (.select smuggled)) := rfl
  obtain ⟨⟨text, -, finished, carried⟩, -⟩ :=
    (c.operators_checked_outside_joins (w := {}) made called).1 _ answered
  have same : sql = text := sql_of_finish rfl finished
  exact ⟨by decide, answered, same ▸ carried⟩

end Compiler

end SqlFragments
