import SqlFragments.Proofs.InsertAlignment

/-!
# Changes and deletions and their bindings

A change writes the table, the joins, the assignments, then which rows are meant and in which order.
An assignment to a place inside a JSON column writes the keys of the place in a string literal; no
key has a character that ends or escapes the literal, so it is read inside it to its end
(`Quote.balanced_literal`).

A deletion through joins names the table that loses rows once more. Where the table is a fragment
its text is repeated, and so are its bindings.
-/

namespace SqlFragments

/-! ## String literals -/

namespace Quote

variable {backslash : Bool}

/-- A text without characters that mean something in a string literal. -/
def Quiet (cs : List Char) : Prop := ∀ c ∈ cs, c ≠ '\'' ∧ c ≠ '\\'

instance (cs : List Char) : Decidable (Quiet cs) :=
  List.decidableBAll (fun c => c ≠ '\'' ∧ c ≠ '\\') cs

theorem quiet_append_iff {cs ds : List Char} : Quiet (cs ++ ds) ↔ Quiet cs ∧ Quiet ds := by
  simp only [Quiet, List.forall_mem_append]

theorem step_literal {c : Char} (h : c ≠ '\'' ∧ c ≠ '\\') :
    (inside '\'').step backslash c = inside '\'' := by
  simp [step, h.1, h.2]

/-- A quiet text is read inside the literal to its end. -/
theorem balanced_literal {cs : List Char} (h : Quiet cs) :
    Balanced backslash ('\'' :: cs ++ ['\'']) 0 := by
  have noMark : ∀ c, (inside '\'').marks c = false := marks_of_ne_outside (by simp)
  have ended : (inside '\'').after backslash (cs ++ ['\'']) = outside ∧
      (inside '\'').count backslash (cs ++ ['\'']) = 0 := by
    induction cs with
    | nil => simp [after_cons, count_cons, noMark]
    | cons c cs ih =>
      have rest := ih fun d hd => h d (List.mem_cons_of_mem c hd)
      simpa [after_cons, count_cons, noMark, step_literal (h c List.mem_cons_self)] using rest
  refine ⟨ended.1, ?_⟩
  have opened : outside.count backslash ('\'' :: (cs ++ ['\''])) =
      0 + (inside '\'').count backslash (cs ++ ['\'']) := rfl
  rw [List.cons_append, opened, ended.2]

end Quote

variable {w : Writer (Except Error)} {text : String}

/-- A literal that is opened by the words before a quiet text and closed by those after it. -/
theorem Spelled.literal {before inner after : String} {b m n a : List Char}
    (opens : before.toList = b ++ '\'' :: m) (closes : after.toList = n ++ '\'' :: a)
    (plain : Quote.Plain b ∧ Quote.Plain a) (quiet : Quote.Quiet m ∧ Quote.Quiet n)
    (hi : Quote.Quiet inner.toList) : Spelled w (before ++ inner ++ after) [] := by
  have inside : Quote.Quiet (m ++ inner.toList ++ n) := by
    rw [Quote.quiet_append_iff, Quote.quiet_append_iff]
    exact ⟨⟨quiet.1, hi⟩, quiet.2⟩
  have left : Quote.Balanced w.dialect.escapesBackslash b 0 := .of_plain plain.1
  have right : Quote.Balanced w.dialect.escapesBackslash a 0 := .of_plain plain.2
  have whole := (left.append (Quote.balanced_literal inside)).append right
  refine .words ?_
  rw [String.toList_append, String.toList_append, opens, closes]
  simpa using whole

namespace Dialect

theorem quiet_jsonKey {key quoted : String} (h : jsonKey key = .ok quoted) :
    Quote.Quiet quoted.toList := by
  unfold jsonKey at h
  split at h
  · next allowed =>
    cases h
    simp only [isJsonKey, Bool.and_eq_true, List.all_eq_true, bne_iff_ne] at allowed
    simp only [String.toList_append, Quote.quiet_append_iff]
    refine ⟨⟨by decide, fun c hc => ?_⟩, by decide⟩
    exact ⟨(allowed.2 c hc).1.1, (allowed.2 c hc).2⟩
  · cases h

theorem quiet_jsonKeys {path keys : List String} (h : jsonKeys path = .ok keys) :
    ∀ k ∈ keys, Quote.Quiet k.toList := by
  induction path generalizing keys with
  | nil =>
    obtain rfl := Except.ok.inj h
    exact fun k hk => nomatch hk
  | cons key path ih =>
    simp only [jsonKeys, bind_eq_ok, pure_eq_ok] at h
    obtain ⟨first, hfirst, others, hothers, rfl⟩ := h
    exact List.forall_mem_cons.2 ⟨quiet_jsonKey hfirst, ih hothers⟩

theorem quiet_separated {sep : String} (between : Quote.Quiet sep.toList) {keys : List String}
    (h : ∀ k ∈ keys, Quote.Quiet k.toList) : Quote.Quiet (Text.separated sep keys).toList := by
  induction keys with
  | nil => exact fun c hc => nomatch hc
  | cons k ks ih =>
    have first := h k List.mem_cons_self
    have rest := ih fun l hl => h l (List.mem_cons_of_mem k hl)
    cases ks with
    | nil => exact first
    | cons l ls =>
      rw [Text.separated, String.toList_append, String.toList_append]
      exact Quote.quiet_append_iff.2 ⟨Quote.quiet_append_iff.2 ⟨first, between⟩, rest⟩

/-- The assignment inside a JSON column is spelled by the sources of the value. -/
theorem jsonUpdate_spelled {column : String} {path : List String} {value : String}
    {ss : List Source} (named : w.dialect ≠ .sqlServer → Spelled w column [])
    (given : Spelled w value ss) (h : w.dialect.jsonUpdate column path value = .ok text) :
    Spelled w text ss := by
  unfold jsonUpdate at h
  split at h
  · next mysql =>
    simp only [bind_eq_ok, pure_eq_ok] at h
    obtain ⟨keys, hkeys, rfl⟩ := h
    have column := named (by rw [mysql]; decide)
    have place : Spelled w (", '$." ++ Text.separated "." keys ++ "', ") [] :=
      .literal (b := [',', ' ']) (m := ['$', '.']) (n := []) (a := [',', ' ']) (by decide)
        (by decide) (by decide) (by decide) (quiet_separated (by decide) (quiet_jsonKeys hkeys))
    have called := (column.closed " = json_set(" rfl).followed column
    have whole := ((called.followed place).append given).closed ")" rfl
    simpa [← String.append_assoc] using whole
  · next postgres =>
    simp only [bind_eq_ok, pure_eq_ok] at h
    obtain ⟨keys, hkeys, rfl⟩ := h
    have column := named (by rw [postgres]; decide)
    have place : Spelled w ("::jsonb, '\x7b" ++ Text.separated "," keys ++ "\x7d', ") [] :=
      .literal (b := "::jsonb, ".toList) (m := ['\x7b']) (n := ['\x7d']) (a := [',', ' '])
        (by decide) (by decide) (by decide) (by decide)
        (quiet_separated (by decide) (quiet_jsonKeys hkeys))
    have called := (column.closed " = jsonb_set(" rfl).followed column
    have whole := ((called.followed place).append given).closed ")" rfl
    simpa [← String.append_assoc] using whole
  · cases h

end Dialect

/-! ## Changes -/

/-- An assignment is spelled by the sources of its value, to whatever place it is made. -/
theorem Record.assignment_spelled {column : String} {value : Operand}
    (name : (Part.name column).Safe w) (safe : ∀ p ∈ value.parts, p.Safe w)
    (h : w.assignment column value = .ok text) : Spelled w text (sources value.parts) := by
  simp only [Writer.assignment, bind_eq_ok] at h
  obtain ⟨given, hgiven, h⟩ := h
  have given := Operand.spelled safe hgiven
  split at h
  · next base _ _ _ =>
    have wrapped : w.dialect ≠ .sqlServer → Spelled w (w.dialect.wrap (String.ofList base)) [] :=
      fun other => Part.Safe.name_spelled fun same => absurd same other
    exact Dialect.jsonUpdate_spelled wrapped given (lift_eq_ok.1 h)
  · obtain rfl := pure_eq_ok.1 h
    exact given.preceded (name.name_spelled.closed " = " rfl)

namespace Query

variable {q : Query}

/-- The parts of conditions and order of a statement that changes rows. -/
def tailParts (q : Query) : List Part := Predicate.partsOfAll q.slots.wheres ++ q.slots.page.parts

theorem mutationTail_aligned (wheres : ∀ p ∈ q.slots.wheres, p.AlignedAlone w)
    (page : ∀ p ∈ q.slots.page.parts, p.Safe w) (h : w.mutationTail q.slots = .ok text) :
    Aligned w text (sources q.tailParts) q.tailBindings := by
  simp only [Writer.mutationTail, bind_eq_ok, pure_eq_ok] at h
  obtain ⟨where_, hwhere, orders, horders, rfl⟩ := h
  have chosen := Predicate.whereClause_aligned wheres hwhere
  have ordered := Paging.orderBy_aligned page horders
  refine ((chosen.append ordered).followed ?_).congr (by simp [tailParts]) rfl
  split
  · next n _ =>
    have number : Spelled w (toString n.toNat) [] := .number n.toNat
    exact number.opened " limit " rfl
  · exact .word "" rfl

/-- The parts of a change, in the order of the text. -/
def updateParts (q : Query) (values : Record) : List Part :=
  q.tableParts ++ q.slots.joins.flatMap Join.parts ++ values.valueParts ++ q.tailParts

/-- The parts outside predicates of a statement that changes rows of a query. -/
def targetFrame (q : Query) : List Part :=
  q.tableParts ++ q.slots.joins.flatMap (fun j => j.table.parts) ++ q.slots.page.parts

/-- The predicates of a statement that changes rows of a query. -/
def targetPredicates (q : Query) : List Predicate :=
  q.slots.joins.flatMap Join.clauses ++ q.slots.wheres

theorem joins_aligned (frame : ∀ p ∈ q.targetFrame, p.Safe w)
    (predicates : ∀ p ∈ q.targetPredicates, p.AlignedAlone w)
    (h : w.joins q.slots.joins = .ok text) :
    Aligned w text (sources (q.slots.joins.flatMap Join.parts))
      (q.slots.joins.flatMap Join.bindings) := by
  refine Join.all_aligned (fun j hj p hp => frame p ?_) (fun j hj p hp => predicates p ?_) h
  · exact List.mem_append_left _ (List.mem_append_right _ (List.mem_flatMap.2 ⟨j, hj, hp⟩))
  · exact List.mem_append_left _ (List.mem_flatMap.2 ⟨j, hj, hp⟩)

theorem update_aligned {values : Record} (frame : ∀ p ∈ q.targetFrame, p.Safe w)
    (safe : ∀ p ∈ values.parts, p.Safe w)
    (predicates : ∀ p ∈ q.targetPredicates, p.AlignedAlone w)
    (h : w.update q values = .ok text) :
    Aligned w text (sources (q.updateParts values)) (q.updateBindings values) := by
  simp only [Writer.update, bind_eq_ok] at h
  obtain ⟨-, -, h⟩ := h
  split at h
  · cases h
  · simp only [bind_eq_ok, pure_eq_ok] at h
    obtain ⟨table, htable, sets, hsets, joins, hjoins, tail, htail, rfl⟩ := h
    have named := table_aligned (fun p hp => frame p (by simp [targetFrame, hp])) htable
    have joined := joins_aligned frame predicates hjoins
    have assigned : Aligned w (Text.commaList sets) (sources values.valueParts)
        values.bindings := by
      refine .of_parts ?_ (by simp)
      rw [Record.valueParts, sources_flatMap, List.flatMap_def]
      exact .commaList (Spelled.each hsets fun entry he t ht =>
        Record.assignment_spelled
          (safe (.name entry.1)
            (List.mem_append_left _ (List.mem_map_of_mem (List.mem_map_of_mem he))))
          (fun p hp => safe p (List.mem_append_right _ (List.mem_flatMap.2 ⟨entry, he, hp⟩))) ht)
    have ended := mutationTail_aligned
      (fun p hp => predicates p (List.mem_append_right _ hp))
      (fun p hp => frame p (List.mem_append_right _ hp)) htail
    have changed := ((named.opened "update " rfl).append joined).closed " set " rfl
    exact ((changed.append assigned).append ended).congr (by simp [updateParts]) rfl

/-! ## Deletions -/

/-- The parts of what loses rows, where the text names it beside the table. -/
def lostParts (q : Query) : List Part :=
  match q.slots.joins, q.slots.table with
  | _ :: _, some (.raw fragment) => [.source (.fragment fragment)]
  | _, _ => []

/-- The parts of a deletion, in the order of the text. -/
def deleteParts (q : Query) : List Part :=
  q.lostParts ++ q.tableParts ++ q.slots.joins.flatMap Join.parts ++ q.tailParts

theorem target_aligned {table : String} (safe : ∀ p ∈ q.tableParts, p.Safe w)
    (h : w.table q = .ok table) :
    Aligned w (if q.slots.joins.isEmpty then "" else w.target q table ++ " ") (sources q.lostParts)
      (match q.slots.joins, q.slots.table with
        | _ :: _, some (.raw fragment) => fragment.bindings
        | _, _ => []) := by
  unfold lostParts Writer.target
  unfold tableParts at safe
  unfold Writer.table at h
  cases joins : q.slots.joins with
  | nil => exact .empty
  | cons j js =>
    cases given : q.slots.table with
    | none =>
      rw [given] at h
      cases h
    | some t =>
      rw [given] at h safe
      cases t with
      | name n =>
        have part : (Part.name n).Safe w := safe (.name n) List.mem_cons_self
        have target : Spelled w (w.dialect.wrapTarget n) [] :=
          .words (Dialect.inert_wrapTarget_of_no_bracket part).counted
        exact ⟨target.closed " " rfl, rfl⟩
      | raw f =>
        have parts : ∀ p ∈ (Ident.raw f).parts, p.Safe w := fun p hp => safe p (by simpa using hp)
        have target := Ident.aligned parts h
        exact target.closed " " rfl

theorem delete_aligned (frame : ∀ p ∈ q.targetFrame, p.Safe w)
    (predicates : ∀ p ∈ q.targetPredicates, p.AlignedAlone w) (h : w.delete q = .ok text) :
    Aligned w text (sources q.deleteParts) q.deleteBindings := by
  simp only [Writer.delete, bind_eq_ok, pure_eq_ok] at h
  obtain ⟨-, -, table, htable, joins, hjoins, tail, htail, rfl⟩ := h
  have safe : ∀ p ∈ q.tableParts, p.Safe w := fun p hp => frame p (by simp [targetFrame, hp])
  have named := table_aligned safe htable
  have joined := joins_aligned frame predicates hjoins
  have ended := mutationTail_aligned (fun p hp => predicates p (List.mem_append_right _ hp))
    (fun p hp => frame p (List.mem_append_right _ hp)) htail
  have lost := (target_aligned safe htable).opened "delete " rfl
  have whole := (((lost.closed "from " rfl).append named).append
    joined).append ended
  exact whole.congr (by simp [deleteParts]) rfl

end Query

end SqlFragments
