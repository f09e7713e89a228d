import SqlFragments.Proofs.Calls
import SqlFragments.Proofs.Phases

/-!
# Queries with a mistake

A query has a fault exactly if a mistake was made on the way to it: an operator that is not among
`operators`, in a call of its own or in one of a query that was taken in, at any depth
(`Made.mistaken_iff`). Whatever is asked of such a query fails before anything is written, but for
the emptying of its table, which asks for no fault (`Compiler.faulty_is_only_emptied`).
-/

namespace SqlFragments

namespace Query

/-- A mistake was made on the way to the query: a call was given an operator that is not among
`operators`, or took in a query that a mistake was made on the way to. -/
inductive Mistaken : Query → Prop where
  | unknown {q : Query} {call : Call Query} {operator : String}
    (checked : call.operator? = some operator) (unknown : normalOperator operator ∉ operators) :
    Mistaken (q.call call)
  | taken {q p : Query} {call : Call Query} (taken : p ∈ call.taken) (mistaken : Mistaken p) :
    Mistaken (q.call call)
  | later {q : Query} (call : Call Query) (mistaken : Mistaken q) : Mistaken (q.call call)

/-- **Faults are mistakes.** A query that calls made has a fault exactly if a mistake was made on
the way to it. -/
theorem Made.mistaken_iff {q : Query} (h : q.Made) : q.Mistaken ↔ q.fault.isSome := by
  constructor
  · intro mistaken
    clear h
    induction mistaken with
    | unknown checked unknown =>
      have recorded := Call.fault?_isSome.2 (.inl ⟨_, checked, unknown⟩)
      simp [fault_call, recorded]
    | taken taken _ ih =>
      have recorded := Call.fault?_isSome.2 (.inr ⟨_, taken, ih⟩)
      simp [fault_call, recorded]
    | later call _ ih => simp [fault_call, ih]
  · intro faulty
    induction h with
    | empty => cases faulty
    | call call _ _ ih ihtaken =>
      rw [fault_call, Option.isSome_or, Bool.or_eq_true, Call.fault?_isSome] at faulty
      rcases faulty with before | ⟨operator, checked, unknown⟩ | ⟨p, taken, within⟩
      · exact .later call (ih before)
      · exact .unknown checked unknown
      · exact .taken taken (ihtaken p taken within)

end Query

namespace Request

/-- A request is made for a query with the faults of its own. -/
theorem fault_target (r : Request) (q : Query) : (r.target q).fault = q.fault := by
  cases r <;> rfl

/-- Only the emptying of a table has no form. -/
theorem eq_truncate_of_ofRequest {q : Query} {id : Identity} {r : Request}
    (formless : Form.ofRequest q id r = .ok none) : r = truncate := by
  cases r with
  | truncate => rfl
  | select | hasRows | aggregate | insertGetId | insertUsing | update | step | delete =>
    cases formless
  | insert rows | insertOrIgnore rows =>
    simp only [Form.ofRequest, Writing.ofRequest] at formless
    cases normal : Record.normalizeRows rows <;> rw [normal] at formless <;> cases formless
  | upsert rows uniqueBy changed given =>
    simp only [Form.ofRequest, Writing.ofRequest] at formless
    cases normal : Record.normalizeRows rows <;> rw [normal] at formless <;>
      split at formless <;> cases formless

end Request

namespace Compiler

/-- **Faults end compilations.** Where one of its queries has a fault, a compilation that is not an
emptying fails before anything is written: because the rows do not fit together, or with the first
fault. -/
theorem error_of_fault {c : Compiler} {q : Query} {r : Request} {w : Workspace} {fault : Fault}
    (faulted : (q :: r.sources).findSome? Query.fault = some fault) (kept : r ≠ .truncate) :
    ∃ e, (c.compile q r w).1.answer = .error e ∧
      (c.compile q r w).1.phases <+: [.configuring] ∧
      (Form.ofRequest q w.next r = .error e ∨ e = .invalid fault) := by
  have came := c.came q r w
  generalize (c.compile q r w).1.answer = answer, (c.compile q r w).1.phases = phases,
    (c.compile q r w).2.cells = cells at came ⊢
  cases came with
  | refused refused => exact ⟨_, rfl, List.nil_prefix, .inl refused⟩
  | blocked formless | emptied formless =>
    exact absurd (Request.eq_truncate_of_ofRequest formless) kept
  | @ran f _ _ _ made ran =>
    have faulted : f.queries.findSome? Query.fault = some fault := by
      rw [Form.queries_of_request made, List.findSome?_cons, r.fault_target,
        ← List.findSome?_cons, faulted]
    cases ran with
    | faulty again =>
      cases again.symm.trans faulted
      exact ⟨_, rfl, List.prefix_refl _, .inr rfl⟩
    | unresolved faultless | unwritten faultless | mismatched faultless | done faultless =>
      cases faultless.symm.trans faulted

/-- The emptying of a table reads the table alone. -/
theorem truncate_answer (c : Compiler) (q : Query) (w : Workspace) :
    (c.compile q .truncate w).1.answer = (c.dialect.truncateQuery q).map .several := by
  change ((c.truncate q).map Compiled.several).answer = _
  dsimp only [truncate]
  cases c.dialect.truncateQuery q <;> rfl

/-- **Only an emptying gets past a fault.** A query that calls made has a fault exactly if a mistake
was made on the way to it, by its own calls or by those of a query that was taken in. Where a query
of a compilation has a fault, whatever is asked for fails before anything is written, but for the
emptying of a table: that answers as it does without the fault. -/
theorem faulty_is_only_emptied (c : Compiler) {q : Query} {r : Request} (w : Workspace)
    (made : q.Made) (sources : ∀ p ∈ r.sources, p.Made) :
    (∀ p ∈ q :: r.sources, p.Mistaken ↔ p.fault.isSome) ∧
    ((∃ p ∈ q :: r.sources, p.fault.isSome) → r ≠ .truncate →
      ∃ e, (c.compile q r w).1.answer = .error e ∧
        (c.compile q r w).1.phases <+: [.configuring] ∧
        (Form.ofRequest q w.next r = .error e ∨
          ∃ fault, (q :: r.sources).findSome? Query.fault = some fault ∧ e = .invalid fault)) ∧
    (c.compile q .truncate w).1.answer =
      (c.compile { q with fault := none } .truncate w).1.answer := by
  have queries : ∀ p ∈ q :: r.sources, p.Made := List.forall_mem_cons.2 ⟨made, sources⟩
  refine ⟨fun p member => (queries p member).mistaken_iff, fun faulty kept => ?_, ?_⟩
  · obtain ⟨fault, faulted⟩ := Option.isSome_iff_exists.1 (List.findSome?_isSome_iff.2 faulty)
    obtain ⟨e, answered, early, reason⟩ := error_of_fault (c := c) (w := w) faulted kept
    exact ⟨e, answered, early, reason.imp_right fun same => ⟨fault, faulted, same⟩⟩
  · rw [truncate_answer, truncate_answer]
    rfl

/-- A query that is united with one in which a nested condition has an unknown operator. -/
def mistakenUnion : Query :=
  let condition := ({} : Query).whereValue .and (.name "a") "nope" (.bound (.literal (.int 1)))
  (Query.onTable (.name "t")).union true (({} : Query).whereNested condition)

/-- It cannot be selected from, and its table can be emptied. -/
theorem mistakenUnion_is_only_emptied :
    let c : Compiler := ⟨{}, .mysql, {}⟩
    mistakenUnion.Mistaken ∧
      (c.compile mistakenUnion .select {}).1.answer = .error (.invalid (.invalidOperator "nope")) ∧
      (c.compile mistakenUnion .truncate {}).1.answer =
        .ok (.several [⟨"truncate table `t`", []⟩]) := by
  intro c
  have condition := Query.Made.call
    (.whereValue .and (.name "a") "nope" (.bound (.literal (.int 1)))) .empty nofun
  have nested := Query.Made.call (.whereNested _) .empty (List.forall_mem_singleton.2 condition)
  have made : mistakenUnion.Made :=
    .call (.union true _) (.call (.fromTable (.name "t")) .empty nofun)
      (List.forall_mem_singleton.2 nested)
  obtain ⟨mistaken, failing, emptied⟩ :=
    c.faulty_is_only_emptied (r := .select) {} made (List.forall_mem_nil _)
  have faulty : mistakenUnion.fault.isSome := by decide +kernel
  obtain ⟨e, answered, -, reason⟩ := failing ⟨_, List.mem_cons_self, faulty⟩ nofun
  refine ⟨(mistaken _ List.mem_cons_self).2 faulty, answered.trans ?_, emptied.trans ?_⟩
  · rcases reason with refused | ⟨fault, faulted, rfl⟩
    · cases refused
    · have first : [mistakenUnion].findSome? Query.fault = some (.invalidOperator "nope") := by
        decide +kernel
      cases faulted.symm.trans first
      rfl
  · decide +kernel

end Compiler

end SqlFragments
