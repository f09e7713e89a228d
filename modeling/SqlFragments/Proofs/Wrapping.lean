import SqlFragments.Query.Slot

/-!
# Handing expressions on

Between being made and being written an expression is handed on: it is wrapped, loses a redundant
wrapper, is converted where a raw fragment is wanted, or is given to be adapted. None of this can be
seen (`Wrapping.handed_on_unchanged`): the expression that comes out is `Alike` the one that went
in. Each way of handing on is such a step, because a native wrapper without bindings of its own is
like what it wraps.

What an expression says of itself is what it does: it says that it has bindings if evaluating them
yields a value, and that it needs a driver if its payload leads to a table (`EndsInTable`).
-/

namespace SqlFragments

namespace Expression

/-- A wrapper has a binding if what it wraps has one, or it has one of its own. -/
theorem hasBindings_layer (id : Identity) (own : List Binding) (inner : Expression) :
    (layer id (.native own) inner).hasBindings = (· || !own.isEmpty) <$> inner.hasBindings := by
  rw [hasBindings, map_eq_pure_bind]
  congr 1
  funext has
  cases has <;> rfl

/-- The two have the same text in every context, the same bindings in the same order, and say the
same of themselves. -/
structure Alike (a b : Expression) : Prop where
  text : ∀ ctx, b.resolveIn ctx = a.resolveIn ctx
  bindings : b.bindings = a.bindings
  hasBindings : b.hasBindings = a.hasBindings
  capabilities : b.capabilities = a.capabilities

namespace Alike

variable {a b c : Expression}

theorem refl (a : Expression) : Alike a a := ⟨fun _ => rfl, rfl, rfl, rfl⟩

theorem symm (h : Alike a b) : Alike b a where
  text ctx := (h.text ctx).symm
  bindings := h.bindings.symm
  hasBindings := h.hasBindings.symm
  capabilities := h.capabilities.symm

theorem trans (first : Alike a b) (second : Alike b c) : Alike a c where
  text ctx := (second.text ctx).trans (first.text ctx)
  bindings := second.bindings.trans first.bindings
  hasBindings := second.hasBindings.trans first.hasBindings
  capabilities := second.capabilities.trans first.capabilities

/-- A wrapper without bindings of its own is like what it wraps. -/
theorem layer (id : Identity) (e : Expression) : Alike e (.layer id (.native []) e) where
  text _ := rfl
  bindings := List.append_nil _
  hasBindings := by
    rw [hasBindings_layer]
    simp
  capabilities := rfl

theorem unwrapDouble (e : Expression) : Alike e e.unwrapDouble := by
  unfold Expression.unwrapDouble
  split
  · exact (layer _ _).symm
  · exact refl _

end Alike

/-! ## What an expression says of itself -/

/-- Following the payload through wrappers and adapters, one comes to a table. -/
inductive EndsInTable : Expression → Prop where
  | here {e : Expression} {table : TableId} (payload : e.payload = .grammar table) : EndsInTable e
  | within {e inner : Expression} (payload : e.payload = .expression inner)
    (ends : EndsInTable inner) : EndsInTable e

theorem isGrammar_iff (e : Expression) : e.isGrammar = true ↔ e.EndsInTable := by
  constructor
  · intro needsDriver
    induction e with
    | text id origin sql => cases needsDriver
    | grammar id origin table => exact .here rfl
    | layer id origin inner ih => exact .within rfl (ih needsDriver)
  · intro ends
    induction ends with
    | @here e table payload =>
      cases e with
      | grammar => rfl
      | text | layer => cases payload
    | @within e inner payload _ ih =>
      cases e with
      | layer =>
        cases payload
        exact ih
      | text | grammar => cases payload

/-- An expression says that it has bindings if there are any, whatever the cells hold. -/
theorem hasBindings_run (e : Expression) (cells : Cells) :
    (e.hasBindings.run cells).1 = !e.bindings.isEmpty := by
  have evaluated (supplied : List Binding) :
      ((Binding.evaluateAll supplied).run cells).1.isEmpty = supplied.isEmpty := by
    rw [Bool.eq_iff_iff, List.isEmpty_iff, List.isEmpty_iff, ← List.length_eq_zero_iff,
      Binding.length_evaluateAll, List.length_eq_zero_iff]
  induction e with
  | text id origin sql | grammar id origin table =>
    cases origin with
    | native own | adapter => rfl
    | boundAdapter supplied => exact congrArg not (evaluated supplied)
  | layer id origin inner ih =>
    cases origin with
    | native own =>
      rw [hasBindings_layer]
      change ((inner.hasBindings.run cells).1 || !own.isEmpty) = _
      rw [ih, bindings]
      cases inner.bindings <;> rfl
    | adapter => rfl
    | boundAdapter supplied => exact congrArg not (evaluated supplied)

theorem evaluate_eq_nil_iff (e : Expression) (cells : Cells) :
    (e.evaluate.run cells).1 = [] ↔ e.bindings = [] := by
  rw [← List.length_eq_zero_iff, evaluate, Binding.length_evaluateAll, List.length_eq_zero_iff]

/-- An expression with bindings was made to bring them. -/
theorem bringsBindings_of_bindings {e : Expression} (some : e.bindings ≠ []) :
    e.bringsBindings = true := by
  induction e with
  | text id origin sql | grammar id origin table =>
    cases origin with
    | native own => simpa [bindings, bringsBindings] using some
    | adapter => exact absurd rfl some
    | boundAdapter supplied => rfl
  | layer id origin inner ih =>
    cases origin with
    | native own =>
      by_cases nothing : own = []
      · rw [bindings, nothing, List.append_nil] at some
        simp [bringsBindings, ih some]
      · simp [bringsBindings, nothing]
    | adapter => exact absurd rfl some
    | boundAdapter supplied => rfl

end Expression

/-! ## Ways of handing on -/

/-- A way in which an expression is handed on. -/
inductive Wrapping where
  | wrap
  | unwrap
  | convert
  | adapt
  | adaptWithBindings
  deriving DecidableEq, Repr

namespace Wrapping

/-- Hands an expression on. A raw fragment converts what it is made of. -/
def apply : Wrapping → Expression → StateM Workspace Expression
  | wrap, e => e.wrap
  | unwrap, e => pure e.unwrapDouble
  | convert, e => pure (RawFragment.ofExpression e).expression
  | adapt, e => Expression.adaptAny (.expression e)
  | adaptWithBindings, e => Expression.adaptAnyWithBindings (.expression e)

/-- Hands an expression on in several ways, one after another. -/
def applyAll : List Wrapping → Expression → StateM Workspace Expression
  | [], e => pure e
  | f :: fs, e => do applyAll fs (← f.apply e)

/-- **One way** of handing on keeps the expression, and leaves the tables and the cells. -/
theorem alike_apply (f : Wrapping) (e : Expression) (w : Workspace) :
    e.Alike ((f.apply e).run w).1 ∧ ((f.apply e).run w).2.tables = w.tables ∧
      ((f.apply e).run w).2.cells = w.cells := by
  cases f with
  | wrap => exact ⟨.layer w.next e, rfl, rfl⟩
  | unwrap | convert => exact ⟨.unwrapDouble e, rfl, rfl⟩
  | adapt | adaptWithBindings => exact ⟨.refl e, rfl, rfl⟩

/-- **Several ways**, one after another. -/
theorem alike_applyAll (fs : List Wrapping) (e : Expression) (w : Workspace) :
    e.Alike ((applyAll fs e).run w).1 ∧ ((applyAll fs e).run w).2.tables = w.tables ∧
      ((applyAll fs e).run w).2.cells = w.cells := by
  induction fs generalizing e w with
  | nil => exact ⟨.refl e, rfl, rfl⟩
  | cons f fs ih =>
    obtain ⟨first, tables, cells⟩ := f.alike_apply e w
    obtain ⟨others, tables', cells'⟩ := ih ((f.apply e).run w).1 ((f.apply e).run w).2
    exact ⟨first.trans others, tables'.trans tables, cells'.trans cells⟩

/-- **Handing on changes nothing.** However an expression is wrapped, unwrapped, converted and
adapted, any number of times, what comes out resolves to the same text or error in every context,
has the same values of its bindings in every state of the cells, and says the same of itself; the
tables and the cells stay as they are. And what any expression says of itself holds: it says that it
has bindings if and only if they have values, and then was made to bring them, and it says that it
needs a driver if and only if its payload leads to a table. -/
theorem handed_on_unchanged (fs : List Wrapping) (e : Expression) (w : Workspace) :
    let r := (applyAll fs e).run w
    ((∀ ctx, r.1.resolveIn ctx = e.resolveIn ctx) ∧ r.1.bindings = e.bindings ∧
      r.1.evaluate = e.evaluate ∧ r.1.hasBindings = e.hasBindings ∧
      r.1.isGrammar = e.isGrammar ∧ r.1.capabilities = e.capabilities ∧
      r.2.tables = w.tables ∧ r.2.cells = w.cells) ∧
    (∀ cells, ((e.hasBindings.run cells).1 = true ↔ (e.evaluate.run cells).1 ≠ []) ∧
      ((e.hasBindings.run cells).1 = true → e.capabilities.bindings = true)) ∧
    (e.isGrammar = true ↔ e.EndsInTable) := by
  intro r
  obtain ⟨alike, tables, cells⟩ := alike_applyAll fs e w
  have evaluate : r.1.evaluate = e.evaluate := congrArg Binding.evaluateAll alike.bindings
  have needsDriver : r.1.isGrammar = e.isGrammar :=
    congrArg Capabilities.grammar alike.capabilities
  have reported (cells : Cells) : (e.hasBindings.run cells).1 = true ↔ e.bindings ≠ [] := by
    simp [e.hasBindings_run cells]
  refine ⟨⟨alike.text, alike.bindings, evaluate, alike.hasBindings, needsDriver,
    alike.capabilities, tables, cells⟩, fun cells => ⟨?_, fun has => ?_⟩, e.isGrammar_iff⟩
  · rw [reported, ne_eq, ne_eq, e.evaluate_eq_nil_iff]
  · exact Expression.bringsBindings_of_bindings ((reported cells).1 has)

end Wrapping

end SqlFragments
