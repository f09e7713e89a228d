import SqlFragments.Proofs.Forms
import SqlFragments.Proofs.GrammarHistory

/-!
# What a compilation leaves

All that a compilation does to the tables is to resolve them. So a property of tables that resolving
one of them keeps is kept by every writer, and by every compilation, where it fails too
(`Compiler.compile_keeps`). Such a property is that each table still has its texts, its driver and
its version, and remembers nothing out of date (`Tables.Intact`); then it answers as if it
remembered nothing. The query of a compilation is left as it was, or with its index.
-/

namespace SqlFragments

/-! ## Tables without what they remember -/

namespace Grammar

/-- The table without what it remembers. -/
def cleared (g : Grammar) : Grammar := { g with resolved := [] }

theorem cleared_eq_iff {g h : Grammar} : g.cleared = h.cleared ↔
    g.fragments = h.fragments ∧ g.driver = h.driver ∧ g.version = h.version := by
  simp [cleared]

/-- A table that remembers nothing out of date answers as if it remembered nothing. -/
theorem Current.resolveWith_cleared {g : Grammar} (h : g.Current) (driver : Option Driver)
    (version : Option Version) :
    (g.resolveWith driver version).1 = (g.cleared.resolveWith driver version).1 := by
  have nothing : g.cleared.Current := fun _ _ _ known => nomatch known
  have ownDriver : g.cleared.driver = g.driver := rfl
  have ownVersion : g.cleared.version = g.version := rfl
  rw [resolveWith, resolveWith, ownDriver, ownVersion]
  cases driver.or g.driver with
  | none => rfl
  | some d => exact (h.answer_resolveAt d _).trans (nothing.answer_resolveAt d _).symm

end Grammar

namespace Tables

/-- The tables without what they remember. -/
def cleared (T : Tables) : Tables := ⟨T.entries.map Grammar.cleared⟩

theorem get_cleared (T : Tables) (id : TableId) : T.cleared.get id = (T.get id).cleared := by
  rw [get, get, cleared, List.getD_eq_getElem?_getD, List.getD_eq_getElem?_getD, List.getElem?_map]
  cases T.entries[id]? <;> rfl

/-- The tables are those of `T` but for what they remember, and none of that is out of date. -/
structure Intact (T U : Tables) : Prop where
  cleared : ∀ id, (U.get id).cleared = (T.get id).cleared
  current : ∀ id, (U.get id).Current

namespace Intact

variable {T U : Tables}

theorem lookup (h : Intact T U) (ctx : Context) (id : TableId) :
    T.cleared.lookup ctx id = U.lookup ctx id := by
  rw [Tables.lookup, get_cleared, ← h.cleared id]
  exact ((h.current id).resolveWith_cleared ctx.driver ctx.version).symm

/-- **One step.** Resolving a table leaves all tables intact. -/
theorem resolveAndKeep (h : Intact T U) (ctx : Context) (id : TableId) :
    Intact T (Tables.resolveAndKeep ctx id U).2 := by
  have kept : (Tables.resolveAndKeep ctx id U).2 = U.put id ((U.get id).resolveIn ctx).2 := rfl
  have resolved : ((U.get id).resolveIn ctx).2.cleared = (U.get id).cleared ∧
      ((U.get id).resolveIn ctx).2.Current := by
    rcases (U.get id).resolveWith_cases ctx.driver ctx.version with same | ⟨d, v, text, found, more⟩
    · rw [Grammar.resolveIn, same]
      exact ⟨rfl, h.current id⟩
    · rw [Grammar.resolveIn, more]
      exact ⟨rfl, (h.current id).remember found⟩
  rw [kept]
  constructor
  all_goals
    intro other
    rw [get_put]
    split
  · next place => rw [resolved.1, place.1, h.cleared id]
  · exact h.cleared other
  · exact resolved.2
  · exact h.current other

end Intact

/-! ## Work that keeps a property of tables -/

/-- Work that keeps a property of tables, whether it fails or not; it is compared with nothing. -/
def keeping (P : Tables → Prop) : Simulation Resolution Resolution where
  rel x _ := ∀ U, P U → P (x.run.run U).2
  pure _ _ kept := kept
  bind := by
    intro α β x y f g hx hf U holds
    have kept := hx U holds
    rw [run_bind]
    rcases h : x.run.run U with ⟨e | a, U'⟩
    · rw [h] at kept
      exact kept
    · rw [h] at kept
      exact hf a U' kept
  refuse _ _ _ kept := kept

variable {P : Tables → Prop} {ctx : Context}
  (kept : ∀ id U, P U → P (Tables.resolveAndKeep ctx id U).2)

include kept

theorem keeping_resolve (e : Expression) :
    (keeping P).rel (e.resolveIn ctx) (e.resolveIn ctx) := by
  rw [Expression.resolveIn]
  induction e with
  | text id origin sql => exact (keeping P).pure sql
  | grammar id origin table => exact fun U holds => kept table U holds
  | layer id origin inner ih => exact ih

theorem keeping_configure (es : List Expression) :
    (keeping P).rel (configure ctx es) (configure ctx es) := by
  induction es with
  | nil => exact (keeping P).pure 0
  | cons e es ih =>
    rw [configure]
    split
    · exact (keeping P).bind (keeping_resolve kept e) fun _ =>
        (keeping P).bind ih fun _ => (keeping P).pure _
    · exact ih

end Tables

namespace Compiler

variable (c : Compiler) {P : Tables → Prop}
  (kept : ∀ id U, P U → P (Tables.resolveAndKeep c.context id U).2)

include kept

theorem draft_keeps (f : Form) {w : Workspace} (holds : P w.tables) :
    P (c.draft f.target f.others (f.extra c.dialect) f.write w).2.tables := by
  have writers : (Tables.keeping P).Writers (.remembering c.dialect c.context)
      (.remembering c.dialect c.context) := ⟨rfl, Tables.keeping_resolve kept⟩
  unfold draft
  split
  · exact holds
  · -- The text is written on the tables that the expressions were resolved on.
    dsimp only [Workspace.resolving]
    have configured := Tables.keeping_configure kept
      ((f.target :: f.others).flatMap Query.expressions ++ f.extra c.dialect) w.tables holds
    rcases first : (configure c.context _).run.run w.tables with ⟨e | n, T⟩
    · rw [first] at configured
      exact configured
    · rw [first] at configured
      exact f.writers_write writers T configured

omit kept in
/-- The second half of a run leaves the query and the tables as the first half did. -/
theorem settle_leaves (bindings : List Binding) (draft : Run String) (w : Workspace) :
    (c.settle bindings draft w).1.query = draft.query ∧
      (c.settle bindings draft w).2.tables = w.tables := by
  obtain ⟨e | sql, phases, q⟩ := draft
  · exact ⟨rfl, rfl⟩
  · rw [settle_ok]
    dsimp only
    cases c.finish sql ((Binding.evaluateAll bindings).run w.cells).1 <;> exact ⟨rfl, rfl⟩

/-- **Compilations keep what resolving keeps**, whatever they come to. -/
theorem compile_keeps (q : Query) (r : Request) {w : Workspace} (holds : P w.tables) :
    P (c.compile q r w).2.tables := by
  rw [compile_eq]
  rcases Form.ofRequest q w.next r with e | - | f
  · exact holds
  · exact holds
  · dsimp only
    rw [Form.run, run_eq, (c.settle_leaves _ _ _).2]
    exact c.draft_keeps kept f ((r.charge_tables w).symm ▸ holds)

end Compiler

/-! ## The query -/

namespace Form

/-- A run leaves the query of its form, or the query with its index. -/
theorem run_query (c : Compiler) (f : Form) (w : Workspace) :
    (f.run c w).1.query = f.target ∨ (f.run c w).1.query = f.target.indexed := by
  rw [run, Compiler.run_eq, (c.settle_leaves _ _ _).1]
  unfold Compiler.draft
  split
  · exact .inl rfl
  · dsimp only [Workspace.resolving]
    rcases (configure c.context _).run.run w.tables with ⟨e | n, T⟩
    · exact .inr rfl
    · exact .inr rfl

end Form

/-- **Compilations leave their query** as it was, or with its index. -/
theorem Compiler.compile_query (c : Compiler) (q : Query) (r : Request) (w : Workspace) :
    (c.compile q r w).1.query = q ∨ (c.compile q r w).1.query = q.indexed := by
  rw [compile_eq]
  rcases made : Form.ofRequest q w.next r with e | - | f
  · exact .inl rfl
  · left
    simp only [Run.map, truncate]
    cases c.dialect.truncateQuery q <;> rfl
  · have left := f.run_query c (r.charge w)
    rw [(List.cons.inj (Form.queries_of_request made)).1] at left
    cases r with
    | aggregate => exact .inl rfl
    | select | hasRows | insert | insertOrIgnore | insertGetId | insertUsing | update | step
    | upsert | delete | truncate => exact left

end SqlFragments
