import SqlFragments.Proofs.Simulation

/-!
# Writers that remember

Resolving a table changes what the table remembers, and nothing that it answers for the same context
(`Grammar.resolveIn_again`). So a writer that remembers what it resolves writes what a writer does
that only reads the tables: `Tables.recalling` is the simulation between the two.
-/

namespace SqlFragments

namespace Grammar

theorem resolveAt_again (g : Grammar) (driver : Driver) (version : Version) :
    ((g.resolveAt driver version).2.resolveAt driver version).1 =
      (g.resolveAt driver version).1 := by
  by_cases supported : g.supports driver
  · cases known : g.resolved.lookup (driver, version) with
    | some text => simp [resolveAt, supported, known]
    | none =>
      cases found : g.pick driver version with
      | ok text =>
        have still : (g.remember driver version text).supports driver = true := supported
        have remembered : (g.remember driver version text).resolved.lookup (driver, version) =
            some text := by simp [remember]
        simp [resolveAt, supported, known, found, still, remembered]
      | error e => simp [resolveAt, supported, known, found]
  · simp [resolveAt, supported]

/-- Resolving changes neither the table's own driver nor its own version. -/
theorem resolveAt_own (g : Grammar) (driver : Driver) (version : Version) :
    (g.resolveAt driver version).2.driver = g.driver ∧
      (g.resolveAt driver version).2.version = g.version := by
  rw [resolveAt]
  split
  · split
    · exact ⟨rfl, rfl⟩
    · split <;> exact ⟨rfl, rfl⟩
  · exact ⟨rfl, rfl⟩

/-- A table that has resolved for a context resolves for it as before. -/
theorem resolveIn_again (g : Grammar) (ctx : Context) :
    ((g.resolveIn ctx).2.resolveIn ctx).1 = (g.resolveIn ctx).1 := by
  rw [resolveIn, resolveWith]
  cases chosen : ctx.driver.or g.driver with
  | none => simp [resolveIn, resolveWith, chosen]
  | some driver =>
    have own := g.resolveAt_own driver ((ctx.version.or g.version).getD .zero)
    simp only [resolveIn, resolveWith, own, chosen]
    exact g.resolveAt_again driver _

end Grammar

/-- Setting a place of a list changes what is there, if the list has that place. -/
theorem getD_set {α : Type} {as : List α} {i j : Nat} {a fallback : α} :
    (as.set i a).getD j fallback = if j = i ∧ i < as.length then a else as.getD j fallback := by
  by_cases same : j = i
  · subst same
    by_cases inside : j < as.length
    · simp [inside]
    · simp [inside]
  · rw [if_neg fun h => same h.1]
    simp [Ne.symm same]

namespace Tables

/-- Tables that answer alike for a context at every place, whatever they remember. -/
def Agree (ctx : Context) (T T' : Tables) : Prop := ∀ id, T.lookup ctx id = T'.lookup ctx id

theorem get_put (T : Tables) (id other : TableId) (g : Grammar) :
    (T.put id g).get other = if other = id ∧ id < T.entries.length then g else T.get other :=
  getD_set

/-- A table that has resolved for a context leaves every answer for it as it was. -/
theorem agree_resolveAndKeep (ctx : Context) (T : Tables) (id : TableId) :
    Agree ctx (resolveAndKeep ctx id T).2 T := by
  intro other
  have kept : (resolveAndKeep ctx id T).2 = T.put id ((T.get id).resolveIn ctx).2 := rfl
  rw [kept, lookup, lookup, get_put]
  split
  · next place =>
    rw [place.1]
    exact (T.get id).resolveIn_again ctx
  · rfl

theorem run_bind {α β : Type} (x : Resolution α) (f : α → Resolution β) (U : Tables) :
    (x >>= f).run.run U = match x.run.run U with
      | (.ok a, U') => (f a).run.run U'
      | (.error e, U') => (.error e, U') := by
  rcases h : x.run.run U with ⟨e | a, U'⟩
  all_goals
    rw [ExceptT.run_bind, StateT.run_bind, h]
    rfl

/-- Work that fills what tables remember, related to what it comes to on tables that are only read.
-/
def recalling (ctx : Context) (T : Tables) : Simulation Resolution (Except Error) where
  rel x y := ∀ U : Tables, Agree ctx U T → (x.run.run U).1 = y ∧ Agree ctx (x.run.run U).2 T
  pure a U agree := ⟨rfl, agree⟩
  bind := by
    intro α β x y f g hx hf U agree
    obtain ⟨answer, kept⟩ := hx U agree
    rw [run_bind]
    rcases h : x.run.run U with ⟨e | a, U'⟩
    · rw [h] at answer kept
      subst answer
      exact ⟨rfl, kept⟩
    · rw [h] at answer kept
      subst answer
      exact hf a U' kept
  refuse e _ U agree := ⟨rfl, agree⟩

/-- An expression has the text that the tables hold for the context. -/
theorem recalling_resolve (ctx : Context) (T : Tables) (x : Expression) :
    (recalling ctx T).rel (x.resolveIn ctx) (x.resolve (T.lookup ctx)) := by
  rw [Expression.resolveIn]
  induction x with
  | text id origin sql => exact (recalling ctx T).pure sql
  | grammar id origin table =>
    intro U agree
    refine ⟨agree table, fun other => ?_⟩
    exact (agree_resolveAndKeep ctx U table other).trans (agree other)
  | layer id origin inner ih => exact ih

/-- A writer that remembers writes like one that reads. -/
theorem recalling_writers (d : Dialect) (ctx : Context) (T : Tables) :
    (recalling ctx T).Writers (.remembering d ctx) (.reading d ctx T) :=
  ⟨rfl, recalling_resolve ctx T⟩

/-- What a writer that remembers comes to is what one comes to that only reads. -/
theorem recalled {ctx : Context} {T : Tables} {α : Type} {x : Resolution α} {y : Except Error α}
    (h : (recalling ctx T).rel x y) : (x.run.run T).1 = y :=
  (h T fun _ => rfl).1

end Tables

end SqlFragments
