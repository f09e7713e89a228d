import SqlFragments.Checkup
import SqlFragments.Proofs.GrammarHistory
import SqlFragments.Proofs.Phases

/-!
# What a checkup tells

A checkup looks at a connection's driver, at its version and at the context that it compiles in, which
may be that of another driver. Each of the four checks has its own condition: the driver has a dialect
(`checkDialect_eq_failed_iff`), nothing (`checkVersion_ne_failed`), the context's driver has a text in
which the name of the connection's driver stands (`checkGrammar_ne_failed_iff`), and the context's
driver has a dialect (`checkBindings_ne_failed_iff`). For the last one a query with a choice of prices
is compiled, which succeeds in every dialect and for every version (`answer_priceQuery`).

Together they hold exactly if both drivers are the same known one, and then the compiler of the
connection writes the dialect of this driver (`Connection.checkup_exact`).
-/

namespace SqlFragments

/-! ## Tables with one text for a driver -/

/-- No version is below the version zero. -/
theorem Version.compare_zero_ne_gt (v : Version) : Ord.compare Version.zero v ≠ .gt := by
  change compareParts [] v.parts ≠ .gt
  cases v.parts <;> exact nofun

namespace Grammar

variable {g : Grammar} {driver : Driver} {text : String}

/-- A text that holds from the version zero on is found for every version. -/
theorem pick_of_unversioned (only : g.versions? driver = some [(.zero, text)]) (v : Version) :
    g.pick driver v = .ok text := by
  have found : newest v none [(.zero, text)] = some text := by
    rw [newest]
    split
    · next above => exact absurd above v.compare_zero_ne_gt
    · rfl
  unfold pick
  simp only [only, found]

/-- A table that remembers nothing finds it for a context, too. -/
theorem resolveIn_of_unversioned (fresh : g.resolved = [])
    (only : g.versions? driver = some [(.zero, text)]) (ctx : Context)
    (named : ctx.driver = some driver) : (g.resolveIn ctx).1 = .ok text := by
  have current : g.Current := by
    intro d v t known
    rw [fresh] at known
    cases known
  unfold resolveIn resolveWith
  rw [named]
  exact (current.answer_resolveAt driver _).trans (pick_of_unversioned only _)

end Grammar

/-- Only a driver with a dialect is known. -/
theorem Driver.isKnown_iff (driver : Driver) :
    driver.isKnown = true ↔ ∃ d : Dialect, driver = d.driver := by
  constructor
  · intro known
    cases driver with
    | mysql => exact ⟨.mysql, rfl⟩
    | postgres => exact ⟨.postgres, rfl⟩
    | sqlite => exact ⟨.sqlite, rfl⟩
    | sqlServer => exact ⟨.sqlServer, rfl⟩
    | other => cases known
  · rintro ⟨d, rfl⟩
    cases d <;> rfl

/-- A driver has no other dialect than the one for it. -/
theorem Dialect.ofDriver_eq_ok_iff {driver : Driver} {d : Dialect} :
    ofDriver driver = .ok d ↔ driver = d.driver := by
  constructor
  · intro made
    cases driver <;> cases made <;> rfl
  · rintro rfl
    exact d.ofDriver_driver

/-- A context has a compiler if its driver has a dialect, and it is that of this dialect. -/
theorem Compiler.forContext_eq_ok_iff {ctx : Context} {settings : Settings} {c : Compiler} :
    forContext ctx settings = .ok c ↔
      ∃ d : Dialect, ctx.driver = some d.driver ∧ c = ⟨ctx, d, settings⟩ := by
  unfold forContext
  cases ctx.driver with
  | none => simp
  | some driver =>
    simp only [bind_eq_ok, Dialect.ofDriver_eq_ok_iff, pure_eq_ok, Option.some.injEq,
      eq_comm (a := c)]

namespace Connection

/-! ## The statement that is tried -/

/-- The choice of prices in a dialect. -/
def choiceText : Dialect → String
  | .mysql => "IF(state = 'TX', ?, ?)"
  | .postgres | .sqlite | .sqlServer => "CASE WHEN state = 'TX' THEN ? ELSE ? END"

/-- The query on products in a dialect. -/
def priceText (d : Dialect) : String :=
  "select * from " ++ d.wrap "products" ++ " where " ++ d.wrap "price" ++ " > " ++ choiceText d

theorem versions?_priceChoice (d : Dialect) :
    priceChoice.versions? d.driver = some [(.zero, choiceText d)] := by
  cases d <;> rfl

/-- The products whose price is above the choice. -/
def pricedProducts (choice : Expression) : Query :=
  (Query.onTable (.name "products")).whereValue .and (.name "price") ">" (.inline choice)

theorem write_pricedProducts {w : Writer (Except Error)} {choice : Expression}
    (spelled : w.expression choice = .ok (choiceText w.dialect)) :
    w.select (pricedProducts choice) = .ok (priceText w.dialect) := by
  let slots : Slots :=
    { table := some (.name "products")
      wheres := [.compare .and (.name "price") ">" (.inline choice)] }
  have whole : w.select (pricedProducts choice) = w.components slots true := by
    have built : pricedProducts choice = { slots := slots } := rfl
    rw [built, Writer.select]
  have selected : w.selected slots true = .ok ("*", none) := by
    obtain ⟨d, expression⟩ := w
    cases d <;> rfl
  have source : w.source slots = .ok (" from " ++ w.dialect.wrap "products") := by
    change Except.ok (" from " ++ w.dialect.wrap "products" ++ "") = _
    rw [String.append_empty]
  have wheres : w.whereClause slots.wheres =
      .ok (" where " ++ w.dialect.wrap "price" ++ " > " ++ choiceText w.dialect) := by
    simp only [slots, Writer.whereClause, Writer.clause, Writer.predicates, Writer.predicate,
      Writer.followers, Writer.ident, Writer.operand, spelled]
    change Except.ok _ = Except.ok _
    simp [String.append_assoc]
  have page : w.dialect.limitOffset none none false = "" := by
    cases w.dialect <;> rfl
  have joined (products price choice page : String) (empty : page = "") :
      "select " ++ "*" ++ (" from " ++ products) ++ "" ++
        (" where " ++ price ++ " > " ++ choice) ++ "" ++ "" ++ "" ++ page ++ "" =
      "select * from " ++ products ++ " where " ++ price ++ " > " ++ choice := by
    have words : "select " ++ "*" ++ " from " = "select * from " := rfl
    simp only [empty, String.append_empty, ← String.append_assoc, words]
  rw [whole, Writer.components, selected, source, wheres]
  exact congrArg Except.ok
    (joined (w.dialect.wrap "products") (w.dialect.wrap "price") (choiceText w.dialect) _ page)

theorem count_priceText (d : Dialect) : countPlaceholders d.escapesBackslash (priceText d) = 2 := by
  cases d <;> decide +kernel

/-- The choice of prices, as it is made in an empty workspace. -/
def priceChoiceExpression : Expression := .grammar 0 (.native (prices.map .literal)) 0

/-- The workspace that it is made in then. -/
def priceWorkspace : Workspace := ⟨⟨[priceChoice]⟩, {}, 1⟩

theorem run_priceQuery {α : Type} (f : Query → StateM Workspace α) :
    (priceQuery >>= f).run {} = (f (pricedProducts priceChoiceExpression)).run priceWorkspace := by
  have made : priceQuery.run {} = (pricedProducts priceChoiceExpression, priceWorkspace) := rfl
  rw [StateT.run_bind, made]
  rfl

/-- **The query with the choice of prices** compiles in every dialect and for every version, each price
at its placeholder. -/
theorem answer_priceQuery {c : Compiler} (asked : c.settings = {})
    (named : c.context.driver = some c.dialect.driver) :
    ((priceQuery >>= c.select).run {}).1.answer = .ok ⟨priceText c.dialect, prices⟩ := by
  let f : Form := .select (pricedProducts priceChoiceExpression)
  have spelled : priceChoiceExpression.resolve (priceWorkspace.tables.lookup c.context) =
      .ok (choiceText c.dialect) :=
    Grammar.resolveIn_of_unversioned rfl (versions?_priceChoice c.dialect) c.context named
  have resolved : configured (priceWorkspace.tables.lookup c.context) (f.expressions c.dialect) =
      .ok 1 := by
    have alone : f.expressions c.dialect = [priceChoiceExpression] := rfl
    have needed : priceChoiceExpression.isGrammar = true := rfl
    rw [alone, configured, configured, if_pos needed, spelled]
    rfl
  have answered : ((f.run c) priceWorkspace).1.answer = c.finish (priceText c.dialect) prices :=
    Form.answer_of_written rfl resolved
      (write_pricedProducts (w := .reading c.dialect c.context priceWorkspace.tables) spelled)
  have finished : c.finish (priceText c.dialect) prices = .ok ⟨priceText c.dialect, prices⟩ := by
    have two : prices.length = 2 := rfl
    unfold Compiler.finish
    simp only [asked, count_priceText, two]
    rfl
  rw [run_priceQuery, ← finished, ← answered]
  rfl

/-! ## The four checks -/

section Checks

variable (c : Connection)

/-- The dialect is missing exactly for an unknown driver. -/
theorem checkDialect_eq_failed_iff :
    c.checkDialect.outcome = .failed ↔ c.driver.isKnown = false := by
  unfold checkDialect
  cases c.driver <;> simp [Dialect.ofDriver, Driver.isKnown]

/-- The version is known or not, which is no failure. -/
theorem checkVersion_ne_failed : c.checkVersion.outcome ≠ .failed := by
  unfold checkVersion
  cases c.version <;> exact nofun

/-- The check of the table passes exactly if a text is found and the name of the driver stands in it. -/
theorem checkGrammar_ne_failed_iff :
    c.checkGrammar.outcome ≠ .failed ↔
      ∃ text, (marker.resolveIn c.context).1 = .ok text ∧ Text.contains text c.driver.name := by
  unfold checkGrammar
  cases (marker.resolveIn c.context).1 with
  | error e => simp
  | ok text =>
    by_cases named : Text.contains text c.driver.name <;> simp [named]

-- The name of an unknown driver may stand in the text of a known one.
example : (Connection.mk (.other "sql") none ⟨some .mysql, none⟩).checkGrammar.outcome = .passed := by
  decide

/-- The expression with bindings compiles exactly where there is a compiler. -/
theorem checkBindings_ne_failed_iff :
    c.checkBindings.outcome ≠ .failed ↔
      ∃ compiler, Compiler.forContext c.context = .ok compiler := by
  unfold checkBindings
  cases made : Compiler.forContext c.context with
  | error e => simp
  | ok compiler =>
    obtain ⟨d, named, rfl⟩ := Compiler.forContext_eq_ok_iff.1 made
    have answered := answer_priceQuery (c := ⟨c.context, d, {}⟩) rfl named
    simp only [answered]
    exact iff_of_true nofun ⟨_, rfl⟩

/-- A checkup succeeds if no check fails; the one of the version never does. -/
theorem success_checkup_iff :
    c.checkup.success = true ↔ c.checkDialect.outcome ≠ .failed ∧
      c.checkGrammar.outcome ≠ .failed ∧ c.checkBindings.outcome ≠ .failed := by
  simp [checkup, Report.success, c.checkVersion_ne_failed]

end Checks

/-! ## The verdict -/

theorem versions?_marker (d : Dialect) :
    marker.versions? d.driver = some [(.zero, "'" ++ d.driver.name ++ "'")] := by
  cases d <;> rfl

/-- In the text that names a known driver no other known driver's name stands. -/
theorem contains_marker_iff (d e : Dialect) :
    Text.contains ("'" ++ d.driver.name ++ "'") e.driver.name = true ↔ e = d := by
  cases d <;> cases e <;> decide

/-- A checkup succeeds exactly if both drivers are that of one dialect. -/
theorem success_iff_dialect (c : Connection) :
    c.checkup.success = true ↔
      ∃ d : Dialect, c.driver = d.driver ∧ c.context.driver = some d.driver := by
  have resolved {d : Dialect} (named : c.context.driver = some d.driver) :
      (marker.resolveIn c.context).1 = .ok ("'" ++ d.driver.name ++ "'") :=
    Grammar.resolveIn_of_unversioned rfl (versions?_marker d) c.context named
  rw [success_checkup_iff, ne_eq, checkDialect_eq_failed_iff, Bool.not_eq_false, Driver.isKnown_iff,
    checkGrammar_ne_failed_iff, checkBindings_ne_failed_iff]
  constructor
  · rintro ⟨⟨e, own⟩, ⟨text, found, stands⟩, compiler, made⟩
    obtain ⟨d, named, -⟩ := Compiler.forContext_eq_ok_iff.1 made
    cases (resolved named).symm.trans found
    rw [own, contains_marker_iff] at stands
    exact ⟨d, by rw [own, stands], named⟩
  · rintro ⟨d, own, named⟩
    refine ⟨⟨d, own⟩, ⟨_, resolved named, ?_⟩, _, Compiler.forContext_eq_ok_iff.2 ⟨d, named, rfl⟩⟩
    rw [own, contains_marker_iff]

/-- **The verdict is exact.** Whatever the versions are, a checkup succeeds exactly if the connection's
driver is one of the four known drivers and the context that it compiles in has the same driver. That
is so exactly if there is a compiler for the connection and it writes the dialect of its driver. -/
theorem checkup_exact (c : Connection) :
    (c.checkup.success = true ↔
      c.driver.isKnown = true ∧ c.context.driver = some c.driver) ∧
    (c.checkup.success = true ↔
      ∃ compiler, Compiler.forContext c.context = .ok compiler ∧
        compiler.dialect.driver = c.driver) := by
  simp only [success_iff_dialect, Driver.isKnown_iff, Compiler.forContext_eq_ok_iff]
  constructor
  · constructor
    · rintro ⟨d, own, named⟩
      exact ⟨⟨d, own⟩, by rw [own, named]⟩
    · rintro ⟨⟨d, own⟩, named⟩
      exact ⟨d, own, by rw [named, own]⟩
  · constructor
    · rintro ⟨d, own, named⟩
      exact ⟨_, ⟨d, named, rfl⟩, own.symm⟩
    · rintro ⟨_, ⟨d, named, rfl⟩, own⟩
      exact ⟨d, own.symm, named⟩

end Connection

end SqlFragments
