import SqlFragments.Proofs.Ordered
import SqlFragments.Proofs.Remembering

/-!
# What a table was told

A table answers from the texts that it was told last, whatever was done with it before: `Ledger` is
the list of what a table was told, the latest first, and `Ledger.answer` reads the answer off the
list, with no order of the entries and nothing remembered. `Tables.answers_as_told` says that after
any calls, on any tables and their clones, a table gives that answer and remembers nothing else.

What carries the proof is `Grammar.Records`, kept by every change of a table: the table has the
texts of its ledger, in ascending order, and what it remembers is `Grammar.Current`.
-/

namespace SqlFragments

/-! ## Remembered texts -/

namespace Grammar

/-- Whatever the table remembers, it would find again. -/
def Current (g : Grammar) : Prop :=
  ∀ driver version text, g.resolved.lookup (driver, version) = some text →
    g.pick driver version = .ok text

/-- A table that remembers nothing out of date answers what it finds. -/
theorem Current.answer_resolveAt {g : Grammar} (h : g.Current) (driver : Driver)
    (version : Version) : (g.resolveAt driver version).1 = g.pick driver version := by
  unfold resolveAt
  split
  · cases known : g.resolved.lookup (driver, version) with
    | some text => exact (h driver version text known).symm
    | none => cases g.pick driver version <;> rfl
  · rfl

/-- What a table found may be remembered. -/
theorem Current.remember {g : Grammar} (h : g.Current) {driver : Driver} {version : Version}
    {text : String} (found : g.pick driver version = .ok text) :
    (g.remember driver version text).Current := by
  intro d v t known
  by_cases same : (d, v) = (driver, version)
  · obtain ⟨rfl, rfl⟩ := Prod.mk.inj same
    have given : t = text := by simpa [Grammar.remember] using known.symm
    rw [given]
    exact found
  · refine h d v t ?_
    simpa [Grammar.remember, List.lookup_cons, beq_false_of_ne same] using known

/-- Resolving leaves the table as it is, or remembers one text more that the table has found. -/
theorem resolveWith_cases (g : Grammar) (driver : Option Driver) (version : Option Version) :
    (g.resolveWith driver version).2 = g ∨
      ∃ d v text, g.pick d v = .ok text ∧
        (g.resolveWith driver version).2 = g.remember d v text := by
  unfold resolveWith
  split
  · exact .inl rfl
  · next d _ =>
    unfold resolveAt
    split
    · split
      · exact .inl rfl
      · split
        · next text found => exact .inr ⟨d, _, text, found, rfl⟩
        · exact .inl rfl
    · exact .inl rfl

variable (g : Grammar) (driver : Driver) (text : String) (version : Version)

/-- A new text changes the texts of its driver and of no other. -/
theorem versions?_register (d : Driver) :
    (g.register driver text version).versions? d =
      if d = driver then some (insertOrdered version text ((g.versions? driver).getD []))
      else g.versions? d :=
  lookup_insertOrdered

/-- A new text makes the table forget what it remembers for its driver, and nothing else. -/
theorem lookup_resolved_register (d : Driver) (v : Version) :
    (g.register driver text version).resolved.lookup (d, v) =
      if d = driver then none else g.resolved.lookup (d, v) := by
  have kept : (g.register driver text version).resolved.lookup (d, v) =
      if d != driver then g.resolved.lookup (d, v) else none :=
    lookup_filter_key fun key : Driver × Version => key.1 != driver
  rw [kept]
  by_cases same : d = driver
  · simp [same]
  · simp [same]

/-- What is found for another driver stays. -/
theorem pick_register_of_ne {d : Driver} {v : Version} {t : String} (differs : d ≠ driver)
    (found : g.pick d v = .ok t) : (g.register driver text version).pick d v = .ok t := by
  have same : (g.register driver text version).versions? d = g.versions? d := by
    rw [versions?_register, if_neg differs]
  unfold pick at found ⊢
  rw [same]
  cases held : g.versions? d with
  | none => simp [held] at found
  | some versions =>
    simp only [held] at found ⊢
    cases newest : newest v none versions with
    | none => simp [newest] at found
    | some newestText => simpa [newest] using found

theorem Current.register {g : Grammar} (h : g.Current) :
    (g.register driver text version).Current := by
  intro d v t known
  rw [lookup_resolved_register] at known
  split at known
  · cases known
  · next differs => exact g.pick_register_of_ne driver text version differs (h d v t known)

end Grammar

/-! ## Ledgers -/

/-- What a table was told: texts by driver and version, the latest first, and a driver and a version
of its own. -/
structure Ledger where
  texts : List ((Driver × Version) × String) := []
  driver : Option Driver := none
  version : Option Version := none

namespace Ledger

/-- The last text that was told for a driver from a version on. -/
def text? (l : Ledger) (driver : Driver) (version : Version) : Option String :=
  l.texts.lookup (driver, version)

/-- The drivers that a text was told for, as often as one was told. -/
def drivers (l : Ledger) : List Driver :=
  l.texts.map (·.1.1)

/-- The versions that a text was told for with a driver, as often as one was told. -/
def versions (l : Ledger) (driver : Driver) : List Version :=
  (l.texts.filter (·.1.1 == driver)).map (·.1.2)

/-- The drivers and their versions, each once and in order. -/
def listing (l : Ledger) : Listing :=
  (l.drivers.toFinset.sort).map fun driver => (driver, (l.versions driver).toFinset.sort)

/-- The greatest version of a driver that is not above the given one. -/
def newest? (l : Ledger) (driver : Driver) (version : Version) : Option Version :=
  ((l.versions driver).filter (· ≤ version)).max?

/-- The answer for a driver and a version. -/
def answerAt (l : Ledger) (driver : Driver) (version : Version) : Except Error String :=
  if l.versions driver = [] then .error (.driverUndefined driver l.listing)
  else
    match (l.newest? driver version).bind (l.text? driver) with
    | some text => .ok text
    | none => .error (.versionUndefined driver version l.listing)

/-- The answer for a driver and a version that may be missing. -/
def answer (l : Ledger) (driver : Option Driver) (version : Option Version) :
    Except Error String :=
  match driver.or l.driver with
  | none => .error (.driverUnset l.listing)
  | some driver => l.answerAt driver ((version.or l.version).getD .zero)

theorem mem_versions {l : Ledger} {driver : Driver} {version : Version} :
    version ∈ l.versions driver ↔ (l.text? driver version).isSome := by
  rw [text?, isSome_lookup_iff]
  simp [versions]

theorem mem_drivers {l : Ledger} {driver : Driver} :
    driver ∈ l.drivers ↔ l.versions driver ≠ [] := by
  simp [drivers, versions, List.filter_eq_nil_iff]

end Ledger

/-! ## Tables and their ledgers -/

namespace Grammar

/-- A table with what it was told. -/
structure Records (g : Grammar) (l : Ledger) : Prop where
  driver : g.driver = l.driver
  version : g.version = l.version
  ascending : Ascending g.fragments
  versions : ∀ entry ∈ g.fragments, entry.2 ≠ [] ∧ Ascending entry.2
  texts : ∀ d v, (g.versions? d).bind (·.lookup v) = l.text? d v
  current : g.Current

/-- The walk upward ends at the greatest version that is not above the given one, if there is one.
-/
theorem newest_cases {entries : List (Version × String)} (h : Ascending entries)
    (version : Version) (found : Option String) :
    (∃ v text, newest version found entries = some text ∧ (v, text) ∈ entries ∧ v ≤ version ∧
      ∀ other ∈ entries.map Prod.fst, other ≤ version → other ≤ v) ∨
    (newest version found entries = found ∧ ∀ other ∈ entries.map Prod.fst, ¬other ≤ version) := by
  -- `found` changes on the way: behind the first entry it is that entry's text.
  induction entries generalizing found with
  | nil => exact .inr ⟨rfl, by simp⟩
  | cons entry rest ih =>
    obtain ⟨k, t⟩ := entry
    obtain ⟨below, later⟩ := List.pairwise_cons.1 h
    rw [newest]
    split
    · next above =>
      have above : version < k := compare_gt_iff_gt.1 above
      refine .inr ⟨rfl, fun other member => ?_⟩
      rcases List.mem_cons.1 member with rfl | member
      · exact above.not_ge
      · exact (above.trans (below other member)).not_ge
    · next notAbove =>
      have within : k ≤ version := le_of_not_gt fun above => notAbove (compare_gt_iff_gt.2 above)
      rcases ih later (some t) with ⟨v, text, walked, there, fits, greatest⟩ | ⟨walked, none⟩
      · refine .inl ⟨v, text, walked, List.mem_cons_of_mem _ there, fits, fun other member => ?_⟩
        rcases List.mem_cons.1 member with rfl | member
        · exact fun _ => (below v (List.mem_map_of_mem there)).le
        · exact greatest other member
      · refine .inl ⟨k, t, walked, List.mem_cons_self, within, fun other member => ?_⟩
        rcases List.mem_cons.1 member with rfl | member
        · exact fun _ => le_rfl
        · exact fun fits => (none other member fits).elim

namespace Records

variable {g : Grammar} {l : Ledger}

theorem empty : Records {} {} where
  driver := rfl
  version := rfl
  ascending := List.Pairwise.nil
  versions _ there := nomatch there
  texts _ _ := rfl
  current _ _ _ known := nomatch known

/-- The versions that a table holds for a driver are those of its ledger. -/
theorem mem_versions (h : g.Records l) {driver : Driver} {versions : List (Version × String)}
    (held : g.versions? driver = some versions) {version : Version} :
    version ∈ versions.map Prod.fst ↔ version ∈ l.versions driver := by
  rw [Ledger.mem_versions, ← h.texts, held, ← isSome_lookup_iff]
  rfl

/-- A table holds versions for a driver when its ledger does: it never holds an empty list. -/
theorem versions_ne_nil_iff (h : g.Records l) {driver : Driver} :
    l.versions driver ≠ [] ↔ (g.versions? driver).isSome := by
  cases held : g.versions? driver with
  | none =>
    have nothing : l.versions driver = [] := by
      refine List.eq_nil_iff_forall_not_mem.2 fun version told => ?_
      rw [Ledger.mem_versions, ← h.texts, held] at told
      cases told
    simp [nothing]
  | some versions =>
    have member : (driver, versions) ∈ g.fragments := mem_of_lookup held
    obtain ⟨⟨version, text⟩, first⟩ := List.exists_mem_of_ne_nil _ (h.versions _ member).1
    have told : version ∈ l.versions driver := (h.mem_versions held).1 (List.mem_map_of_mem first)
    simp [List.ne_nil_of_mem told]

theorem mem_drivers (h : g.Records l) {driver : Driver} :
    driver ∈ g.fragments.map Prod.fst ↔ driver ∈ l.drivers := by
  rw [Ledger.mem_drivers, h.versions_ne_nil_iff]
  exact isSome_lookup_iff.symm

/-- A table lists what it was told. -/
theorem listing (h : g.Records l) : g.listing = l.listing := by
  have keys : l.drivers.toFinset.sort = g.fragments.map Prod.fst := by
    have same : l.drivers.toFinset = (g.fragments.map Prod.fst).toFinset := by
      ext driver
      rw [List.mem_toFinset, List.mem_toFinset, h.mem_drivers]
    rw [same]
    exact h.ascending.sort_toFinset
  unfold Grammar.listing Ledger.listing
  rw [keys, List.map_map]
  refine List.map_congr_left fun entry member => ?_
  obtain ⟨driver, versions⟩ := entry
  have held : g.versions? driver = some versions := h.ascending.lookup_of_mem member
  have same : (l.versions driver).toFinset = (versions.map Prod.fst).toFinset := by
    ext version
    rw [List.mem_toFinset, List.mem_toFinset, h.mem_versions held]
  rw [Function.comp_apply, same, (h.versions _ member).2.sort_toFinset]

/-- The walk through the versions of a driver ends at the text that the ledger finds. -/
theorem newest (h : g.Records l) {driver : Driver} {versions : List (Version × String)}
    (held : g.versions? driver = some versions) (version : Version) :
    Grammar.newest version none versions = (l.newest? driver version).bind (l.text? driver) := by
  have ascending : Ascending versions := (h.versions _ (mem_of_lookup held)).2
  rcases newest_cases ascending version none with
    ⟨v, text, walked, there, fits, greatest⟩ | ⟨walked, above⟩
  · have told : v ∈ l.versions driver := (h.mem_versions held).1 (List.mem_map_of_mem there)
    have newest : l.newest? driver version = some v := by
      refine List.max?_eq_some_iff.2 ⟨List.mem_filter.2 ⟨told, by simpa using fits⟩, ?_⟩
      intro other member
      obtain ⟨known, below⟩ := List.mem_filter.1 member
      exact greatest other ((h.mem_versions held).2 known) (by simpa using below)
    have last : l.text? driver v = some text := by
      rw [← h.texts, held]
      exact ascending.lookup_of_mem there
    rw [walked, newest, Option.bind_some, last]
  · have newest : l.newest? driver version = none := by
      refine List.max?_eq_none_iff.2 (List.filter_eq_nil_iff.2 fun other known => ?_)
      simpa using above other ((h.mem_versions held).2 known)
    rw [walked, newest, Option.bind_none]

/-- A table finds what it was told. -/
theorem pick (h : g.Records l) (driver : Driver) (version : Version) :
    g.pick driver version = l.answerAt driver version := by
  have holds : l.versions driver ≠ [] ↔ (g.versions? driver).isSome := h.versions_ne_nil_iff
  unfold Grammar.pick Ledger.answerAt
  rw [h.listing]
  cases held : g.versions? driver with
  | none =>
    rw [held] at holds
    rw [if_pos (by simpa using holds)]
  | some versions =>
    rw [held] at holds
    rw [if_neg (by simpa using holds)]
    have walked := h.newest held version
    cases told : (l.newest? driver version).bind (l.text? driver) with
    | none => simp only [walked, told]
    | some text => simp only [walked, told]

/-- A table answers what it was told. -/
theorem resolveWith (h : g.Records l) (driver : Option Driver) (version : Option Version) :
    (g.resolveWith driver version).1 = l.answer driver version := by
  unfold Grammar.resolveWith Ledger.answer
  rw [h.driver, h.version, h.listing]
  cases driver.or l.driver with
  | none => rfl
  | some driver => exact (h.current.answer_resolveAt _ _).trans (h.pick _ _)

end Records

end Grammar

/-! ## Changes -/

/-- What is done with one table. The resolutions for the table's own driver, for a driver and for a
context are one, with what is given. -/
inductive Grammar.Change where
  | register (driver : Driver) (text : String) (version : Version)
  | setDriver (driver : Driver)
  | setVersion (version : Version)
  | resolve (driver : Option Driver) (version : Option Version)

/-- The table after a change. -/
def Grammar.change (g : Grammar) : Change → Grammar
  | .register driver text version => g.register driver text version
  | .setDriver driver => g.setDriver driver
  | .setVersion version => g.setVersion version
  | .resolve driver version => (g.resolveWith driver version).2

/-- What a table was told after a change: resolving tells it nothing. -/
def Ledger.change (l : Ledger) : Grammar.Change → Ledger
  | .register driver text version => { l with texts := ((driver, version), text) :: l.texts }
  | .setDriver driver => { l with driver := some driver }
  | .setVersion version => { l with version := some version }
  | .resolve _ _ => l

namespace Grammar.Records

variable {g : Grammar} {l : Ledger}

theorem register (h : g.Records l) (driver : Driver) (text : String) (version : Version) :
    (g.change (.register driver text version)).Records (l.change (.register driver text version))
    where
  driver := h.driver
  version := h.version
  ascending := h.ascending.insertOrdered
  versions := by
    intro entry member
    rcases mem_insertOrdered member with rfl | before
    · refine ⟨insertOrdered_ne_nil, Ascending.insertOrdered ?_⟩
      cases held : g.versions? driver with
      | none => exact List.Pairwise.nil
      | some versions => exact (h.versions _ (mem_of_lookup held)).2
    · exact h.versions entry before
  texts := by
    intro d v
    have before := h.texts d v
    rw [Grammar.change, versions?_register]
    by_cases sameDriver : d = driver
    · subst sameDriver
      rw [if_pos rfl, Option.bind_some, lookup_insertOrdered]
      have held : ((g.versions? d).getD []).lookup v = l.text? d v := by
        rw [← before]
        cases g.versions? d <;> rfl
      rw [held]
      by_cases sameVersion : v = version
      · simp [Ledger.text?, Ledger.change, sameVersion]
      · have differs : (d, v) ≠ (d, version) := fun same => sameVersion (Prod.mk.inj same).2
        simp [Ledger.text?, Ledger.change, List.lookup_cons, beq_false_of_ne differs, sameVersion]
    · have differs : (d, v) ≠ (driver, version) := fun same => sameDriver (Prod.mk.inj same).1
      rw [if_neg sameDriver, before]
      simp [Ledger.text?, Ledger.change, List.lookup_cons, beq_false_of_ne differs]
  current := h.current.register driver text version

/-- **One change.** A table goes on to record what it is told. -/
theorem change (h : g.Records l) (c : Change) : (g.change c).Records (l.change c) := by
  cases c with
  | register driver text version => exact h.register driver text version
  | setDriver driver => exact { h with driver := rfl }
  | setVersion version => exact { h with version := rfl }
  | resolve driver version =>
    -- The ledger stays; the table may remember a text more, and has just found it.
    rcases g.resolveWith_cases driver version with same | ⟨d, v, text, found, kept⟩
    · rw [Grammar.change, same]
      exact h
    · rw [Grammar.change, kept]
      exact { h with current := h.current.remember found }

end Grammar.Records

/-! ## Histories -/

namespace Tables

/-- What is done with tables. A table that is made, or cloned with what it remembers, gets the next
place. -/
inductive Call where
  | create
  | clone (id : TableId)
  | change (id : TableId) (c : Grammar.Change)

/-- The tables after a call. -/
def call (T : Tables) : Call → Tables
  | .create => (T.add {}).2
  | .clone id => (T.add (T.get id)).2
  | .change id c => T.put id ((T.get id).change c)

/-- The tables after calls, when there were none before. -/
def after (calls : List Call) : Tables :=
  calls.foldl call {}

end Tables

namespace Ledger

/-- What each table was told, after a call. -/
def call (ls : List Ledger) : Tables.Call → List Ledger
  | .create => ls ++ [{}]
  | .clone id => ls ++ [ls.getD id {}]
  | .change id c => ls.set id ((ls.getD id {}).change c)

/-- What the table at a place was told by calls. -/
def after (calls : List Tables.Call) (id : TableId) : Ledger :=
  (calls.foldl call []).getD id {}

end Ledger

namespace Tables

/-- Every table records what it was told. -/
structure Recorded (T : Tables) (ls : List Ledger) : Prop where
  length : T.entries.length = ls.length
  records : ∀ id, (T.get id).Records (ls.getD id {})

namespace Recorded

variable {T : Tables} {ls : List Ledger}

theorem empty : Recorded {} [] := ⟨rfl, fun _ => .empty⟩

theorem add (h : Recorded T ls) {g : Grammar} {l : Ledger} (told : g.Records l) :
    Recorded (T.add g).2 (ls ++ [l]) where
  length := by simp [Tables.add, h.length]
  records id := by
    have before := h.records id
    rcases lt_trichotomy id ls.length with inside | last | outside
    · have inside' : id < T.entries.length := h.length ▸ inside
      simpa [Tables.get, Tables.add, List.getElem?_append_left, inside, inside'] using before
    · have last' : id = T.entries.length := last.trans h.length.symm
      simpa [Tables.get, Tables.add, ← last', ← last] using told
    · have beyond : (ls ++ [l]).length ≤ id := by
        rw [List.length_append]
        exact outside
      have beyond' : (T.entries ++ [g]).length ≤ id := by
        rw [List.length_append, h.length]
        exact outside
      simpa [Tables.get, Tables.add, List.getElem?_eq_none beyond, List.getElem?_eq_none beyond']
        using Grammar.Records.empty

theorem put (h : Recorded T ls) {g : Grammar} {l : Ledger} (id : TableId) (told : g.Records l) :
    Recorded (T.put id g) (ls.set id l) where
  length := by simp [Tables.put, h.length]
  records other := by
    rw [get_put, getD_set, ← h.length]
    split
    · exact told
    · exact h.records other

/-- **One call.** Every table goes on to record what it is told. -/
theorem call (h : Recorded T ls) (c : Call) : Recorded (T.call c) (Ledger.call ls c) := by
  cases c with
  | create => exact h.add .empty
  | clone id => exact h.add (h.records id)
  | change id c => exact h.put id ((h.records id).change c)

theorem calls (h : Recorded T ls) (calls : List Call) :
    Recorded (calls.foldl Tables.call T) (calls.foldl Ledger.call ls) := by
  induction calls generalizing T ls with
  | nil => exact h
  | cons c calls ih => exact ih (h.call c)

end Recorded

/-- **Tables record what they are told**, after any calls. -/
theorem records_after (calls : List Call) (id : TableId) :
    ((after calls).get id).Records (Ledger.after calls id) :=
  (Recorded.empty.calls calls).records id

/-- A new text leaves what is remembered for the other drivers, and in the other tables. -/
theorem lookup_resolved_register (T : Tables) (id place : TableId) (driver : Driver)
    (text : String) (version : Version) {other : Driver} (v : Version)
    (apart : id ≠ place ∨ other ≠ driver) :
    ((T.call (.change place (.register driver text version))).get id).resolved.lookup (other, v) =
      (T.get id).resolved.lookup (other, v) := by
  rw [call, get_put]
  split
  · next inside =>
    have differs : other ≠ driver := apart.resolve_left fun differs => differs inside.1
    rw [Grammar.change, Grammar.lookup_resolved_register, if_neg differs, inside.1]
  · rfl

/-- **History does not matter.** After any calls a table resolves, for its own driver, for a driver
and for a context, to what its ledger answers. It remembers nothing else, and telling a table a text
for a driver leaves what is remembered for the other drivers. -/
theorem answers_as_told (calls : List Call) (id : TableId) :
    ((after calls).get id).resolve.1 = (Ledger.after calls id).answer none none ∧
    (∀ driver version, (((after calls).get id).resolveFor driver version).1 =
      (Ledger.after calls id).answer (some driver) version) ∧
    (∀ ctx, (((after calls).get id).resolveIn ctx).1 =
      (Ledger.after calls id).answer ctx.driver ctx.version) ∧
    (∀ driver version text,
      ((after calls).get id).resolved.lookup (driver, version) = some text →
      (Ledger.after calls id).answer (some driver) (some version) = .ok text) ∧
    (∀ place driver text version other v, id ≠ place ∨ other ≠ driver →
      ((after (calls ++ [.change place (.register driver text version)])).get id).resolved.lookup
        (other, v) = ((after calls).get id).resolved.lookup (other, v)) := by
  have records := records_after calls id
  refine ⟨records.resolveWith none none, fun driver => records.resolveWith (some driver),
    fun ctx => records.resolveWith ctx.driver ctx.version, ?_, ?_⟩
  · intro driver version text known
    exact (records.pick driver version).symm.trans (records.current driver version text known)
  · intro place driver text version other v apart
    rw [after, List.foldl_append]
    exact lookup_resolved_register (after calls) id place driver text version v apart

/-- A table is resolved and cloned; then both are told something new. -/
def clonedAndChanged : List Call :=
  [.create, .change 0 (.register .mysql "a" .zero), .change 0 (.resolve (some .mysql) none),
    .clone 0, .change 0 (.register .mysql "b" .zero), .change 1 (.register .postgres "c" .zero),
    .change 1 (.resolve (some .postgres) none)]

theorem clonedAndChanged_answers :
    (((after clonedAndChanged).get 0).resolveFor .mysql).1 = .ok "b" ∧
    (((after clonedAndChanged).get 1).resolveFor .mysql).1 = .ok "a" ∧
    ((after clonedAndChanged).get 1).resolved.lookup (.postgres, .zero) = some "c" ∧
    (Ledger.after clonedAndChanged 1).answer (some .postgres) (some .zero) = .ok "c" ∧
    ((after (clonedAndChanged ++ [.change 1 (.register .mysql "d" .zero)])).get 1).resolved.lookup
      (.postgres, .zero) = some "c" := by
  have known : ((after clonedAndChanged).get 1).resolved.lookup (.postgres, .zero) = some "c" := by
    decide
  obtain ⟨_, first, _, _, _⟩ := answers_as_told clonedAndChanged 0
  obtain ⟨_, second, _, remembered, kept⟩ := answers_as_told clonedAndChanged 1
  refine ⟨?_, ?_, known, remembered .postgres .zero "c" known, ?_⟩
  · rw [first]
    decide
  · rw [second]
    decide
  · rw [kept 1 .mysql "d" .zero .postgres .zero (.inr (by decide))]
    exact known

end Tables

end SqlFragments
