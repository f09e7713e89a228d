import SqlFragments.Proofs.Phrases

/-!
# The phrases of slots

For each function of a writer that writes a part of a query there is a phrase, which is put as what the
function writes. Only two of these phrases can have an empty list: that of a join without conditions,
where it is not a cross join (`Join.filled_iff`), and that of leaving out rows that agree on no columns
(`Distinct.filled_iff`).
-/

namespace SqlFragments

variable {w : Writer (Except Error)} {text : String}

/-! ## Columns and values -/

/-- The phrase of a column or table. -/
def Ident.phrase : Ident → Phrase
  | name n => .part (.name n)
  | raw f => .part (.source (.fragment f))

/-- The phrase of a value. -/
def Operand.phrase : Operand → Phrase
  | bound b => .part (.source (.value b))
  | inline e => .part (.source (.fragment ⟨e, []⟩))

/-- The columns as items of a list; all columns, where none is given. -/
def Ident.items (cs : List Ident) : List Phrase :=
  if cs.isEmpty then [.word "*"] else Phrase.commas (cs.map phrase)

@[simp] theorem Ident.filled_phrase (i : Ident) : i.phrase.Filled := by
  cases i <;> trivial

@[simp] theorem Operand.filled_phrase (o : Operand) : o.phrase.Filled := by
  cases o <;> trivial

theorem Ident.filled_commas (cs : List Ident) : ∀ p ∈ Phrase.commas (cs.map phrase), p.Filled :=
  Phrase.filled_commas_map fun c _ => c.filled_phrase

@[simp] theorem Ident.items_ne_nil (cs : List Ident) : items cs ≠ [] := by
  unfold items
  split
  · exact List.cons_ne_nil _ _
  · next some => simpa using some

theorem Ident.filled_items (cs : List Ident) : ∀ p ∈ items cs, p.Filled := by
  unfold items
  split
  · exact List.forall_mem_singleton.2 trivial
  · exact filled_commas cs

theorem Ident.puts {i : Ident} (h : w.ident i = .ok text) : w.Puts i.phrase text := by
  cases i <;> exact h

theorem Operand.puts {o : Operand} (h : w.operand o = .ok text) : w.Puts o.phrase text := by
  cases o <;> exact h

theorem Ident.puts_commas {cs : List Ident} (h : w.columns cs = .ok text) :
    w.PutsAll (Phrase.commas (cs.map phrase)) text := by
  simp only [Writer.columns, bind_eq_ok, pure_eq_ok] at h
  obtain ⟨texts, written, rfl⟩ := h
  exact .commas (Writer.puts_each written fun _ _ => puts)

theorem Ident.puts_items {cs : List Ident} (h : w.columnsOrAll cs = .ok text) :
    w.PutsAll (items cs) text := by
  unfold Writer.columnsOrAll at h
  unfold items
  split
  · next none =>
    rw [if_pos none] at h
    exact .single h
  · next some =>
    rw [if_neg some] at h
    exact puts_commas h

/-! ## Predicates -/

theorem DatePart.listless_called (part : DatePart) : Listless (part.word ++ "(") := by
  cases part <;> exact Listless.of_check _ Listless.checked

theorem DatePart.listless_extracted (part : DatePart) :
    Listless ("extract(" ++ part.word ++ " from ") := by
  cases part <;> exact Listless.of_check _ Listless.checked

theorem Dialect.listless_formatted (part : DatePart) :
    Listless ("strftime('" ++ datePattern part ++ "', ") := by
  cases part <;> exact Listless.of_check _ Listless.checked

/-- The phrase of a comparison of a part of a date with a value. -/
def Dialect.datePhrase (d : Dialect) (part : DatePart) (column operator value : Phrase) : Phrase :=
  let compared (left : Phrase) : Phrase := left ++ .word " " ++ operator ++ .word " " ++ value
  let called : Phrase := compared (.word _ part.listless_called ++ column ++ .word ")")
  match d, part with
  | mysql, _ => called
  | postgres, .date => compared (column ++ .word "::date")
  | postgres, .time => compared (column ++ .word "::time")
  | postgres, _ =>
    compared (.word _ part.listless_extracted ++ column ++ .word ")")
  | sqlite, _ =>
    .word _ (listless_formatted part) ++ column ++ .word ") " ++ operator ++ .word " cast(" ++ value ++
      .word " as text)"
  | sqlServer, .date => compared (.word "cast(" ++ column ++ .word " as date)")
  | sqlServer, .time => compared (.word "cast(" ++ column ++ .word " as time)")
  | sqlServer, _ => called

theorem Dialect.filled_date (d : Dialect) (part : DatePart) {column operator value : Phrase}
    (hc : column.Filled) (ho : operator.Filled) (hv : value.Filled) :
    (d.datePhrase part column operator value).Filled := by
  cases d <;> cases part <;> simp [datePhrase, hc, ho, hv]

theorem Dialect.puts_date {d : Dialect} (part : DatePart) {column operator value : Phrase}
    {c o v : String} (hc : w.Puts column c) (ho : w.Puts operator o) (hv : w.Puts value v) :
    w.Puts (d.datePhrase part column operator value) (d.dateWhere part c o v) := by
  have compared {left : Phrase} {l : String} (hl : w.Puts left l) :
      w.Puts (left ++ .word " " ++ operator ++ .word " " ++ value) (l ++ " " ++ o ++ " " ++ v) :=
    (((hl.closed " ").append ho).closed " ").append hv
  cases d with
  | mysql => exact compared ((hc.opened _).closed ")")
  | sqlite =>
    exact (((((hc.opened _).closed ") ").append ho).closed " cast(").append hv).closed " as text)"
  | postgres =>
    cases part with
    | date => exact compared (hc.closed "::date")
    | time => exact compared (hc.closed "::time")
    | day | month | year => exact compared ((hc.opened _).closed ")")
  | sqlServer =>
    cases part with
    | date => exact compared ((hc.opened "cast(").closed " as date)")
    | time => exact compared ((hc.opened "cast(").closed " as time)")
    | day | month | year => exact compared ((hc.opened _).closed ")")

namespace Predicate

mutual

/-- The phrase of a predicate, without the word that joins it to the one before. -/
def phrase (d : Dialect) : Predicate → Phrase
  | compare _ column operator value =>
    column.phrase ++ .word " " ++ .part (.operator operator) ++ .word " " ++ value.phrase
  | raw _ f => .part (.source (.fragment f))
  | among _ column negated values =>
    if values.isEmpty then if negated then .word "1 = 1" else .word "0 = 1"
    else
      column.phrase ++ (if negated then .word " not" else .word "") ++
        .list .among (.word "") (Phrase.commas (values.map Operand.phrase)) ++ .word ")"
  | null _ column negated =>
    column.phrase ++ if negated then .word " is not null" else .word " is null"
  | between _ column negated low high =>
    column.phrase ++ (if negated then .word " not between " else .word " between ") ++ low.phrase ++
      .word " and " ++ high.phrase
  | columns _ first operator second =>
    first.phrase ++ .word " " ++ .part (.operator operator) ++ .word " " ++ second.phrase
  | nested _ members => .word "(" ++ .joined (phrases d members) ++ .word ")"
  | dated _ part column operator value =>
    d.datePhrase part column.phrase (.part (.operator operator)) value.phrase

/-- The phrases of predicates, each with the word that joins it but the first. -/
def phrases (d : Dialect) : List Predicate → List Phrase
  | [] => []
  | p :: rest => p.phrase d :: followers d rest

/-- The phrases of predicates that follow another. -/
def followers (d : Dialect) : List Predicate → List Phrase
  | [] => []
  | p :: rest =>
    ((match p.link with | .and => .word " and " | .or => .word " or ") ++ p.phrase d) ::
      followers d rest

end

@[simp] theorem phrases_eq_nil {d : Dialect} {ps : List Predicate} : phrases d ps = [] ↔ ps = [] := by
  cases ps <;> simp [phrases]

mutual

/-- No predicate has an empty list. -/
theorem filled_phrase (d : Dialect) : ∀ p : Predicate, (p.phrase d).Filled
  | compare _ column operator value => by simp [phrase]
  | raw _ f => trivial
  | among _ column negated values => by
    rw [phrase]
    split
    · cases negated <;> trivial
    · next some =>
      have values_filled : ∀ p ∈ Phrase.commas (values.map Operand.phrase), p.Filled :=
        Phrase.filled_commas_map fun o _ => o.filled_phrase
      have some' : values ≠ [] := by simpa using some
      cases negated <;> simpa [some'] using values_filled
  | null _ column negated => by cases negated <;> simp [phrase]
  | between _ column negated low high => by cases negated <;> simp [phrase]
  | columns _ first operator second => by simp [phrase]
  | nested _ members => by simpa [phrase] using filled_phrases d members
  | dated _ part column operator value =>
    d.filled_date part column.filled_phrase trivial value.filled_phrase

theorem filled_phrases (d : Dialect) : ∀ ps : List Predicate, ∀ p ∈ phrases d ps, p.Filled
  | [] => by simp [phrases]
  | p :: rest => List.forall_mem_cons.2 ⟨filled_phrase d p, filled_followers d rest⟩

theorem filled_followers (d : Dialect) : ∀ ps : List Predicate, ∀ p ∈ followers d ps, p.Filled
  | [] => by simp [followers]
  | p :: rest => by
    refine List.forall_mem_cons.2 ⟨⟨?_, filled_phrase d p⟩, filled_followers d rest⟩
    cases p.link <;> trivial

end

mutual

theorem puts : ∀ (p : Predicate) {text : String}, w.predicate p = .ok text →
    w.Puts (p.phrase w.dialect) text
  | compare _ column operator value, _, h => by
    simp only [Writer.predicate, bind_eq_ok, pure_eq_ok] at h
    obtain ⟨left, hl, right, hr, rfl⟩ := h
    exact ((((Ident.puts hl).closed " ").append (.operator operator)).closed " ").append
      (Operand.puts hr)
  | raw _ f, _, h => h
  | among _ column negated values, _, h => by
    rw [Writer.predicate] at h
    rw [phrase]
    split at h
    · next none =>
      rw [if_pos none]
      cases negated <;> exact h
    · next some =>
      simp only [bind_eq_ok, pure_eq_ok] at h
      obtain ⟨list, hlist, left, hl, rfl⟩ := h
      rw [if_neg some]
      have items := Writer.Puts.behind .among
        (.commas (Writer.puts_each hlist fun _ _ => Operand.puts))
      cases negated with
      | true =>
        refine ((((Ident.puts hl).closed " not").append items).closed ")").congr ?_
        simp only [String.append_assoc]
        rfl
      | false =>
        refine ((((Ident.puts hl).closed "").append items).closed ")").congr ?_
        simp only [String.append_empty, String.append_assoc]
        rfl
  | null _ column negated, _, h => by
    simp only [Writer.predicate, bind_eq_ok, pure_eq_ok] at h
    obtain ⟨left, hl, rfl⟩ := h
    cases negated with
    | true => exact (Ident.puts hl).closed " is not null"
    | false => exact (Ident.puts hl).closed " is null"
  | between _ column negated low high, _, h => by
    simp only [Writer.predicate, bind_eq_ok, pure_eq_ok] at h
    obtain ⟨left, hl, first, hf, last, hlast, rfl⟩ := h
    cases negated with
    | true =>
      exact ((((Ident.puts hl).closed " not between ").append (Operand.puts hf)).closed
        " and ").append (Operand.puts hlast)
    | false =>
      exact ((((Ident.puts hl).closed " between ").append (Operand.puts hf)).closed
        " and ").append (Operand.puts hlast)
  | columns _ first operator second, _, h => by
    simp only [Writer.predicate, bind_eq_ok, pure_eq_ok] at h
    obtain ⟨left, hl, right, hr, rfl⟩ := h
    exact ((((Ident.puts hl).closed " ").append (.operator operator)).closed " ").append
      (Ident.puts hr)
  | nested _ members, _, h => by
    simp only [Writer.predicate, bind_eq_ok, pure_eq_ok] at h
    obtain ⟨inner, hi, rfl⟩ := h
    exact ((Writer.Puts.joined (puts_phrases members hi)).opened "(").closed ")"
  | dated _ part column operator value, _, h => by
    simp only [Writer.predicate, bind_eq_ok, pure_eq_ok] at h
    obtain ⟨left, hl, right, hr, rfl⟩ := h
    exact Dialect.puts_date part (Ident.puts hl) (.operator operator) (Operand.puts hr)

theorem puts_phrases : ∀ (ps : List Predicate) {text : String}, w.predicates ps = .ok text →
    w.PutsAll (phrases w.dialect ps) text
  | [], _, h => h
  | p :: rest, _, h => by
    simp only [Writer.predicates, bind_eq_ok, pure_eq_ok] at h
    obtain ⟨first, hf, others, ho, rfl⟩ := h
    exact .cons (puts p hf) (puts_followers rest ho)

theorem puts_followers : ∀ (ps : List Predicate) {text : String}, w.followers ps = .ok text →
    w.PutsAll (followers w.dialect ps) text
  | [], _, h => h
  | p :: rest, _, h => by
    simp only [Writer.followers, bind_eq_ok, pure_eq_ok] at h
    obtain ⟨first, hf, others, ho, rfl⟩ := h
    rw [followers]
    cases p.link with
    | and => exact .cons ((puts p hf).opened " and ") (puts_followers rest ho)
    | or => exact .cons ((puts p hf).opened " or ") (puts_followers rest ho)

end

/-- A clause of predicates, where there are any. -/
theorem puts_clause {ps : List Predicate} (k : ListKeyword)
    (h : Writer.clause (!ps.isEmpty) k.word (w.predicates ps) = .ok text) :
    w.Puts (.clause k (phrases w.dialect ps)) text := by
  refine .clause h ?_ fun _ => puts_phrases ps
  cases ps <;> rfl

theorem filled_clause (d : Dialect) (k : ListKeyword) (ps : List Predicate) :
    (Phrase.clause k (phrases d ps)).Filled :=
  Phrase.filled_clause (filled_phrases d ps)

end Predicate

/-! ## Joins and orders -/

theorem JoinKind.listless_join (kind : JoinKind) : Listless (" " ++ kind.word ++ " join ") := by
  cases kind <;> exact Listless.of_check _ Listless.checked

/-- The phrase of a join. -/
def Join.phrase (d : Dialect) (j : Join) : Phrase :=
  .word _ j.kind.listless_join ++ j.table.phrase ++
    if j.kind != .cross || !j.clauses.isEmpty then
      .list .on (.word "") (Predicate.phrases d j.clauses)
    else .word ""

/-- The join has a condition, where one has to be written. -/
def Join.Conditioned (j : Join) : Prop := j.kind = .cross ∨ j.clauses ≠ []

instance (j : Join) : Decidable j.Conditioned :=
  inferInstanceAs (Decidable (j.kind = .cross ∨ j.clauses ≠ []))

theorem Join.filled_iff (d : Dialect) (j : Join) : (j.phrase d).Filled ↔ j.Conditioned := by
  have clauses := Predicate.filled_phrases d j.clauses
  unfold phrase Conditioned
  split
  · next present =>
    simp only [Bool.or_eq_true, bne_iff_ne, Bool.not_eq_true', List.isEmpty_eq_false_iff] at present
    simp only [Phrase.filled_append, Phrase.filled_word, Ident.filled_phrase, Phrase.filled_list,
      ne_eq, Predicate.phrases_eq_nil, Phrase.allFilled_iff, true_and]
    exact ⟨fun filled => .inr filled.1,
      fun conditioned => ⟨conditioned.elim (fun cross => present.resolve_left (absurd cross)) id,
        clauses⟩⟩
  · next absent =>
    simp only [Bool.or_eq_true, bne_iff_ne, not_or, not_not] at absent
    simp [absent.1]

theorem Join.puts {j : Join} (h : w.join j = .ok text) : w.Puts (j.phrase w.dialect) text := by
  simp only [Writer.join, bind_eq_ok, pure_eq_ok] at h
  obtain ⟨table, ht, conditions, hc, rfl⟩ := h
  refine ((Ident.puts ht).opened _).append ?_
  unfold Writer.clause at hc
  split
  · next present =>
    simp only [if_pos present, bind_eq_ok, pure_eq_ok] at hc
    obtain ⟨inner, hi, rfl⟩ := hc
    exact .behind .on (Predicate.puts_phrases _ hi)
  · next absent =>
    rw [if_neg absent] at hc
    exact hc

theorem Join.puts_joined {js : List Join} (h : w.joins js = .ok text) :
    w.Puts (.joined (js.map (phrase w.dialect))) text := by
  induction js generalizing text with
  | nil => exact h
  | cons j js ih =>
    simp only [Writer.joins, bind_eq_ok, pure_eq_ok] at h
    obtain ⟨first, hf, others, ho, rfl⟩ := h
    exact (puts hf).append (ih ho)

/-- The phrase of what rows are ordered by. -/
def Order.phrase : Order → Phrase
  | column c descending => c.phrase ++ if descending then .word " desc" else .word " asc"
  | raw f => .part (.source (.fragment f))

/-- The phrase of the clause that orders rows. -/
def Order.clause (orders : List Order) : Phrase :=
  .clause .orderBy (Phrase.commas (orders.map phrase))

theorem Order.filled_clause (orders : List Order) : (clause orders).Filled := by
  refine Phrase.filled_clause (Phrase.filled_commas_map fun o _ => ?_)
  cases o with
  | column c descending => cases descending <;> simp [phrase]
  | raw f => trivial

theorem Order.puts {o : Order} (h : w.order o = .ok text) : w.Puts o.phrase text := by
  cases o with
  | column c descending =>
    simp only [Writer.order, bind_eq_ok, pure_eq_ok] at h
    obtain ⟨column, hc, rfl⟩ := h
    cases descending with
    | true => exact (Ident.puts hc).closed " desc"
    | false => exact (Ident.puts hc).closed " asc"
  | raw f => exact h

theorem Order.puts_clause {orders : List Order} (h : w.orderBy orders = .ok text) :
    w.Puts (clause orders) text := by
  refine Writer.Puts.clause (k := .orderBy) h ?_ fun inner written => ?_
  · cases orders with
    | nil => rfl
    | cons o os => cases os <;> rfl
  · simp only [bind_eq_ok, pure_eq_ok] at written
    obtain ⟨texts, written, rfl⟩ := written
    exact .commas (Writer.puts_each written fun _ _ => puts)

/-! ## What is selected -/

/-- The phrase of the call of an aggregate function, which may leave out repeated rows. -/
def Aggregate.phrase (a : Aggregate) (distinct : Bool) : Phrase :=
  .part (.verbatim a.function) ++ .word "(" ++ (if distinct then .word "distinct " else .word "") ++
    .joined (Ident.items a.columns) ++ .word ") as " ++ .own "aggregate"

/-- Whether the call of an aggregate function leaves out repeated rows; over all columns it does not. -/
def Aggregate.leavesOut (w : Writer (Except Error)) (a : Aggregate) (distinct : Distinct) : Bool :=
  distinct != .none && (w.columnsOrAll a.columns).toOption != some "*"

theorem Aggregate.filled (a : Aggregate) (distinct : Bool) : (a.phrase distinct).Filled := by
  have columns := Ident.filled_items a.columns
  cases distinct <;> simpa [phrase] using columns

theorem Aggregate.puts {a : Aggregate} {distinct : Distinct}
    (h : w.aggregateCall a distinct = .ok text) :
    w.Puts (a.phrase (a.leavesOut w distinct)) text := by
  simp only [Writer.aggregateCall, bind_eq_ok, pure_eq_ok] at h
  obtain ⟨columns, hc, rfl⟩ := h
  have columns_put := Writer.Puts.joined (Ident.puts_items hc)
  have called : w.Puts (.part (.verbatim a.function) ++ .word "(") (a.function ++ "(") :=
    (Writer.Puts.verbatim _).closed "("
  have leavesOut : a.leavesOut w distinct = (distinct != .none && columns != "*") := by
    rw [leavesOut, hc]
    rfl
  unfold phrase
  rw [leavesOut]
  cases distinct != .none && columns != "*" with
  | true =>
    refine ((((called.closed "distinct ").append columns_put).closed ") as ").append
      (.own "aggregate")).congr ?_
    simp only [String.append_assoc, if_true]
  | false =>
    refine ((((called.closed "").append columns_put).closed ") as ").append
      (.own "aggregate")).congr ?_
    simp only [String.append_assoc, String.empty_append, Bool.false_eq_true, if_false]

/-- The phrase that leaves out repeated rows. -/
def Distinct.phrase : Distinct → Phrase
  | none => .word ""
  | all => .word "distinct "
  | on columns =>
    .list .distinctOn (.word "") (Phrase.commas (columns.map fun c => .part (.name c))) ++ .word ") "

theorem Distinct.filled_iff (x : Distinct) : x.phrase.Filled ↔ x ≠ .on [] := by
  cases x with
  | none | all => simp [phrase]
  | on columns =>
    have names : ∀ p ∈ Phrase.commas (columns.map fun c => .part (.name c)), p.Filled :=
      Phrase.filled_commas_map fun _ _ => trivial
    simpa [phrase] using fun _ => names

theorem Distinct.puts {x : Distinct} (h : w.distinct x = .ok text) : w.Puts x.phrase text := by
  cases x with
  | none | all => exact h
  | on columns =>
    rw [Writer.distinct] at h
    split at h
    · obtain rfl := pure_eq_ok.1 h
      exact (Writer.Puts.behind .distinctOn (.commas (Writer.puts_names columns))).closed ") "
    · cases h

/-! ## Pages, locks and unions -/

namespace Dialect

/-- The phrase of the page that follows `select`. -/
def topPhrase : Dialect → Option UInt64 → Option UInt64 → Phrase
  | sqlServer, some limit, none => .word "top " ++ .number limit ++ .word " "
  | _, _, _ => .word ""

/-- The phrase of a limit and an offset, as far as they are given. -/
def limitThenOffsetPhrase (limit offset : Option Phrase) : Phrase :=
  (match limit with | some n => .word " limit " ++ n | none => .word "") ++
  (match offset with | some n => .word " offset " ++ n | none => .word "")

/-- The phrase of the page at the end of a query. -/
def pagePhrase (d : Dialect) (limit offset : Option UInt64) (ordered : Bool) : Phrase :=
  let limitText := limit.map Phrase.number
  let offsetText := offset.map Phrase.number
  match d, limit, offset with
  | mysql, none, some _ => limitThenOffsetPhrase (some (.word "18446744073709551615")) offsetText
  | sqlite, none, some _ => limitThenOffsetPhrase (some (.word "-1")) offsetText
  | sqlServer, none, none => .word ""
  | sqlServer, _, _ =>
    (if ordered then .word ""
      else
        .list .orderBy (.word "")
          [.word "(" ++ .list .select (.word "") [.word "0"] ++ .word ")"]) ++
      .word " offset " ++ offsetText.getD (.word "0") ++ .word " rows" ++
      (match limitText with
        | some n => .word " fetch next " ++ n ++ .word " rows only"
        | none => .word "")
  | _, _, _ => limitThenOffsetPhrase limitText offsetText

/-- The phrase of the lock at the end of a query. -/
def lockPhrase : Dialect → Lock → Phrase
  | sqlite, _ | sqlServer, _ => .word ""
  | _, .update => .word " for update"
  | mysql, .shared => .word " lock in share mode"
  | postgres, .shared => .word " for share"
  | _, .raw sql => .word " " ++ .part (.verbatim sql)

/-- The phrase of the lock after the table of a query. -/
def hintPhrase : Dialect → Lock → Phrase
  | sqlServer, .update => .word " with(rowlock,updlock,holdlock)"
  | sqlServer, .shared => .word " with(rowlock,holdlock)"
  | sqlServer, .raw sql => .word " " ++ .part (.verbatim sql)
  | _, _ => .word ""

/-- The phrase of a member of a union. -/
def unionPhrase (d : Dialect) (p : Phrase) : Phrase :=
  match d with
  | mysql | postgres => .word "(" ++ p ++ .word ")"
  | sqlite => .list .select (.word "") [.word "*"] ++ .word " from (" ++ p ++ .word ")"
  | sqlServer =>
    .list .select (.word "") [.word "*"] ++ .word " from (" ++ p ++ .word ") as " ++ .own "temp_table"

variable (d : Dialect)

theorem filled_top (limit offset : Option UInt64) : (d.topPhrase limit offset).Filled := by
  unfold topPhrase
  split <;> simp

theorem filled_page (limit offset : Option UInt64) (ordered : Bool) :
    (d.pagePhrase limit offset ordered).Filled := by
  cases d <;> cases limit <;> cases offset <;> cases ordered <;>
    simp [pagePhrase, limitThenOffsetPhrase]

theorem filled_lock (lock : Option Lock) : ((lock.map d.lockPhrase).getD (.word "")).Filled := by
  cases lock with
  | none => trivial
  | some lock => cases d <;> cases lock <;> simp [lockPhrase]

theorem filled_hint (lock : Option Lock) : ((lock.map d.hintPhrase).getD (.word "")).Filled := by
  cases lock with
  | none => trivial
  | some lock => cases d <;> cases lock <;> simp [hintPhrase]

@[simp] theorem filled_union {p : Phrase} : (d.unionPhrase p).Filled ↔ p.Filled := by
  cases d <;> simp [unionPhrase]

theorem puts_top (limit offset : Option UInt64) :
    w.Puts (d.topPhrase limit offset)
      (match d.top limit offset with
        | some top => top ++ " "
        | none => "") := by
  cases d with
  | mysql | postgres | sqlite => exact .word ""
  | sqlServer =>
    cases limit with
    | none => exact .word ""
    | some limit =>
      cases offset with
      | none => exact ((Writer.Puts.number limit).opened "top ").closed " "
      | some offset => exact .word ""

/-- A number that is put as its digits, where it is given. -/
theorem puts_limitThenOffset {limit offset : Option Phrase} {l o : Option String}
    (hl : Option.Rel w.Puts limit l) (ho : Option.Rel w.Puts offset o) :
    w.Puts (limitThenOffsetPhrase limit offset) (limitThenOffset l o) := by
  refine Writer.Puts.append ?_ ?_
  · cases hl with
    | none => exact .word ""
    | some put => exact put.opened " limit "
  · cases ho with
    | none => exact .word ""
    | some put => exact put.opened " offset "

/-- The order without effect. -/
theorem puts_unordered :
    w.Puts
      (.list .orderBy (.word "") [.word "(" ++ .list .select (.word "") [.word "0"] ++ .word ")"])
      " order by (select 0)" := by
  have zero : w.Puts (.list .select (.word "") [.word "0"]) "select 0" :=
    .behind .select (.single (.word "0"))
  exact .behind .orderBy (.single ((zero.opened "(").closed ")"))

theorem puts_page (limit offset : Option UInt64) (ordered : Bool) :
    w.Puts (d.pagePhrase limit offset ordered) (d.limitOffset limit offset ordered) := by
  have numbers (n : Option UInt64) :
      Option.Rel w.Puts (n.map .number) (n.map fun n => toString n.toNat) := by
    cases n with
    | none => exact .none
    | some n => exact .some (.number n)
  have fetched (n : Option UInt64) : w.Puts
      (match n.map Phrase.number with
        | some n => .word " fetch next " ++ n ++ .word " rows only"
        | none => .word "")
      (match n.map fun n => toString n.toNat with
        | some n => " fetch next " ++ n ++ " rows only"
        | none => "") := by
    cases n with
    | none => exact .word ""
    | some n => exact ((Writer.Puts.number n).opened " fetch next ").closed " rows only"
  have order : w.Puts
      (if ordered then .word ""
        else
          .list .orderBy (.word "")
            [.word "(" ++ .list .select (.word "") [.word "0"] ++ .word ")"])
      (if ordered then "" else " order by (select 0)") := by
    cases ordered with
    | true => exact .word ""
    | false => exact puts_unordered
  cases d with
  | postgres => exact puts_limitThenOffset (numbers limit) (numbers offset)
  | mysql | sqlite =>
    -- An offset without a limit is given a word for the limit.
    cases limit with
    | some n => exact puts_limitThenOffset (numbers (some n)) (numbers offset)
    | none =>
      cases offset with
      | none => exact puts_limitThenOffset .none .none
      | some n => exact puts_limitThenOffset (.some (.word _)) (numbers (some n))
  | sqlServer =>
    cases offset with
    | none =>
      cases limit with
      | none => exact .word ""
      | some n =>
        exact (((order.closed " offset ").closed "0").closed " rows").append (fetched (some n))
    | some m =>
      cases limit with
      | none =>
        exact (((order.closed " offset ").append (.number m)).closed " rows").append (fetched none)
      | some n =>
        exact (((order.closed " offset ").append (.number m)).closed " rows").append
          (fetched (some n))

theorem puts_lock (lock : Option Lock) :
    w.Puts ((lock.map d.lockPhrase).getD (.word ""))
      (match lock with
        | some lock => d.lock lock
        | none => "") := by
  cases lock with
  | none => exact .word ""
  | some lock =>
    cases d with
    | sqlite | sqlServer => exact .word ""
    | mysql | postgres =>
      cases lock with
      | update | shared => exact .word _
      | raw sql => exact (Writer.Puts.verbatim sql).opened " "

theorem puts_hint (lock : Option Lock) :
    w.Puts ((lock.map d.hintPhrase).getD (.word ""))
      (match lock.bind d.tableHint with
        | some hint => " " ++ hint
        | none => "") := by
  cases lock with
  | none => exact .word ""
  | some lock =>
    cases d with
    | mysql | postgres | sqlite => exact .word ""
    | sqlServer =>
      cases lock with
      | update | shared => exact .word _
      | raw sql => exact (Writer.Puts.verbatim sql).opened " "

end Dialect

/-- A member of a union is put as the dialect writes it. -/
theorem Writer.Puts.union {p : Phrase} (h : w.Puts p text) :
    w.Puts (w.dialect.unionPhrase p) (w.dialect.wrapUnion text) := by
  have whole : w.Puts (.list .select (.word "") [.word "*"] ++ .word " from (" ++ p)
      ("select * from (" ++ text) :=
    ((behind .select (.single (.word "*"))).closed " from (").append h
  cases same : w.dialect with
  | mysql | postgres => exact (h.opened "(").closed ")"
  | sqlite => exact whole.closed ")"
  | sqlServer =>
    exact (whole.closed ") as ").append ((own "temp_table").congr (by rw [same]))

end SqlFragments
