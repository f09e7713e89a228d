import SqlFragments.Proofs.Building
import SqlFragments.Proofs.Spelling

/-!
# Pages in the text of a query

A `PageMark` is a limit or an offset as it stands in a text: a keyword and a number. A text `Shows`
marks when they stand in it one after another, and each number ends where its mark ends. Numbering
the placeholders of a text leaves its marks (`Shows.numbered`).

`Query.pageMarks` are the marks of all limits and offsets of a query that is read: of its own page,
of its members' at any depth, and of the page of the whole. The text that a writer writes for the
query shows them all (`Query.shows`).
-/

namespace SqlFragments

/-! ## Marks -/

/-- The keyword before a number that belongs to a page. -/
inductive PageKeyword where
  | limit
  | offset
  | fetch
  | top
  deriving DecidableEq, Repr

/-- The keyword in words. -/
def PageKeyword.word : PageKeyword → String
  | limit => " limit "
  | offset => " offset "
  | fetch => " fetch next "
  | top => "top "

/-- A limit or an offset in a text. -/
structure PageMark where
  keyword : PageKeyword
  number : UInt64
  deriving DecidableEq, Repr

/-- The mark as it stands in a text. -/
def PageMark.text (m : PageMark) : String := m.keyword.word ++ toString m.number.toNat

theorem PageMark.plain_text (m : PageMark) : Quote.Plain m.text.toList := by
  rw [text, String.toList_append, Quote.plain_append_iff]
  refine ⟨?_, Quote.plain_natText _⟩
  cases m.keyword <;> decide

/-- The text does not begin with a digit, so a number before it ends there. -/
def EndsNumber (text : String) : Prop := ∀ c ∈ text.toList.head?, c.isDigit = false

namespace EndsNumber

variable {s t : String}

theorem append (left : EndsNumber s) (right : EndsNumber t) : EndsNumber (s ++ t) := by
  intro c first
  rw [String.toList_append, List.head?_append, Option.mem_def, Option.or_eq_some_iff] at first
  rcases first with first | ⟨-, first⟩
  · exact left c first
  · exact right c first

/-- What follows a character that is not a digit does not matter. -/
theorem opened {c : Char} (head : s.toList.head? = some c) (other : c.isDigit = false)
    (t : String) : EndsNumber (s ++ t) := by
  intro d first
  rw [String.toList_append, List.head?_append, head, Option.some_or] at first
  cases first
  exact other

theorem of_head {c : Char} (head : s.toList.head? = some c) (other : c.isDigit = false) :
    EndsNumber s := by
  simpa using opened head other ""

theorem empty : EndsNumber "" := fun _ first => nomatch first

/-- Numbering the placeholders of a text leaves what it begins with, or puts a dollar sign there. -/
theorem numbered (h : EndsNumber t) (q : Quote) (next : Nat) :
    EndsNumber (String.ofList (q.number false next t.toList)) := by
  intro c first
  rw [String.toList_ofList] at first
  cases read : t.toList with
  | nil =>
    rw [read] at first
    cases first
  | cons d ds =>
    rw [read, Quote.number] at first
    split at first
    · cases first
      rfl
    · cases first
      exact h _ (by rw [read]; rfl)

end EndsNumber

/-- The marks stand in the text in this order, and their numbers end where they end. -/
inductive Shows : List PageMark → String → Prop where
  | none (text : String) : Shows [] text
  | next {ms : List PageMark} {rest : String} (before : String) (m : PageMark)
    (ends : EndsNumber rest) (later : Shows ms rest) : Shows (m :: ms) (before ++ m.text ++ rest)

namespace Shows

variable {ms ns : List PageMark} {s t : String}

/-- A text in front changes nothing. -/
theorem preceded (h : Shows ms t) (s : String) : Shows ms (s ++ t) := by
  cases h with
  | none => exact .none _
  | next before m ends later =>
    simp only [← String.append_assoc]
    exact .next (s ++ before) m ends later

/-- A text that does not begin with a digit may come behind. -/
theorem append (left : Shows ms s) (ends : EndsNumber t) (right : Shows ns t) :
    Shows (ms ++ ns) (s ++ t) := by
  induction left with
  | none text => exact right.preceded text
  | next before m apart _ ih =>
    rw [String.append_assoc]
    exact .next before m (apart.append ends) ih

theorem followed (h : Shows ms s) (ends : EndsNumber t) : Shows ms (s ++ t) := by
  simpa using h.append ends (.none t)

theorem alone (m : PageMark) : Shows [m] m.text := by
  simpa using Shows.next "" m .empty (.none "")

/-- Numbering the placeholders of a text leaves its marks. -/
theorem numbered (h : Shows ms t) : Shows ms (numberPlaceholders t) := by
  suffices reading : ∀ (q : Quote) (next : Nat),
      Shows ms (String.ofList (q.number false next t.toList)) from reading .outside 1
  induction h with
  | none text => exact fun _ _ => .none _
  | @next ms rest before m ends _ ih =>
    intro q next
    -- The mark is read from wherever the text before it ends, and is numbered as it is.
    have kept (q : Quote) (next : Nat) : q.number false next m.text.toList = m.text.toList :=
      Quote.number_of_count_eq_zero next (Quote.count_of_plain q m.plain_text)
    simp only [String.toList_append, Quote.number_append, kept, String.ofList_append,
      String.ofList_toList]
    exact .next _ m (ends.numbered _ _) (ih _ _)

end Shows

/-! ## The marks of a query -/

/-- The marks of a page. On SQL Server a limit without an offset follows `select`, where it may. -/
def Paging.marks (d : Dialect) (leading : Bool) (p : Paging) : List PageMark :=
  let offset := p.offset.toList.map (PageMark.mk .offset)
  match d with
  | .sqlServer =>
    let keyword := if leading && p.offset.isNone then PageKeyword.top else .fetch
    offset ++ p.limit.toList.map (PageMark.mk keyword)
  | _ => p.limit.toList.map (PageMark.mk .limit) ++ offset

namespace Query

mutual

/-- The marks of a query that is read, in the order of its text. The page of a query whose rows an
aggregate takes in does not follow `select`. -/
def pageMarks (d : Dialect) : Query → List PageMark
  | ⟨slots, unions, _, _⟩ =>
    slots.page.marks d (!unions.isEmpty || slots.aggregate.isNone) ++ memberMarks d unions ++
      slots.combined.marks d false

/-- The marks of united queries. -/
def memberMarks (d : Dialect) : List (Bool × Query) → List PageMark
  | [] => []
  | (_, q) :: rest => q.pageMarks d ++ memberMarks d rest

end

end Query

/-! ## What a dialect writes -/

namespace Dialect

/-- A part of a page, if it is there, with its keyword. -/
theorem shows_part (k : PageKeyword) (n : Option UInt64) :
    Shows (n.toList.map (PageMark.mk k))
      (match n.map fun n => toString n.toNat with | some text => k.word ++ text | none => "") := by
  cases n with
  | none => exact .none ""
  | some n => exact .alone ⟨k, n⟩

theorem endsNumber_part (k : PageKeyword) (blank : k.word.toList.head? = some ' ')
    (part : Option String) :
    EndsNumber (match part with | some text => k.word ++ text | none => "") := by
  cases part with
  | none => exact .empty
  | some text => exact .opened blank rfl text

theorem shows_limitThenOffset (limit offset : Option UInt64) :
    Shows (limit.toList.map (PageMark.mk .limit) ++ offset.toList.map (PageMark.mk .offset))
      (limitThenOffset (limit.map fun n => toString n.toNat)
        (offset.map fun n => toString n.toNat)) :=
  (shows_part .limit limit).append (endsNumber_part .offset rfl _) (shows_part .offset offset)

/-- The page at the end of a query shows its marks. -/
theorem shows_limitOffset (d : Dialect) (p : Paging) (ordered : Bool) :
    Shows (p.marks d false) (d.limitOffset p.limit p.offset ordered) := by
  obtain ⟨orders, limit, offset⟩ := p
  cases d with
  | postgres => exact shows_limitThenOffset limit offset
  | mysql =>
    cases limit <;> cases offset
    case none.some offset =>
      exact (shows_part .offset (some offset)).preceded " limit 18446744073709551615"
    all_goals exact shows_limitThenOffset _ _
  | sqlite =>
    cases limit <;> cases offset
    case none.some offset => exact (shows_part .offset (some offset)).preceded " limit -1"
    all_goals exact shows_limitThenOffset _ _
  | sqlServer =>
    -- A limit of its own is written after an offset of zero.
    have fetched (limit : Option UInt64) : Shows (limit.toList.map (PageMark.mk .fetch))
        (match limit.map fun n => toString n.toNat with
          | some n => " fetch next " ++ n ++ " rows only"
          | none => "") := by
      cases limit with
      | none => exact .none ""
      | some n => exact (Shows.alone ⟨.fetch, n⟩).followed (.of_head (c := ' ') rfl rfl)
    let front := if ordered then "" else " order by (select 0)"
    cases offset with
    | none =>
      cases limit with
      | none => exact .none ""
      | some limit =>
        exact (fetched (some limit)).preceded (front ++ " offset " ++ "0" ++ " rows")
    | some offset =>
      have rows := (fetched limit).preceded " rows"
      have whole := Shows.next front ⟨.offset, offset⟩ (.opened (c := ' ') rfl rfl _) rows
      simp only [PageMark.text, PageKeyword.word, ← String.append_assoc] at whole
      cases limit <;> exact whole

/-- What follows `select` is a limit without an offset, or the page stays at the end. -/
theorem top_cases (d : Dialect) (p : Paging) :
    (d.top p.limit p.offset = none ∧ p.marks d true = p.marks d false) ∨
    ∃ n, d.top p.limit p.offset = some (PageMark.mk .top n).text ∧
      p.marks d true = [⟨.top, n⟩] := by
  obtain ⟨orders, limit, offset⟩ := p
  cases d with
  | mysql | postgres | sqlite => exact .inl ⟨rfl, rfl⟩
  | sqlServer =>
    cases limit with
    | none => exact .inl ⟨rfl, rfl⟩
    | some n =>
      cases offset with
      | none => exact .inr ⟨n, rfl, rfl⟩
      | some k => exact .inl ⟨rfl, rfl⟩

/-- The page at the end of a query begins with a blank, if it is there. -/
theorem endsNumber_limitOffset (d : Dialect) (limit offset : Option UInt64) (ordered : Bool) :
    EndsNumber (d.limitOffset limit offset ordered) := by
  have counted (limit offset : Option String) : EndsNumber (limitThenOffset limit offset) :=
    (endsNumber_part .limit rfl limit).append (endsNumber_part .offset rfl offset)
  have paged (offset fetch : String) : EndsNumber
      ((if ordered then "" else " order by (select 0)") ++ " offset " ++ offset ++ " rows" ++
        fetch) := by
    simp only [String.append_assoc]
    refine .append ?_ (.opened (c := ' ') rfl rfl _)
    cases ordered with
    | true => exact .empty
    | false => exact .of_head (c := ' ') rfl rfl
  cases d with
  | mysql | postgres | sqlite => cases limit <;> cases offset <;> exact counted _ _
  | sqlServer =>
    cases limit <;> cases offset
    case none.none => exact .empty
    all_goals
      unfold limitOffset
      exact paged _ _

theorem endsNumber_lock (d : Dialect) (lock : Lock) : EndsNumber (d.lock lock) := by
  cases d with
  | sqlite | sqlServer => exact .empty
  | mysql | postgres =>
    cases lock with
    | update | shared => exact .of_head (c := ' ') rfl rfl
    | raw sql => exact .opened (c := ' ') rfl rfl sql

/-- A quoted name begins with its quote. -/
theorem endsNumber_quote (d : Dialect) (name : String) : EndsNumber (d.quote name) := by
  have opening : (d.quote name).toList.head? = some d.opening := by
    rw [quote_chars]
    rfl
  refine .of_head opening ?_
  cases d <;> rfl

end Dialect

theorem Shows.wrapUnion {ms : List PageMark} {text : String} (h : Shows ms text) (d : Dialect) :
    Shows ms (d.wrapUnion text) := by
  have parenthesis : EndsNumber ")" := .of_head (c := ')') rfl rfl
  cases d with
  | mysql | postgres => exact (h.preceded "(").followed parenthesis
  | sqlite => exact (h.preceded "select * from (").followed parenthesis
  | sqlServer =>
    have inner := (h.preceded "select * from (").followed (t := ") as ")
      (.of_head (c := ')') rfl rfl)
    exact inner.followed (Dialect.sqlServer.endsNumber_quote _)

/-! ## What a writer writes -/

section Writers

variable {w : Writer (Except Error)} {text : String}

theorem Writer.endsNumber_clause {present : Bool} {keyword : String} {x : Except Error String}
    (blank : keyword.toList.head? = some ' ') (h : clause present keyword x = .ok text) :
    EndsNumber text := by
  unfold clause at h
  split at h
  · simp only [bind_eq_ok, pure_eq_ok] at h
    obtain ⟨t, -, rfl⟩ := h
    exact .opened blank rfl t
  · cases h
    exact .empty

theorem Writer.endsNumber_members {us : List (Bool × Query)} (h : w.members us = .ok text) :
    EndsNumber text := by
  cases us with
  | nil =>
    cases h
    exact .empty
  | cons u us =>
    obtain ⟨all, q⟩ := u
    simp only [Writer.members, bind_eq_ok, pure_eq_ok] at h
    obtain ⟨first, -, others, -, rfl⟩ := h
    rw [String.append_assoc]
    cases all with
    | true => exact .opened (c := ' ') rfl rfl _
    | false => exact .opened (c := ' ') rfl rfl _

/-- A page follows `select` with its mark, or is left for the end of the query. -/
theorem Writer.selected_cases {s : Slots} {aggregated : Bool} {limit : Option UInt64}
    (h : w.selected s aggregated = .ok (text, limit)) :
    (limit = s.page.limit ∧
      s.page.marks w.dialect (!aggregated || s.aggregate.isNone) = s.page.marks w.dialect false) ∨
    ∃ (n : UInt64) (rest : String),
      s.page.marks w.dialect (!aggregated || s.aggregate.isNone) = [⟨.top, n⟩] ∧
        text = (PageMark.mk .top n).text ++ (" " ++ rest) := by
  have rows (plain : (do
      let selection ← w.selection s
      let onTop := (w.dialect.top s.page.limit s.page.offset).isSome
      return (selection, if onTop then none else s.page.limit)) = Except.ok (text, limit)) :
      (limit = s.page.limit ∧ s.page.marks w.dialect true = s.page.marks w.dialect false) ∨
      ∃ (n : UInt64) (rest : String), s.page.marks w.dialect true = [⟨.top, n⟩] ∧
        text = (PageMark.mk .top n).text ++ (" " ++ rest) := by
    simp only [selection, bind_eq_ok, pure_eq_ok, Prod.mk.injEq] at plain
    obtain ⟨_, ⟨distinct, -, columns, -, rfl⟩, rfl, rfl⟩ := plain
    rcases w.dialect.top_cases s.page with ⟨ended, same⟩ | ⟨n, leads, same⟩
    · rw [ended]
      exact .inl ⟨rfl, same⟩
    · rw [leads]
      exact .inr ⟨n, distinct ++ columns, same, by simp only [String.append_assoc]⟩
  unfold selected at h
  cases aggregated with
  | false =>
    cases aggregate : s.aggregate <;> rw [aggregate] at h <;> exact rows h
  | true =>
    cases aggregate : s.aggregate with
    | none =>
      rw [aggregate] at h
      exact rows h
    | some a =>
      rw [aggregate] at h
      simp only [bind_eq_ok, pure_eq_ok, Prod.mk.injEq] at h
      obtain ⟨call, -, -, rfl⟩ := h
      exact .inl ⟨rfl, rfl⟩

/-- A query without what it is united with shows the marks of its page. -/
theorem Slots.shows {s : Slots} {aggregated : Bool} (h : w.components s aggregated = .ok text) :
    Shows (s.page.marks w.dialect (!aggregated || s.aggregate.isNone)) text := by
  simp only [Writer.components, bind_eq_ok, pure_eq_ok] at h
  obtain ⟨⟨selected, limit⟩, chosen, source, -, joins, -, wheres, -, groups, -, havings, -, orders,
    -, rfl⟩ := h
  dsimp only
  rcases Writer.selected_cases chosen with ⟨rfl, same⟩ | ⟨n, rest, same, rfl⟩
  · rw [same]
    refine ((w.dialect.shows_limitOffset s.page _).preceded _).followed ?_
    cases s.lock with
    | none => exact .empty
    | some lock => exact w.dialect.endsNumber_lock lock
  · rw [same]
    simp only [String.append_assoc]
    exact .next "select " ⟨.top, n⟩ (.opened (c := ' ') rfl rfl _) (.none _)

namespace Query

mutual

/-- **Marks of a query.** A query is written with the marks of all its pages. -/
theorem shows : ∀ q : Query, q.WellFormed → ∀ {text : String}, w.select q = .ok text →
    Shows (q.pageMarks w.dialect) text
  | ⟨slots, [], _, _⟩, formed, _, h => by
    have alone : slots.combined = {} := formed.whole rfl
    rw [Writer.select] at h
    rw [pageMarks, memberMarks, alone, List.append_nil]
    -- Of nothing there is no mark in any dialect.
    have nothing : ({} : Paging).marks w.dialect false = [] := by cases w.dialect <;> rfl
    rw [nothing, List.append_nil]
    exact slots.shows h
  | ⟨slots, u :: us, _, _⟩, formed, _, h => by
    simp only [Writer.select, bind_eq_ok] at h
    obtain ⟨first, written, others, united, orders, ordered, closed⟩ := h
    have members := memberShows (u :: us) formed.members united
    have page := w.dialect.shows_limitOffset slots.combined (!slots.combined.orders.isEmpty)
    have queries := ((Slots.shows written).wrapUnion w.dialect).append
      (Writer.endsNumber_members united) members
    have whole := (queries.followed (Writer.endsNumber_clause rfl ordered)).append
      (w.dialect.endsNumber_limitOffset _ _ _) page
    rw [pageMarks]
    split at closed
    · simp only [bind_eq_ok, pure_eq_ok] at closed
      obtain ⟨call, -, rfl⟩ := closed
      have inner := (whole.preceded ("select " ++ call ++ " from (")).followed (t := ") as ")
        (.of_head (c := ')') rfl rfl)
      exact inner.followed (w.dialect.endsNumber_quote _)
    · obtain rfl := pure_eq_ok.1 closed
      exact whole

theorem memberShows : ∀ us : List (Bool × Query), (∀ u ∈ us, u.2.WellFormed) → ∀ {text : String},
    w.members us = .ok text → Shows (memberMarks w.dialect us) text
  | [], _, text, _ => .none text
  | (all, q) :: rest, formed, _, h => by
    simp only [Writer.members, bind_eq_ok, pure_eq_ok] at h
    obtain ⟨first, written, others, later, rfl⟩ := h
    rw [List.forall_mem_cons] at formed
    have own := ((shows q formed.1 written).wrapUnion w.dialect).preceded
      (if all then " union all " else " union ")
    exact own.append (Writer.endsNumber_members later) (memberShows rest formed.2 later)

end

/-- The question whether a query has rows shows the marks of the query. -/
theorem hasRows_shows {q : Query} (formed : q.WellFormed) (h : w.hasRows q = .ok text) :
    Shows (q.pageMarks w.dialect) text := by
  simp only [Writer.hasRows, bind_eq_ok, pure_eq_ok] at h
  obtain ⟨read, written, rfl⟩ := h
  have inner := q.shows formed written
  have asked (front : String) {back : String} (head : back.toList.head? = some ')') :
      Shows (q.pageMarks w.dialect) (front ++ read ++ back ++ w.dialect.quote "exists") :=
    ((inner.preceded front).followed (.of_head head rfl)).followed (w.dialect.endsNumber_quote _)
  unfold Dialect.hasRows
  split
  · exact asked _ rfl
  · exact asked _ rfl

end Query

/-- The mark of a limit alone, as a statement shows it that changes rows. -/
def Paging.limitMarks (d : Dialect) (p : Paging) : List PageMark :=
  ({ limit := p.limit } : Paging).marks d false

/-- A limit is not passed over where the dialect has none. -/
theorem Slots.checkMutation_limited {s : Slots} (mutation : Mutation)
    (limited : s.page.limit.isSome = true) (lacking : w.dialect.allowsJoinedMutation = false) :
    w.checkMutation s mutation = .error (w.dialect.lacks (.joined mutation)) ∨
      w.checkMutation s mutation = .error (w.dialect.lacks (.paged mutation)) := by
  unfold Writer.checkMutation
  simp only [lacking, limited, Bool.or_true, if_true, Bool.false_eq_true, if_false]
  split
  · exact .inl rfl
  · exact .inr rfl

/-- A limit is written where rows are changed up to one, or the change is refused. -/
theorem Slots.limit_shows {s : Slots} {mutation : Mutation} {u : Unit}
    (checked : w.checkMutation s mutation = .ok u) (h : w.mutationTail s = .ok text) :
    Shows (s.page.limitMarks w.dialect) text := by
  simp only [Writer.mutationTail, bind_eq_ok, pure_eq_ok] at h
  obtain ⟨wheres, -, orders, -, rfl⟩ := h
  cases limited : s.page.limit with
  | none =>
    rw [Paging.limitMarks, limited]
    cases w.dialect <;> exact .none _
  | some n =>
    have allowed : w.dialect.allowsJoinedMutation = true := by
      by_contra lacking
      have limited : s.page.limit.isSome = true := by rw [limited]; rfl
      rcases Slots.checkMutation_limited mutation limited (Bool.eq_false_iff.2 lacking) with
        refused | refused
      all_goals cases checked.symm.trans refused
    rw [Paging.limitMarks, limited]
    cases dialect : w.dialect with
    | mysql => exact (Shows.alone ⟨.limit, n⟩).preceded (wheres ++ orders)
    | postgres | sqlite | sqlServer =>
      rw [dialect] at allowed
      cases allowed

end Writers

end SqlFragments
