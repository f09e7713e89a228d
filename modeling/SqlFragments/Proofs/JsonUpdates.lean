import SqlFragments.Proofs.Forms
import SqlFragments.Proofs.JsonPaths

/-!
# Updates of places inside JSON columns

Of an update one assignment is looked at, to a place inside a JSON column. It stands in the text
where it is made, and nothing else of the update depends on it (`Writer.update_around`). So the
update is compared with one that assigns the same value to a whole column instead: it is written or
refused as that is, unless a key is unfit, and the two texts differ in the assignment alone
(`Compiler.json_places_kept`).
-/

namespace SqlFragments

namespace Text

/-- A piece of a list can be exchanged where it stands. -/
theorem separated_around (sep : String) (before after : List String) :
    ∃ head tail, ∀ piece, separated sep (before ++ piece :: after) = head ++ piece ++ tail := by
  induction before with
  | nil =>
    cases after with
    | nil => exact ⟨"", "", fun piece => by simp [separated]⟩
    | cons next after =>
      exact ⟨"", sep ++ separated sep (next :: after), fun piece => by
        simp [separated, String.append_assoc]⟩
  | cons b before ih =>
    obtain ⟨head, tail, around⟩ := ih
    refine ⟨b ++ sep ++ head, tail, fun piece => ?_⟩
    have inner := around piece
    obtain ⟨next, later, pieces⟩ : ∃ next later, before ++ piece :: after = next :: later :=
      List.exists_cons_of_ne_nil (by simp)
    rw [pieces] at inner
    rw [List.cons_append, pieces, separated, inner]
    simp only [String.append_assoc]

end Text

namespace Writer

variable {w : Writer (Except Error)}

/-- Of an update one assignment alone decides what it is refused for, unless something before it or
after it is refused, and it stands in the text where it is made. -/
theorem update_around (w : Writer (Except Error)) (q : Query)
    (before after : List (String × Operand)) :
    let At (entry : String × Operand) (r : Record) := r.entries = before ++ entry :: after
    (∃ e, ∀ entry r, At entry r → w.update q r = .error e) ∨
    (∃ e, ∀ entry r, At entry r →
      w.update q r = (w.assignment entry.1 entry.2).bind fun _ => .error e) ∨
    ∃ head tail, ∀ entry r, At entry r →
      w.update q r = (w.assignment entry.1 entry.2).map fun text => head ++ text ++ tail := by
  intro At
  let opened : Except Error (String × List String) := do
    w.checkMutation q.slots .update
    let table ← w.table q
    let first ← each (fun entry => w.assignment entry.1 entry.2) before
    return (table, first)
  let closed : Except Error (List String × String × String) := do
    let last ← each (fun entry => w.assignment entry.1 entry.2) after
    let joins ← w.joins q.slots.joins
    let tail ← w.mutationTail q.slots
    return (last, joins, tail)
  have expanded : ∀ entry r, At entry r → w.update q r = opened.bind fun x =>
      (w.assignment entry.1 entry.2).bind fun text => closed.bind fun y =>
        .ok ("update " ++ x.1 ++ y.2.1 ++ " set " ++ Text.commaList (x.2 ++ text :: y.1) ++
          y.2.2) := by
    intro entry r here
    have some : r.isEmpty = false := by
      rw [Record.isEmpty, here]
      cases before <;> rfl
    rw [update, some, here, each_append, each]
    change _ = opened >>= fun x => _ >>= fun text => closed >>= fun y => pure _
    simp only [opened, closed, Bool.false_eq_true, if_false, bind_assoc, pure_bind]
  cases front : opened with
  | error e =>
    refine .inl ⟨e, fun entry r here => ?_⟩
    rw [expanded entry r here, front]
    rfl
  | ok x =>
    obtain ⟨table, first⟩ := x
    cases back : closed with
    | error e =>
      refine .inr (.inl ⟨e, fun entry r here => ?_⟩)
      rw [expanded entry r here, front, back]
      rfl
    | ok y =>
      obtain ⟨last, joins, tail⟩ := y
      obtain ⟨head, behind, around⟩ := Text.separated_around ", " first last
      refine .inr (.inr ⟨"update " ++ table ++ joins ++ " set " ++ head, behind ++ tail, ?_⟩)
      intro entry r here
      rw [expanded entry r here, front, back]
      cases w.assignment entry.1 entry.2 with
      | error e => rfl
      | ok text =>
        have assigned := around text
        simp only [Except.bind, Except.map, Text.commaList, assigned, String.append_assoc]

variable {other column : String} {base : List Char} {keys : List (List Char)}

theorem assignment_whole (plain : Text.Arrowless other.toList) (value : Operand) :
    w.assignment other value = (w.operand value).map fun text =>
      w.dialect.wrap other ++ " = " ++ text := by
  rw [assignment, Text.splitArrows_of_arrowless plain]
  rfl

theorem assignment_part (place : Text.Arrows column.toList (base :: keys)) (inside : keys ≠ [])
    (value : Operand) :
    w.assignment column value = (w.operand value).bind fun text =>
      w.dialect.jsonUpdate (w.dialect.wrap (String.ofList base)) (keys.map String.ofList) text := by
  obtain ⟨key, later, rfl⟩ := List.exists_cons_of_ne_nil inside
  rw [assignment, Text.splitArrows_of_arrows place]
  cases w.operand value with
  | error e => rfl
  | ok text =>
    change lift (w.dialect.jsonUpdate _ _ text) = w.dialect.jsonUpdate _ _ text
    cases w.dialect.jsonUpdate _ _ text <;> rfl

/-- Two texts that differ in one assignment: `whole` assigns a value to the column `other`, and `part`
assigns it to a place inside `column`, as is read there. -/
def Places (w : Writer (Except Error)) (other column : String) (keys : List (List Char))
    (value : Operand) (whole part : String) : Prop :=
  ∃ head tail text assigned front path, w.operand value = .ok text ∧
    whole = head ++ (w.dialect.wrap other ++ " = " ++ text) ++ tail ∧
    part = head ++ assigned ++ tail ∧
    w.dialect.ReadsAt (w.dialect.wrap column) front path keys text assigned

/-- What an update of a place comes to where that of a whole column comes to `whole`. -/
inductive Placed (w : Writer (Except Error)) (other column : String) (keys : List (List Char))
    (value : Operand) (whole : Except Error String) : Except Error String → Prop
  | unwritten {e e' : Error} (failed : whole = .error e)
    (same : (∀ key ∈ keys, ¬ Unfit key) → e' = e) : Placed w other column keys value whole (.error e')
  | unfit {text key : String} (written : whole = .ok text) (unfit : ∃ key ∈ keys, Unfit key) :
    Placed w other column keys value whole (.error (.invalid (.jsonKey key)))
  | placed {text text' : String} (written : whole = .ok text) (fit : ∀ key ∈ keys, ¬ Unfit key)
    (places : w.Places other column keys value text text') :
    Placed w other column keys value whole (.ok text')

/-- An assignment to a place is refused as that to a whole column is, or for an unfit key, or is read as
it is meant. -/
theorem assignment_cases (sets : w.dialect = .mysql ∨ w.dialect = .postgres)
    (plain : Text.Arrowless other.toList) (place : Text.Arrows column.toList (base :: keys))
    (inside : keys ≠ []) (value : Operand) :
    (∃ e, w.assignment other value = .error e ∧ w.assignment column value = .error e) ∨
    ∃ text, w.operand value = .ok text ∧
      w.assignment other value = .ok (w.dialect.wrap other ++ " = " ++ text) ∧
      ((∃ key ∈ keys, Unfit key) ∧
          (∃ key, w.assignment column value = .error (.invalid (.jsonKey key))) ∨
        (∀ key ∈ keys, ¬ Unfit key) ∧ ∃ front path assigned,
          w.dialect.ReadsAt (w.dialect.wrap (String.ofList base)) front path keys text assigned ∧
            w.assignment column value = .ok assigned) := by
  rw [assignment_whole plain, assignment_part place inside]
  cases w.operand value with
  | error e => exact .inl ⟨e, rfl, rfl⟩
  | ok text =>
    exact .inr ⟨text, rfl, rfl, Dialect.jsonUpdate_cases sets inside (String.ofList base) text⟩

/-- An update of a place is written as that of a whole column is, unless a key is unfit. -/
theorem placed_update (sets : w.dialect = .mysql ∨ w.dialect = .postgres) (q : Query)
    {whole part : Record} {before after : List (String × Operand)} {value : Operand}
    (plain : Text.Arrowless other.toList) (place : Text.Arrows column.toList (base :: keys))
    (inside : keys ≠ []) (wholly : whole.entries = before ++ (other, value) :: after)
    (partly : part.entries = before ++ (column, value) :: after) :
    w.Placed other (String.ofList base) keys value (w.update q whole) (w.update q part) := by
  have assignments := assignment_cases sets plain place inside value
  rcases update_around w q before after with ⟨e, always⟩ | ⟨e, later⟩ | ⟨head, tail, around⟩
  · rw [always _ whole wholly, always _ part partly]
    exact .unwritten rfl fun _ => rfl
  · rw [later _ whole wholly, later _ part partly]
    rcases assignments with ⟨e', failed, failed'⟩ | ⟨text, -, assigns, unfit | fit⟩
    · rw [failed, failed']
      exact .unwritten rfl fun _ => rfl
    · obtain ⟨⟨key, member, unfit⟩, named, refused⟩ := unfit
      rw [assigns, refused]
      exact .unwritten rfl fun fit => absurd unfit (fit key member)
    · obtain ⟨-, front, path, assigned, -, places⟩ := fit
      rw [assigns, places]
      exact .unwritten rfl fun _ => rfl
  · rw [around _ whole wholly, around _ part partly]
    rcases assignments with ⟨e, failed, failed'⟩ | ⟨text, given, assigns, unfit | fit⟩
    · rw [failed, failed']
      exact .unwritten rfl fun _ => rfl
    · obtain ⟨unfit, named, refused⟩ := unfit
      rw [assigns, refused]
      exact .unfit rfl unfit
    · obtain ⟨fit, front, path, assigned, reads, places⟩ := fit
      rw [assigns, places]
      exact .placed rfl fit ⟨head, tail, text, assigned, front, path, given, rfl, rfl, reads⟩

end Writer

/-! ## Compilations -/

namespace Compiler

/-- An update fails before it is written, whatever columns get its values, or it comes to what is
written. -/
theorem update_came (c : Compiler) (q : Query) (w : Workspace) (es : List Expression) :
    let writer := Writer.reading c.dialect c.context w.tables
    let came (r : Record) := (c.compile q (.update r) w).1
    (∃ e, ∀ r : Record, r.expressions = es →
      (came r).answer = .error e ∧ .collecting ∉ (came r).phases) ∨
    ∀ r : Record, r.expressions = es →
      ((came r).answer.map Compiled.texts = (writer.update q r).bind fun text =>
        (c.judge text (q.updateBindings r).length).map ([·])) ∧
      (.collecting ∈ (came r).phases ↔ ∃ text, writer.update q r = .ok text) := by
  intro writer came
  let resolved := configured (w.tables.lookup c.context) ([q].flatMap Query.expressions ++ es)
  have outcome (r : Record) (given : r.expressions = es) :
      ((came r).answer.map Compiled.texts, (came r).phases) =
        let v := c.settledVerdict (q.updateBindings r).length
          (draftVerdict ([q].findSome? Query.fault) resolved (writer.update q r))
        (v.1.map ([·]), v.2) := by
    subst given
    exact c.compile_outcome q (.update r) w
  have early {r : Record} {e : Error}
      (h : ((came r).answer.map Compiled.texts, (came r).phases) = (.error e, [.configuring])) :
      (came r).answer = .error e ∧ .collecting ∉ (came r).phases := by
    obtain ⟨answer, phases⟩ := Prod.mk.inj h
    refine ⟨map_eq_error.1 answer, ?_⟩
    rw [phases]
    decide
  cases faulty : [q].findSome? Query.fault with
  | some fault =>
    refine .inl ⟨.invalid fault, fun r given => early ?_⟩
    rw [outcome r given, faulty]
    rfl
  | none =>
    cases first : resolved with
    | error e =>
      refine .inl ⟨e, fun r given => early ?_⟩
      rw [outcome r given, faulty, first]
      rfl
    | ok n =>
      refine .inr fun r given => ?_
      have ended := outcome r given
      rw [faulty, first] at ended
      cases written : writer.update q r with
      | error e =>
        rw [written] at ended
        obtain ⟨answer, phases⟩ := Prod.mk.inj ended
        exact ⟨answer, by simp [phases, settledVerdict, draftVerdict]⟩
      | ok text =>
        rw [written, draftVerdict, settledVerdict] at ended
        cases judged : c.judge text (q.updateBindings r).length with
        | error e | ok s =>
          rw [judged] at ended
          obtain ⟨answer, phases⟩ := Prod.mk.inj ended
          exact ⟨by rw [answer, Except.bind, judged], by simp [phases]⟩

/-- A written text fails no validation. -/
theorem judge_ne_invalid (c : Compiler) {sql : String} {bindings : Nat} (fault : Fault) :
    c.judge sql bindings ≠ .error (.invalid fault) := by
  unfold judge
  dsimp only
  split
  · exact nofun
  · cases c.settings.style <;> exact nofun

/-- **Places inside JSON columns are kept, if they can be read.** An update of the place of `keys`
inside a JSON column is compared with one that assigns the same value to a whole column, any other or
the JSON column itself. Where the latter is not written, neither is the former, for the same error if
the keys are fit. Where it is written, the update of the place fails its validation exactly if a key
is unfit; if none is, its text differs in the assignment alone, and the database reads there one
string literal for the path, which ends where it is closed. If the keys are legible the path leads to
exactly these keys, and if not it cannot be read. -/
theorem json_places_kept (c : Compiler) (sets : c.dialect = .mysql ∨ c.dialect = .postgres)
    (q : Query) {whole part : Record} {before after : List (String × Operand)}
    {other column : String} {base : List Char} {keys : List (List Char)} {value : Operand}
    (plain : Text.Arrowless other.toList) (place : Text.Arrows column.toList (base :: keys))
    (inside : keys ≠ []) (wholly : whole.entries = before ++ (other, value) :: after)
    (partly : part.entries = before ++ (column, value) :: after) (w : Workspace) :
    let writer := Writer.reading c.dialect c.context w.tables
    let came := (c.compile q (.update whole) w).1
    let placed := (c.compile q (.update part) w).1
    (.collecting ∉ came.phases → ∃ e, placed.answer = .error e ∧
      ((∀ key ∈ keys, ¬ Unfit key) → came.answer = .error e)) ∧
    (.collecting ∈ came.phases →
      ((∃ fault, placed.answer = .error (.invalid fault)) ↔ ∃ key ∈ keys, Unfit key) ∧
      ((∀ key ∈ keys, ¬ Unfit key) → ∃ text text', writer.update q whole = .ok text ∧
        writer.Places other (String.ofList base) keys value text text' ∧
        placed.answer.map Compiled.texts =
          (c.judge text' (q.updateBindings part).length).map ([·]))) := by
  intro writer came placed
  have same : whole.expressions = part.expressions := by
    simp [Record.expressions, wholly, partly, List.filterMap_append, List.filterMap_cons]
  rcases c.update_came q w part.expressions with ⟨e, early⟩ | late
  · obtain ⟨failed, early'⟩ := early whole same
    refine ⟨fun _ => ⟨e, (early part rfl).1, fun _ => failed⟩, fun collected => ?_⟩
    exact absurd collected early'
  · obtain ⟨answer, collecting⟩ := late whole same
    obtain ⟨answer', -⟩ := late part rfl
    have placing :=
      Writer.placed_update (w := writer) sets q plain place inside wholly partly
    generalize writer.update q part = update at placing answer'
    cases placing with
    | @unwritten e e' failed alike =>
      rw [failed] at answer collecting
      refine ⟨fun _ => ⟨e', map_eq_error.1 answer', fun fit => ?_⟩, fun collected => ?_⟩
      · rw [alike fit]
        exact map_eq_error.1 answer
      · obtain ⟨_, written⟩ := collecting.1 collected
        cases written
    | unfit written unfit =>
      refine ⟨fun unwritten => absurd (collecting.2 ⟨_, written⟩) unwritten, fun _ => ⟨?_, ?_⟩⟩
      · exact ⟨fun _ => unfit, fun _ => ⟨_, map_eq_error.1 answer'⟩⟩
      · intro fit
        obtain ⟨key, member, bad⟩ := unfit
        exact absurd bad (fit key member)
    | @placed text text' written fit places =>
      refine ⟨fun unwritten => absurd (collecting.2 ⟨_, written⟩) unwritten, fun _ => ⟨?_, ?_⟩⟩
      · constructor
        · rintro ⟨fault, invalid⟩
          rw [invalid] at answer'
          exact absurd (map_eq_error.1 answer'.symm) (c.judge_ne_invalid fault)
        · rintro ⟨key, member, bad⟩
          exact absurd bad (fit key member)
      · exact fun _ => ⟨text, text', written, places, answer'⟩

/-- Keys that look like a path are written as keys, and a quote is refused. A line feed is written as
it is, which makes a path of MySQL that it cannot read. -/
theorem json_places_of_odd_keys :
    let one : Operand := .bound (.literal (.int 1))
    let row (column : String) : Record := ⟨[(column, one)], by simp⟩
    let updated (d : Dialect) (column : String) : Run Compiled :=
      (Compiler.compile ⟨{}, d, {}⟩ (.onTable (.name "t")) (.update (row column)) {}).1
    let odd := ["a.b".toList, ",\x7b?\x7d".toList]
    let bad := ["a'b".toList]
    let broken := ["a\nb".toList]
    (Text.Arrows "p->a.b->,\x7b?\x7d".toList ("p".toList :: odd) ∧
      (updated .postgres "p->a.b->,\x7b?\x7d").answer = .ok (.one
        ⟨"update \"t\" set \"p\" = jsonb_set(\"p\"::jsonb, '\x7b\"a.b\",\",\x7b?\x7d\"\x7d', ?)",
          [.int 1]⟩) ∧
      ∃ text text', (Writer.reading .postgres {} {}).Places "p" "p" odd one text text') ∧
    (Text.Arrows "p->a'b".toList ("p".toList :: bad) ∧
      ∃ fault, (updated .postgres "p->a'b").answer = .error (.invalid fault)) ∧
    Text.Arrows "p->a\nb".toList ("p".toList :: broken) ∧
      (updated .mysql "p->a\nb").answer = .ok (.one
        ⟨"update `t` set `p` = json_set(`p`, '$.\"a\nb\"', ?)", [.int 1]⟩) ∧
      Dialect.mysql.pathKeys? "$.\"a\nb\"".toList = none ∧
      ∃ text text', (Writer.reading .mysql {} {}).Places "p" "p" broken one text text' := by
  intro one row updated odd bad broken
  have whole : .collecting ∈ (updated .postgres "p").phases := by decide +kernel
  have whole' : .collecting ∈ (updated .mysql "p").phases := by decide +kernel
  have entries (column : String) : (row column).entries = [] ++ (column, one) :: [] := rfl
  have plain : Text.Arrowless "p".toList := by decide
  have odds : Text.Arrows "p->a.b->,\x7b?\x7d".toList ("p".toList :: odd) :=
    ⟨by decide, by decide, by decide⟩
  have bads : Text.Arrows "p->a'b".toList ("p".toList :: bad) :=
    ⟨by decide, by decide, by decide⟩
  have breaks : Text.Arrows "p->a\nb".toList ("p".toList :: broken) :=
    ⟨by decide, by decide, by decide⟩
  refine ⟨⟨odds, by decide +kernel, ?_⟩, ⟨bads, ?_⟩, breaks, by decide +kernel, by decide, ?_⟩
  · have kept := json_places_kept ⟨{}, .postgres, {}⟩ (.inr rfl) (.onTable (.name "t")) plain odds
      (by decide) (entries "p") (entries "p->a.b->,\x7b?\x7d") {}
    obtain ⟨text, text', -, places, -⟩ := (kept.2 whole).2 (by decide)
    exact ⟨text, text', places⟩
  · have kept := json_places_kept ⟨{}, .postgres, {}⟩ (.inr rfl) (.onTable (.name "t")) plain bads
      (by decide) (entries "p") (entries "p->a'b") {}
    exact (kept.2 whole).1.2 ⟨"a'b".toList, by decide, by decide⟩
  · have kept := json_places_kept ⟨{}, .mysql, {}⟩ (.inl rfl) (.onTable (.name "t")) plain breaks
      (by decide) (entries "p") (entries "p->a\nb") {}
    obtain ⟨text, text', -, places, -⟩ := (kept.2 whole').2 (by decide)
    exact ⟨text, text', places⟩

end Compiler

end SqlFragments
