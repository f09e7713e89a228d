import Mathlib.Data.List.Forall2
import SqlFragments.Proofs.Parts

/-!
# Spelled texts

A text is `Spelled` by sources when it is made of their texts in this order, each with as many
placeholders as its source has bindings, and of words without placeholders between them. The
placeholders of a spelled text, from left to right, are then those of the bindings of its sources in
order; `Spelled.balanced` counts them. Any value is written with the same text, but where a value
can stand an expression can stand as well, which is told by its own text: so the order in which a
writer spells sources is seen from the statements it writes.

A text is `Aligned` with bindings when it is spelled by sources that have exactly these.

A part is `Safe` when it can stand in a statement without changing how the rest is read: a name has
no closing bracket where brackets quote names, an operator and a text taken over verbatim are plain,
and a fragment has one placeholder for each of its bindings and leaves no quote open. What a writer
writes from safe parts is spelled by their sources.
-/

namespace SqlFragments

/-- Work that has come to a result came to one at its first step, and went on from there. -/
theorem bind_eq_ok {α β : Type} {x : Except Error α} {f : α → Except Error β} {b : β} :
    x >>= f = .ok b ↔ ∃ a, x = .ok a ∧ f a = .ok b := by
  constructor
  · intro h
    rcases x with e | a
    · exact nomatch h
    · exact ⟨a, rfl, h⟩
  · rintro ⟨a, rfl, h⟩
    exact h

/-- Work that has failed failed at its first step, or after it. -/
theorem bind_eq_error {α β : Type} {x : Except Error α} {f : α → Except Error β} {e : Error} :
    x >>= f = .error e ↔ x = .error e ∨ ∃ a, x = .ok a ∧ f a = .error e := by
  constructor
  · intro h
    rcases x with e' | a
    · cases h
      exact .inl rfl
    · exact .inr ⟨a, rfl, h⟩
  · rintro (rfl | ⟨a, rfl, h⟩)
    · rfl
    · exact h

/-- A result in another form comes from a result, and an error from the same error. -/
theorem map_eq_ok {α β : Type} {x : Except Error α} {f : α → β} {b : β} :
    x.map f = .ok b ↔ ∃ a, x = .ok a ∧ f a = b := by
  cases x with
  | ok a => simp [Except.map]
  | error e => simp [Except.map]

theorem map_eq_error {α β : Type} {x : Except Error α} {f : α → β} {e : Error} :
    x.map f = .error e ↔ x = .error e := by
  cases x with
  | ok a => simp [Except.map]
  | error e' => simp [Except.map]

theorem pure_eq_ok {α : Type} {a b : α} : (pure a : Except Error α) = .ok b ↔ a = b :=
  ⟨Except.ok.inj, congrArg Except.ok⟩

/-- Texts that are written one after another are written one by one. -/
theorem Writer.forall₂_of_each {α : Type} {f : α → Except Error String} {as : List α}
    {texts : List String} (written : each f as = .ok texts) :
    List.Forall₂ (fun a text => f a = .ok text) as texts := by
  induction as generalizing texts with
  | nil =>
    obtain rfl : [] = texts := pure_eq_ok.1 written
    exact .nil
  | cons a as ih =>
    simp only [each, bind_eq_ok, pure_eq_ok] at written
    obtain ⟨first, hfirst, others, hothers, rfl⟩ := written
    exact .cons hfirst (ih hothers)

/-- The members of a list are written alike when each is. -/
theorem Writer.each_map {α β : Type} {f : β → Except Error String}
    {g : α → Except Error String} {h : α → β} (alike : ∀ a, f (h a) = g a) (as : List α) :
    each f (as.map h) = each g as := by
  induction as with
  | nil => rfl
  | cons a as ih => rw [List.map_cons, each, each, alike, ih]

/-- Lists in a row are written one after the other. -/
theorem Writer.each_append {α : Type} (f : α → Except Error String) (as bs : List α) :
    each f (as ++ bs) = do
      let first ← each f as
      let last ← each f bs
      return first ++ last := by
  induction as with
  | nil =>
    rw [List.nil_append, each]
    cases each f bs <;> rfl
  | cons a as ih =>
    rw [List.cons_append, each, each, ih]
    cases f a with
    | error e => rfl
    | ok first =>
      cases each f as with
      | error e => rfl
      | ok others => cases each f bs <;> rfl

/-- A text made of the texts of sources in order, and of words without placeholders. -/
inductive Spelled (w : Writer (Except Error)) : String → List Source → Prop where
  | words {text : String} (balanced : Quote.Balanced w.dialect.escapesBackslash text.toList 0) :
    Spelled w text []
  | value (b : Binding) : Spelled w "?" [.value b]
  | fragment {f : RawFragment} {text : String} (resolved : w.expression f.expression = .ok text)
    (balanced : Quote.Balanced w.dialect.escapesBackslash text.toList f.bindings.length) :
    Spelled w text [.fragment f]
  | append {s t : String} {ss ts : List Source} (left : Spelled w s ss) (right : Spelled w t ts) :
    Spelled w (s ++ t) (ss ++ ts)

/-- A part that changes nothing about how the rest of a statement is read. -/
def Part.Safe (w : Writer (Except Error)) : Part → Prop
  | name n => w.dialect = .sqlServer → ']' ∉ n.toList
  | operator o => Quote.Plain o.toList
  | verbatim sql => Quote.Plain sql.toList
  | source (.value _) => True
  | source (.fragment f) => ∀ text, w.expression f.expression = .ok text →
    Quote.Balanced w.dialect.escapesBackslash text.toList f.bindings.length

instance (w : Writer (Except Error)) (part : Part) : Decidable (part.Safe w) :=
  match part with
  | .name n => inferInstanceAs (Decidable (w.dialect = .sqlServer → ']' ∉ n.toList))
  | .operator o => inferInstanceAs (Decidable (Quote.Plain o.toList))
  | .verbatim sql => inferInstanceAs (Decidable (Quote.Plain sql.toList))
  | .source (.value _) => .isTrue trivial
  | .source (.fragment f) =>
    match resolved : w.expression f.expression with
    | .ok text =>
      decidable_of_iff (Quote.Balanced w.dialect.escapesBackslash text.toList f.bindings.length)
        ⟨fun balanced _ same => Except.ok.inj (resolved.symm.trans same) ▸ balanced,
          fun safe => safe text resolved⟩
    | .error _ => .isTrue fun _ same => nomatch resolved.symm.trans same

variable {w : Writer (Except Error)} {s t : String} {ss ts : List Source}

namespace Spelled

/-- A spelled text ends outside quotes and has one placeholder for each binding. -/
theorem balanced (h : Spelled w s ss) :
    Quote.Balanced w.dialect.escapesBackslash s.toList (ss.flatMap Source.bindings).length := by
  induction h with
  | words balanced => exact balanced
  | value b =>
    constructor
    · cases w.dialect.escapesBackslash <;> decide
    · cases w.dialect.escapesBackslash <;> rfl
  | fragment resolved balanced => simpa [Source.bindings] using balanced
  | append left right ihl ihr => simpa using ihl.append ihr

/-- There is one placeholder for each binding of the sources. -/
theorem count_eq (h : Spelled w s ss) :
    countPlaceholders w.dialect.escapesBackslash s = (ss.flatMap Source.bindings).length :=
  h.balanced.counts

theorem plain (h : Quote.Plain s.toList) : Spelled w s [] := .words (.of_plain h)

/-- A word of the language is spelled by nothing. -/
theorem word (text : String) (h : text.toList.all Quote.isPlain = true) : Spelled w text [] :=
  plain (Quote.plain_of_all h)

theorem followed (h : Spelled w s ss) (words : Spelled w t []) : Spelled w (s ++ t) ss := by
  simpa using h.append words

theorem preceded (h : Spelled w t ss) (words : Spelled w s []) : Spelled w (s ++ t) ss := by
  simpa using words.append h

/-- A word in front. -/
theorem opened (h : Spelled w t ss) (s : String) (plain : s.toList.all Quote.isPlain = true) :
    Spelled w (s ++ t) ss :=
  h.preceded (word s plain)

/-- A word at the end. -/
theorem closed (h : Spelled w s ss) (t : String) (plain : t.toList.all Quote.isPlain = true) :
    Spelled w (s ++ t) ss :=
  h.followed (word t plain)

/-- Spelled texts in a row, with words between neighbours. -/
theorem separated {sep : String} (between : Spelled w sep []) {texts : List String}
    {sources : List (List Source)} (h : List.Forall₂ (Spelled w) texts sources) :
    Spelled w (Text.separated sep texts) sources.flatten := by
  induction h with
  | nil => exact .words .nil
  | @cons text ss texts sources first rest ih =>
    cases rest with
    | nil => simpa [Text.separated] using first
    | cons second rest => exact (first.followed between).append ih

theorem commaList {texts : List String} {sources : List (List Source)}
    (h : List.Forall₂ (Spelled w) texts sources) :
    Spelled w (Text.commaList texts) sources.flatten :=
  separated (word ", " rfl) h

/-- The texts that a writer writes one after another are spelled one by one. -/
theorem each {α : Type} {f : α → Except Error String} {src : α → List Source} {as : List α}
    {texts : List String} (written : Writer.each f as = .ok texts)
    (h : ∀ a ∈ as, ∀ text, f a = .ok text → Spelled w text (src a)) :
    List.Forall₂ (Spelled w) texts (as.map src) := by
  have one := Writer.forall₂_of_each written
  clear written
  induction one with
  | nil => exact .nil
  | cons first _ ih =>
    exact .cons (h _ List.mem_cons_self _ first) (ih fun b hb => h b (List.mem_cons_of_mem _ hb))

end Spelled

/-- A text spelled by sources that have exactly the given bindings. -/
structure Aligned (w : Writer (Except Error)) (text : String) (sources : List Source)
    (bindings : List Binding) : Prop where
  spelled : Spelled w text sources
  brought : sources.flatMap Source.bindings = bindings

namespace Aligned

variable {bs cs : List Binding}

theorem of_parts {ps : List Part} (h : Spelled w s (sources ps))
    (same : SqlFragments.brought ps = bs) : Aligned w s (sources ps) bs :=
  ⟨h, same⟩

theorem count_eq (h : Aligned w s ss bs) :
    countPlaceholders w.dialect.escapesBackslash s = bs.length := by
  rw [h.spelled.count_eq, h.brought]

theorem append (h : Aligned w s ss bs) (h' : Aligned w t ts cs) :
    Aligned w (s ++ t) (ss ++ ts) (bs ++ cs) where
  spelled := h.spelled.append h'.spelled
  brought := by rw [List.flatMap_append, h.brought, h'.brought]

theorem followed (h : Aligned w s ss bs) (words : Spelled w t []) : Aligned w (s ++ t) ss bs :=
  ⟨h.spelled.followed words, h.brought⟩

theorem preceded (h : Aligned w t ss bs) (words : Spelled w s []) : Aligned w (s ++ t) ss bs :=
  ⟨h.spelled.preceded words, h.brought⟩

theorem opened (h : Aligned w t ss bs) (s : String) (plain : s.toList.all Quote.isPlain = true) :
    Aligned w (s ++ t) ss bs :=
  h.preceded (.word s plain)

theorem closed (h : Aligned w s ss bs) (t : String) (plain : t.toList.all Quote.isPlain = true) :
    Aligned w (s ++ t) ss bs :=
  h.followed (.word t plain)

theorem empty : Aligned w "" [] [] := ⟨.word "" rfl, rfl⟩

/-- A clause that is left out where there is nothing to write is aligned either way. -/
theorem clause {keyword text : String} {written : Except Error String} {present : Bool}
    (h : Writer.clause present keyword written = .ok text) (words : Spelled w keyword [])
    (absent : present = false → ss = [] ∧ bs = [])
    (aligned : ∀ inner, written = .ok inner → Aligned w inner ss bs) : Aligned w text ss bs := by
  cases present with
  | false =>
    obtain rfl : "" = text := pure_eq_ok.1 h
    obtain ⟨rfl, rfl⟩ := absent rfl
    exact empty
  | true =>
    simp only [Writer.clause, if_true, bind_eq_ok, pure_eq_ok] at h
    obtain ⟨inner, hinner, rfl⟩ := h
    exact (aligned inner hinner).preceded words

/-- A clause that writes a list. -/
theorem listClause {α : Type} {as : List α} {keyword text : String}
    {written : Except Error String} (h : Writer.clause (!as.isEmpty) keyword written = .ok text)
    (words : Spelled w keyword []) (absent : as = [] → ss = [] ∧ bs = [])
    (aligned : ∀ inner, written = .ok inner → Aligned w inner ss bs) : Aligned w text ss bs :=
  clause h words (fun none => absent (by simpa using none)) aligned

theorem congr (h : Aligned w s ss bs) (hs : ss = ts) (hb : bs = cs) : Aligned w s ts cs := by
  subst hs
  subst hb
  exact h

end Aligned

theorem Part.Safe.operator_spelled {o : String} (h : (Part.operator o).Safe w) : Spelled w o [] :=
  .plain h

theorem Part.Safe.name_spelled {n : String} (h : (Part.name n).Safe w) :
    Spelled w (w.dialect.wrap n) [] :=
  .words (Dialect.inert_wrap_of_no_bracket h).counted

/-- Names with commas between them. -/
theorem Spelled.names {names : List String} (h : ∀ n ∈ names, (Part.name n).Safe w) :
    Spelled w (Text.commaList (names.map w.dialect.wrap)) [] := by
  have each : List.Forall₂ (Spelled w) (names.map w.dialect.wrap) (names.map fun _ => []) := by
    induction names with
    | nil => exact .nil
    | cons n ns ih =>
      exact .cons (h n List.mem_cons_self).name_spelled
        (ih fun m hm => h m (List.mem_cons_of_mem n hm))
  simpa using Spelled.commaList each

/-- A name that the dialect itself chooses. -/
theorem Spelled.own_name {n : String} (h : ']' ∉ n.toList) : Spelled w (w.dialect.quote n) [] :=
  .words (Dialect.inert_quote_of_no_bracket fun _ => h).counted

theorem Spelled.number (n : Nat) : Spelled w (toString n) [] := .plain (Quote.plain_natText n)

theorem Ident.spelled {i : Ident} (safe : ∀ p ∈ i.parts, p.Safe w) {text : String}
    (h : w.ident i = .ok text) : Spelled w text (sources i.parts) := by
  cases i with
  | name n =>
    obtain rfl : w.dialect.wrap n = text := pure_eq_ok.1 h
    exact (safe (.name n) List.mem_cons_self).name_spelled
  | raw f => exact .fragment h (safe (.source (.fragment f)) List.mem_cons_self text h)

theorem Operand.spelled {o : Operand} (safe : ∀ p ∈ o.parts, p.Safe w) {text : String}
    (h : w.operand o = .ok text) : Spelled w text (sources o.parts) := by
  cases o with
  | bound b =>
    obtain rfl : "?" = text := pure_eq_ok.1 h
    exact .value b
  | inline e =>
    exact .fragment (f := ⟨e, []⟩) h (safe (.source (.fragment ⟨e, []⟩)) List.mem_cons_self text h)

/-- Columns with commas between them. -/
theorem Ident.columns_spelled {cs : List Ident} (safe : ∀ p ∈ cs.flatMap Ident.parts, p.Safe w)
    {text : String} (h : w.columns cs = .ok text) :
    Spelled w text (sources (cs.flatMap Ident.parts)) := by
  simp only [Writer.columns, bind_eq_ok, pure_eq_ok] at h
  obtain ⟨texts, written, rfl⟩ := h
  rw [sources_flatMap, List.flatMap_def]
  exact .commaList (Spelled.each written fun c hc text ht =>
    Ident.spelled (fun p hp => safe p (List.mem_flatMap.2 ⟨c, hc, hp⟩)) ht)

end SqlFragments
