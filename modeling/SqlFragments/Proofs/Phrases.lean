import Mathlib.Data.List.Infix
import SqlFragments.Proofs.Forms

/-!
# Statements as phrases

A `Phrase` is a statement before it is text: fixed words, the parts that slots bring, and lists behind
the keywords that need one. The fixed words have none of these keywords in them (`Listless`), so a phrase
shows each of them, with the items of its list. It is `Filled` if every list has an item.

`Writer.put` turns phrases into text.
-/

namespace SqlFragments

/-- The keywords behind which a statement has a list. -/
inductive ListKeyword where
  | select
  | distinctOn
  | on
  | filter
  | groupBy
  | having
  | orderBy
  | set
  | among
  | conflict
  | update
  | duplicate

namespace ListKeyword

/-- The keyword as it is written. -/
def word : ListKeyword → String
  | select => "select "
  | distinctOn => "distinct on ("
  | on => " on "
  | filter => " where "
  | groupBy => " group by "
  | having => " having "
  | orderBy => " order by "
  | set => " set "
  | among => " in ("
  | conflict => " on conflict ("
  | update => " do update set "
  | duplicate => " on duplicate key update "

/-- The characters of the keyword. -/
def chars : ListKeyword → List Char
  | select => ['s', 'e', 'l', 'e', 'c', 't', ' ']
  | distinctOn => ['d', 'i', 's', 't', 'i', 'n', 'c', 't', ' ', 'o', 'n', ' ', '(']
  | on => [' ', 'o', 'n', ' ']
  | filter => [' ', 'w', 'h', 'e', 'r', 'e', ' ']
  | groupBy => [' ', 'g', 'r', 'o', 'u', 'p', ' ', 'b', 'y', ' ']
  | having => [' ', 'h', 'a', 'v', 'i', 'n', 'g', ' ']
  | orderBy => [' ', 'o', 'r', 'd', 'e', 'r', ' ', 'b', 'y', ' ']
  | set => [' ', 's', 'e', 't', ' ']
  | among => [' ', 'i', 'n', ' ', '(']
  | conflict => [' ', 'o', 'n', ' ', 'c', 'o', 'n', 'f', 'l', 'i', 'c', 't', ' ', '(']
  | update => [' ', 'd', 'o', ' ', 'u', 'p', 'd', 'a', 't', 'e', ' ', 's', 'e', 't', ' ']
  | duplicate =>
    [' ', 'o', 'n', ' ', 'd', 'u', 'p', 'l', 'i', 'c', 'a', 't', 'e', ' ', 'k', 'e', 'y', ' ',
      'u', 'p', 'd', 'a', 't', 'e', ' ']

theorem toList_word (k : ListKeyword) : k.word.toList = k.chars := by
  cases k <;> decide +kernel

/-- All keywords. -/
def all : List ListKeyword :=
  [select, distinctOn, on, filter, groupBy, having, orderBy, set, among, conflict, update, duplicate]

theorem mem_all (k : ListKeyword) : k ∈ all := by
  cases k <;> simp [all]

end ListKeyword

/-- No keyword that needs a list stands in the text. -/
def Listless (text : String) : Prop := ∀ k : ListKeyword, ¬ k.word.toList <:+: text.toList

namespace Listless

/-- Whether a keyword that needs a list stands among the characters. -/
def keyworded (cs : List Char) : Bool :=
  cs.tails.any fun rest => ListKeyword.all.any fun k => k.chars.isPrefixOf rest

theorem of_check (text : String) (none : keyworded text.toList = false) : Listless text := by
  intro k inside
  obtain ⟨rest, starts, ends⟩ := List.infix_iff_prefix_suffix.1 inside
  rw [k.toList_word] at starts
  have found : keyworded text.toList = true := List.any_eq_true.2 ⟨rest, (List.mem_tails _ _).2 ends,
    List.any_eq_true.2 ⟨k, k.mem_all, List.isPrefixOf_iff_prefix.2 starts⟩⟩
  rw [none] at found
  cases found

/-- What the check of a listless text comes to. -/
theorem checked : false = false := rfl

end Listless

/-- A statement before it is text. A list stands behind its keyword, and behind what comes between the
keyword and the first item; each item has what parts it from the next. Besides fixed words, numbers,
names that the writer chooses and parts there is ` on conflict do nothing`, which has `on` and needs no
list. -/
inductive Phrase where
  | word (text : String) (listless : Listless text := by exact Listless.of_check _ Listless.checked)
  | number (n : UInt64)
  | own (name : String)
  | called (name : String)
  | part (p : Part)
  | leftOut
  | beside (first second : Phrase)
  | list (keyword : ListKeyword) (lead : Phrase) (items : List Phrase)

namespace Phrase

instance : Append Phrase := ⟨beside⟩

mutual

/-- Every list has an item. -/
def Filled : Phrase → Prop
  | beside first second => first.Filled ∧ second.Filled
  | list _ lead items => items ≠ [] ∧ lead.Filled ∧ AllFilled items
  | word _ _ | number _ | own _ | called _ | part _ | leftOut => True

/-- Every list in phrases has an item. -/
def AllFilled : List Phrase → Prop
  | [] => True
  | p :: ps => p.Filled ∧ AllFilled ps

end

variable {p q : Phrase} {ps : List Phrase}

@[simp] theorem filled_append : (p ++ q).Filled ↔ p.Filled ∧ q.Filled := Iff.rfl

@[simp] theorem filled_word (text : String) (listless : Listless text) : (word text listless).Filled :=
  trivial

@[simp] theorem filled_number (n : UInt64) : (number n).Filled := trivial

@[simp] theorem filled_own (name : String) : (own name).Filled := trivial

@[simp] theorem filled_called (name : String) : (called name).Filled := trivial

@[simp] theorem filled_part (p : Part) : (part p).Filled := trivial

@[simp] theorem filled_leftOut : leftOut.Filled := trivial

@[simp] theorem filled_list (k : ListKeyword) :
    (list k p ps).Filled ↔ ps ≠ [] ∧ p.Filled ∧ AllFilled ps := Iff.rfl

@[simp] theorem allFilled_iff : AllFilled ps ↔ ∀ p ∈ ps, p.Filled := by
  induction ps with
  | nil => simp [AllFilled]
  | cons p ps ih => simp [AllFilled, ih]

/-- Phrases one behind another. -/
def joined : List Phrase → Phrase
  | [] => word ""
  | p :: ps => p ++ joined ps

@[simp] theorem filled_joined : (joined ps).Filled ↔ ∀ p ∈ ps, p.Filled := by
  induction ps with
  | nil => simp [joined]
  | cons p ps ih => simp [joined, ih]

/-- Phrases with one between neighbours. -/
def apart (between : Phrase) : List Phrase → List Phrase
  | [] => []
  | [p] => [p]
  | p :: q :: rest => (p ++ between) :: apart between (q :: rest)

@[simp] theorem apart_eq_nil : apart q ps = [] ↔ ps = [] := by
  cases ps with
  | nil => simp [apart]
  | cons p ps => cases ps <;> simp [apart]

theorem filled_apart (between : q.Filled) (each : ∀ p ∈ ps, p.Filled) :
    ∀ p ∈ apart q ps, p.Filled := by
  induction ps with
  | nil => exact each
  | cons p ps ih =>
    rw [List.forall_mem_cons] at each
    cases ps with
    | nil => exact List.forall_mem_singleton.2 each.1
    | cons next rest => exact List.forall_mem_cons.2 ⟨⟨each.1, between⟩, ih each.2⟩

/-- The items of a list, with commas between them. -/
def commas (ps : List Phrase) : List Phrase := apart (word ", ") ps

@[simp] theorem commas_eq_nil : commas ps = [] ↔ ps = [] := apart_eq_nil

theorem filled_commas (each : ∀ p ∈ ps, p.Filled) : ∀ p ∈ commas ps, p.Filled :=
  filled_apart trivial each

theorem filled_commas_map {α : Type} {f : α → Phrase} {as : List α} (each : ∀ a ∈ as, (f a).Filled) :
    ∀ p ∈ commas (as.map f), p.Filled :=
  filled_commas (List.forall_mem_map.2 each)

/-- A keyword with its list, where there is one. -/
def clause (k : ListKeyword) (items : List Phrase) : Phrase :=
  if items.isEmpty then word "" else list k (word "") items

theorem filled_clause {k : ListKeyword} (each : ∀ p ∈ ps, p.Filled) : (clause k ps).Filled := by
  unfold clause
  split
  · trivial
  · next some => exact ⟨by simpa using some, trivial, allFilled_iff.2 each⟩

end Phrase

/-! ## Putting phrases into text -/

namespace Writer

/-- The text of a part. -/
def part (w : Writer (Except Error)) : Part → Except Error String
  | .name name => pure (w.dialect.wrap name)
  | .operator text | .verbatim text => pure text
  | .source (.value _) => pure "?"
  | .source (.fragment f) => w.expression f.expression

mutual

/-- The text of a phrase. -/
def put (w : Writer (Except Error)) : Phrase → Except Error String
  | .word text _ => pure text
  | .number n => pure (toString n.toNat)
  | .own name => pure (w.dialect.quote name)
  | .called name => pure (w.dialect.wrapTarget name)
  | .part p => w.part p
  | .leftOut => pure " on conflict do nothing"
  | .beside first second => do return (← w.put first) ++ (← w.put second)
  | .list keyword lead items => do
    let lead ← w.put lead
    let items ← w.putAll items
    return keyword.word ++ lead ++ items

/-- The text of phrases one behind another. -/
def putAll (w : Writer (Except Error)) : List Phrase → Except Error String
  | [] => pure ""
  | p :: ps => do return (← w.put p) ++ (← w.putAll ps)

end

/-- The phrase is put as the text. -/
def Puts (w : Writer (Except Error)) (p : Phrase) (text : String) : Prop := w.put p = .ok text

/-- The phrases one behind another are put as the text. -/
def PutsAll (w : Writer (Except Error)) (ps : List Phrase) (text : String) : Prop :=
  w.putAll ps = .ok text

namespace Puts

variable {w : Writer (Except Error)} {p q : Phrase} {ps : List Phrase} {s t text : String}

theorem word (text : String) {listless : Listless text} : w.Puts (.word text listless) text := rfl

theorem number (n : UInt64) : w.Puts (.number n) (toString n.toNat) := rfl

theorem own (name : String) : w.Puts (.own name) (w.dialect.quote name) := rfl

theorem name (name : String) : w.Puts (.part (.name name)) (w.dialect.wrap name) := rfl

theorem operator (text : String) : w.Puts (.part (.operator text)) text := rfl

theorem verbatim (text : String) : w.Puts (.part (.verbatim text)) text := rfl

theorem append (h : w.Puts p s) (h' : w.Puts q t) : w.Puts (p ++ q) (s ++ t) := by
  show (do return (← w.put p) ++ (← w.put q)) = Except.ok (s ++ t)
  rw [h, h']
  rfl

/-- A word in front. -/
theorem opened (h : w.Puts p s) (text : String) {listless : Listless text} :
    w.Puts (.word text listless ++ p) (text ++ s) :=
  (word text).append h

/-- A word at the end. -/
theorem closed (h : w.Puts p s) (text : String) {listless : Listless text} :
    w.Puts (p ++ .word text listless) (s ++ text) :=
  h.append (word text)

theorem congr (h : w.Puts p s) (same : s = t) : w.Puts p t := same ▸ h

theorem joined (h : w.PutsAll ps text) : w.Puts (.joined ps) text := by
  induction ps generalizing text with
  | nil => exact h
  | cons p ps ih =>
    simp only [PutsAll, putAll, bind_eq_ok, pure_eq_ok] at h
    obtain ⟨first, put, rest, putAll, rfl⟩ := h
    exact append put (ih putAll)

theorem list (k : ListKeyword) (h : w.Puts p s) (h' : w.PutsAll ps t) :
    w.Puts (.list k p ps) (k.word ++ s ++ t) := by
  show (do let lead ← w.put p; let items ← w.putAll ps; return k.word ++ lead ++ items) =
    Except.ok (k.word ++ s ++ t)
  rw [h, h']
  rfl

/-- A list right behind its keyword. -/
theorem behind (k : ListKeyword) (h : w.PutsAll ps t) :
    w.Puts (.list k (.word "") ps) (k.word ++ t) :=
  (list k (word "") h).congr (by rw [String.append_empty])

/-- A clause that is written where it has a list. -/
theorem clause {k : ListKeyword} {present : Bool} {written : Except Error String}
    (h : Writer.clause present k.word written = .ok text) (there : present = !ps.isEmpty)
    (items : ∀ inner, written = .ok inner → w.PutsAll ps inner) : w.Puts (.clause k ps) text := by
  subst there
  unfold Phrase.clause
  split
  · next none =>
    rw [none] at h
    exact h
  · next some =>
    simp only [some, Writer.clause, Bool.not_false, if_true, bind_eq_ok, pure_eq_ok] at h
    obtain ⟨inner, written, rfl⟩ := h
    exact behind k (items inner written)

end Puts

namespace PutsAll

variable {w : Writer (Except Error)} {p q : Phrase} {ps : List Phrase} {s t : String}
  {texts : List String}

theorem nil : w.PutsAll [] "" := rfl

theorem cons (h : w.Puts p s) (h' : w.PutsAll ps t) : w.PutsAll (p :: ps) (s ++ t) := by
  show (do return (← w.put p) ++ (← w.putAll ps)) = Except.ok (s ++ t)
  rw [h, h']
  rfl

theorem single (h : w.Puts p s) : w.PutsAll [p] s := by
  have put := cons h (nil (w := w))
  rwa [String.append_empty] at put

/-- Phrases with one between neighbours are put as texts with one between neighbours. -/
theorem apart (between : w.Puts q s) (each : List.Forall₂ w.Puts ps texts) :
    w.PutsAll (Phrase.apart q ps) (Text.separated s texts) := by
  induction each with
  | nil => exact nil
  | cons first rest ih =>
    cases rest with
    | nil => exact single first
    | cons => exact cons (first.append between) ih

theorem commas (each : List.Forall₂ w.Puts ps texts) :
    w.PutsAll (Phrase.commas ps) (Text.commaList texts) :=
  apart (.word ", ") each

end PutsAll

section Each

variable {w : Writer (Except Error)} {texts : List String}

/-- Texts that are written one by one are put one by one. -/
theorem puts_each {α : Type} {f : α → Except Error String} {phrase : α → Phrase} {as : List α}
    (written : each f as = .ok texts) (h : ∀ a text, f a = .ok text → w.Puts (phrase a) text) :
    List.Forall₂ w.Puts (as.map phrase) texts :=
  List.forall₂_map_left_iff.2 ((forall₂_of_each written).imp h)

/-- Names are put one by one. -/
theorem puts_names (names : List String) :
    List.Forall₂ w.Puts (names.map fun n => .part (.name n)) (names.map w.dialect.wrap) := by
  rw [List.forall₂_map_left_iff, List.forall₂_map_right_iff]
  exact List.forall₂_same.2 fun n _ => .name n

end Each

end Writer

end SqlFragments
