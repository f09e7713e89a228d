import SqlFragments.Proofs.UpdateAlignment
import SqlFragments.Proofs.WrittenNames

/-!
# Places inside JSON columns

A column of the form `base->k₁->…->kₙ` is a place inside a JSON value. What is assigned to it is
written with a path, which has the keys of the place and stands in a string literal.
`Dialect.pathKeys?` is how a database reads such a path, and `Dialect.ReadsAt` what it reads of the
whole assignment: no string literal in front of the path, the path as one literal, and behind it the
value.

Keys that would end or escape the quotes around them are refused, and so are empty ones. All others
are written as they were given (`Dialect.jsonUpdate_cases`), and read back so, unless the database
knows a character of theirs in no other form than an escaped one. `Dialect.Legible` tells which keys
have none such, and a path with others is no path at all (`Dialect.pathKeys?_path`).
-/

namespace SqlFragments

namespace Text

/-- A text without an arrow. -/
def Arrowless (cs : List Char) : Prop := ¬ ['-', '>'] <:+: cs

instance (cs : List Char) : Decidable (Arrowless cs) :=
  inferInstanceAs (Decidable (¬ ['-', '>'] <:+: cs))

/-- The pieces of a text between its arrows. -/
structure Arrows (text : List Char) (pieces : List (List Char)) : Prop where
  nonempty : pieces ≠ []
  joined : List.intercalate ['-', '>'] pieces = text
  arrowless : ∀ piece ∈ pieces, Arrowless piece

variable {cs rest : List Char}

theorem splitArrows_cons {c : Char} (h : ¬ ['-', '>'] <+: c :: cs) :
    splitArrows (c :: cs) = consFirst c (splitArrows cs) := by
  refine splitArrows.eq_2 c cs ?_
  rintro rest rfl rfl
  exact h (List.prefix_append _ rest)

theorem splitArrows_of_arrowless (h : Arrowless cs) : splitArrows cs = [cs] := by
  induction cs with
  | nil => rfl
  | cons c cs ih =>
    rw [Arrowless, List.infix_cons_iff, not_or] at h
    rw [splitArrows_cons h.1, ih h.2]
    rfl

/-- An arrow behind an arrowless piece ends the piece. -/
theorem splitArrows_append (h : Arrowless cs) :
    splitArrows (cs ++ '-' :: '>' :: rest) = cs :: splitArrows rest := by
  induction cs with
  | nil => rfl
  | cons c cs ih =>
    rw [Arrowless, List.infix_cons_iff, not_or] at h
    have none : ¬ ['-', '>'] <+: c :: (cs ++ '-' :: '>' :: rest) := by
      intro arrow
      obtain ⟨rfl, tip⟩ := List.cons_prefix_cons.1 arrow
      cases cs with
      | nil => simp at tip
      | cons d cs =>
        obtain ⟨rfl, -⟩ := List.cons_prefix_cons.1 tip
        exact h.1 (List.prefix_append ['-', '>'] cs)
    rw [List.cons_append, splitArrows_cons none, ih h.2]
    rfl

/-- A text is cut into its pieces between arrows. -/
theorem splitArrows_of_arrows {text : List Char} {pieces : List (List Char)}
    (h : Arrows text pieces) : splitArrows text = pieces := by
  obtain ⟨nonempty, rfl, arrowless⟩ := h
  induction pieces with
  | nil => exact absurd rfl nonempty
  | cons piece pieces ih =>
    obtain ⟨first, others⟩ := List.forall_mem_cons.1 arrowless
    cases pieces with
    | nil =>
      rw [List.intercalate_singleton]
      exact splitArrows_of_arrowless first
    | cons next later =>
      have after := ih (List.cons_ne_nil next later) others
      rw [List.intercalate_cons_cons, List.append_assoc, List.cons_append, List.cons_append,
        List.nil_append, splitArrows_append first, after]

theorem toList_separated (sep : String) (pieces : List String) :
    (separated sep pieces).toList = List.intercalate sep.toList (pieces.map String.toList) := by
  fun_induction separated sep pieces with
  | case1 => rfl
  | case2 piece => simp
  | case3 piece next rest ih =>
    simp only [List.map_cons] at ih
    simp only [String.toList_append, List.map_cons, List.intercalate_cons_cons, ih]

end Text

/-! ## Keys -/

/-- A key that a path cannot have: an empty one, or one with a character that would end or escape
the quotes around it. -/
def Unfit (key : List Char) : Prop := key = [] ∨ '\'' ∈ key ∨ '"' ∈ key ∨ '\\' ∈ key

instance (key : List Char) : Decidable (Unfit key) :=
  inferInstanceAs (Decidable (key = [] ∨ '\'' ∈ key ∨ '"' ∈ key ∨ '\\' ∈ key))

namespace Dialect

variable {d : Dialect} {keys : List (List Char)}

theorem isJsonKey_iff {key : List Char} : isJsonKey key = true ↔ ¬ Unfit key := by
  simp only [isJsonKey, Unfit, Bool.and_eq_true, Bool.not_eq_true', List.isEmpty_eq_false_iff,
    List.all_eq_true, bne_iff_ne, not_or]
  constructor
  · rintro ⟨nonempty, quiet⟩
    exact ⟨nonempty, fun h => (quiet _ h).1.1 rfl, fun h => (quiet _ h).1.2 rfl,
      fun h => (quiet _ h).2 rfl⟩
  · rintro ⟨nonempty, single, double, backslash⟩
    refine ⟨nonempty, fun c member => ⟨⟨?_, ?_⟩, ?_⟩⟩
    · exact fun same => single (same ▸ member)
    · exact fun same => double (same ▸ member)
    · exact fun same => backslash (same ▸ member)

/-- The key in the quotes of a path. -/
def quotedKey (key : List Char) : List Char := '"' :: key ++ ['"']

theorem jsonKey_of_fit {key : List Char} (fit : ¬ Unfit key) :
    jsonKey (String.ofList key) = .ok (String.ofList (quotedKey key)) := by
  rw [jsonKey, String.toList_ofList, if_pos (isJsonKey_iff.2 fit)]
  refine congrArg Except.ok (String.toList_injective ?_)
  simp [quotedKey]

theorem jsonKeys_of_fit (fit : ∀ key ∈ keys, ¬ Unfit key) :
    jsonKeys (keys.map String.ofList) =
      .ok (keys.map fun key => String.ofList (quotedKey key)) := by
  induction keys with
  | nil => rfl
  | cons key keys ih =>
    obtain ⟨first, others⟩ := List.forall_mem_cons.1 fit
    rw [List.map_cons, jsonKeys, jsonKey_of_fit first, ih others]
    rfl

/-- A path with an unfit key is refused. -/
theorem jsonKeys_of_unfit (unfit : ∃ key ∈ keys, Unfit key) :
    ∃ key, jsonKeys (keys.map String.ofList) = .error (.invalid (.jsonKey key)) := by
  induction keys with
  | nil =>
    obtain ⟨_, member, -⟩ := unfit
    cases member
  | cons key keys ih =>
    by_cases first : Unfit key
    · have refused : jsonKey (String.ofList key) =
          .error (.invalid (.jsonKey (String.ofList key))) := by
        rw [jsonKey, String.toList_ofList, if_neg fun allowed => isJsonKey_iff.1 allowed first]
      refine ⟨String.ofList key, ?_⟩
      rw [List.map_cons, jsonKeys, refused]
      rfl
    · obtain ⟨other, refused⟩ := ih (by simpa [first] using unfit)
      refine ⟨other, ?_⟩
      rw [List.map_cons, jsonKeys, jsonKey_of_fit first, refused]
      rfl

end Dialect

/-! ## Reading paths -/

/-- How a database writes a path to a place inside a JSON value: keys in double quotes, with
separators between them. Only the characters that `stands` tells may be in a key as they are, and
what a backslash and a character behind it mean may be unknown. -/
structure PathStyle where
  opening : List Char
  separator : Char
  ending : List Char
  stands : Char → Bool
  meaning? : Char → Option (List Char)

/-- Where the reading of a path stands. -/
inductive PathReading where
  | before
  | inside (key : List Char)
  | escaped (key : List Char)
  | behind

namespace PathStyle

/-- The keys of a path that is read on. -/
def read (s : PathStyle) : PathReading → List Char → Option (List (List Char))
  | .before, c :: cs => if c = '"' then s.read (.inside []) cs else none
  | .inside key, c :: cs =>
    if c = '"' then (s.read .behind cs).map (key :: ·)
    else if c = '\\' then s.read (.escaped key) cs
    else if s.stands c then s.read (.inside (key ++ [c])) cs else none
  | .escaped key, c :: cs => (s.meaning? c).bind fun meant => s.read (.inside (key ++ meant)) cs
  | .behind, c :: cs =>
    if c = s.separator then s.read .before cs else if c :: cs = s.ending then some [] else none
  | .behind, [] => if s.ending = [] then some [] else none
  | _, [] => none

/-- The keys of a path. -/
def keys? (s : PathStyle) (path : List Char) : Option (List (List Char)) :=
  (Text.after? s.opening path).bind (s.read .before)

/-- The path to a place. -/
def path (s : PathStyle) (keys : List (List Char)) : List Char :=
  s.opening ++ List.intercalate [s.separator] (keys.map Dialect.quotedKey) ++ s.ending

variable (s : PathStyle)

theorem read_key {key : List Char} (quiet : '"' ∉ key ∧ '\\' ∉ key) (before rest : List Char) :
    s.read (.inside before) (key ++ '"' :: rest) =
      if key.all s.stands then (s.read .behind rest).map ((before ++ key) :: ·) else none := by
  induction key generalizing before with
  | nil => simp [read]
  | cons c key ih =>
    simp only [List.mem_cons, not_or] at quiet
    have later := ih ⟨quiet.1.2, quiet.2.2⟩ (before ++ [c])
    rw [List.append_assoc, List.singleton_append] at later
    rw [List.cons_append, read, if_neg (Ne.symm quiet.1.1), if_neg (Ne.symm quiet.2.1), later,
      List.all_cons]
    cases s.stands c <;> rfl

theorem read_quotedKey {key : List Char} (quiet : '"' ∉ key ∧ '\\' ∉ key) (rest : List Char) :
    s.read .before (Dialect.quotedKey key ++ rest) =
      if key.all s.stands then (s.read .behind rest).map (key :: ·) else none := by
  have inside := s.read_key quiet [] rest
  rw [List.nil_append] at inside
  rw [Dialect.quotedKey, List.cons_append, List.cons_append, List.append_assoc,
    List.singleton_append, read, if_pos rfl, inside]

theorem read_ending (apart : s.ending.head? ≠ some s.separator) :
    s.read .behind s.ending = some [] := by
  cases ending : s.ending with
  | nil => simp [read, ending]
  | cons c cs =>
    have other : c ≠ s.separator := by simpa [ending] using apart
    rw [read, if_neg other, if_pos ending.symm]

/-- Keys without quotes and backslashes are read back, if all their characters may be in a key as
they are; else nothing is read. -/
theorem read_keys (apart : s.ending.head? ≠ some s.separator) {keys : List (List Char)}
    (some : keys ≠ []) (quiet : ∀ key ∈ keys, '"' ∉ key ∧ '\\' ∉ key) :
    s.read .before (List.intercalate [s.separator] (keys.map Dialect.quotedKey) ++ s.ending) =
      if keys.all (·.all s.stands) then .some keys else none := by
  induction keys with
  | nil => exact absurd rfl some
  | cons key keys ih =>
    obtain ⟨first, others⟩ := List.forall_mem_cons.1 quiet
    cases keys with
    | nil =>
      rw [List.map_singleton, List.intercalate_singleton, s.read_quotedKey first,
        s.read_ending apart, List.all_cons, List.all_nil, Bool.and_true]
      rfl
    | cons next later =>
      have after := ih (List.cons_ne_nil next later) others
      rw [List.map_cons] at after
      rw [List.map_cons, List.map_cons, List.intercalate_cons_cons, List.append_assoc,
        List.append_assoc, s.read_quotedKey first, List.singleton_append, read, if_pos rfl, after,
        List.all_cons (a := key)]
      cases key.all s.stands <;> cases (next :: later).all (·.all s.stands) <;> rfl

end PathStyle

namespace Dialect

/-- What a backslash and a character behind it mean in a JSON string, codes of characters left
out. -/
def jsonMeaning? : Char → Option (List Char)
  | '"' => some ['"']
  | '\\' => some ['\\']
  | '/' => some ['/']
  | 'b' => some ['\x08']
  | 'f' => some ['\x0c']
  | 'n' => some ['\n']
  | 'r' => some ['\r']
  | 't' => some ['\t']
  | _ => none

/-- The characters that may be in a key as they are. A JSON string has control characters in escaped
form alone, and a text of Postgres can have all characters but the one of code zero. -/
def standsInKeys : Dialect → Char → Bool
  | mysql, c => ' ' ≤ c
  | _, c => c ≠ '\x00'

/-- The paths of the databases that set places inside JSON values. Those of MySQL start at the whole
value, and their keys are JSON strings; those of Postgres are arrays of texts. -/
def pathStyle? : Dialect → Option PathStyle
  | mysql => some ⟨['$', '.'], '.', [], mysql.standsInKeys, jsonMeaning?⟩
  | postgres => some ⟨['\x7b'], ',', ['\x7d'], postgres.standsInKeys, fun c => some [c]⟩
  | _ => none

/-- All characters of the keys may be in a key as they are. -/
def Legible (d : Dialect) (keys : List (List Char)) : Prop :=
  ∀ key ∈ keys, ∀ c ∈ key, d.standsInKeys c = true

instance (d : Dialect) (keys : List (List Char)) : Decidable (d.Legible keys) :=
  inferInstanceAs (Decidable (∀ key ∈ keys, ∀ c ∈ key, d.standsInKeys c = true))

/-- The keys of a path, as the database reads it. -/
def pathKeys? (d : Dialect) (path : List Char) : Option (List (List Char)) :=
  d.pathStyle?.bind fun s => s.keys? path

variable {d : Dialect} {s : PathStyle} {keys : List (List Char)}

/-- A path is read back as its keys if they are legible, and cannot be read if they are not. -/
theorem pathKeys?_path (style : d.pathStyle? = some s) (inside : keys ≠ [])
    (fit : ∀ key ∈ keys, ¬ Unfit key) :
    d.pathKeys? (s.path keys) = if d.Legible keys then some keys else none := by
  have apart : s.ending.head? ≠ some s.separator := by
    cases d <;> cases style <;> decide
  have stands : s.stands = d.standsInKeys := by
    cases d <;> cases style <;> rfl
  have quiet : ∀ key ∈ keys, '"' ∉ key ∧ '\\' ∉ key := fun key member =>
    ⟨fun h => fit key member (.inr (.inr (.inl h))), fun h => fit key member (.inr (.inr (.inr h)))⟩
  rw [pathKeys?, style, Option.bind_some, PathStyle.keys?, PathStyle.path, List.append_assoc,
    Text.after?_append, Option.bind_some, s.read_keys apart inside quiet, stands]
  exact if_congr (by simp only [Legible, List.all_eq_true]) rfl rfl

/-- A path of fit keys neither ends nor escapes the literal that it stands in. -/
theorem quiet_path (style : d.pathStyle? = some s) (fit : ∀ key ∈ keys, ¬ Unfit key) :
    Quote.Quiet (s.path keys) := by
  have around : Quote.Quiet s.opening ∧ Quote.Quiet [s.separator] ∧ Quote.Quiet s.ending := by
    cases d <;> cases style <;> decide
  have between : Quote.Quiet (String.ofList [s.separator]).toList := by
    rw [String.toList_ofList]
    exact around.2.1
  have row := quiet_separated between (quiet_jsonKeys (jsonKeys_of_fit fit))
  rw [Text.toList_separated, String.toList_ofList, List.map_map] at row
  have same : String.toList ∘ (fun key => String.ofList (quotedKey key)) = quotedKey :=
    funext fun key => String.toList_ofList
  rw [same] at row
  exact Quote.quiet_append_iff.2 ⟨Quote.quiet_append_iff.2 ⟨around.1, row⟩, around.2.2⟩

end Dialect

/-! ## Reading assignments -/

/-- A written name holds no string literal. -/
theorem Name.literal?_of_mem {d : Dialect} {n : Name} {x : Lexeme} (member : x ∈ n.lexemes d) :
    x.literal? = none := by
  rcases of_mem_lexemes member with ⟨content, rfl⟩ | ⟨c, -, rfl⟩ <;> rfl

namespace Dialect

variable {d : Dialect} {s : PathStyle} {keys : List (List Char)}

/-- What a database reads of an assignment to a place inside a JSON column: `front`, in which there
is no string literal and which starts with the column, the path as one string literal, which ends
where the quote is written that closes it, and behind it the value. The path leads to the place of
the keys, unless they are not legible: then it is none. -/
structure ReadsAt (d : Dialect) (column : String) (front path : List Char)
    (keys : List (List Char)) (value assigned : String) : Prop where
  written : assigned.toList = front ++ '\'' :: path ++ '\'' :: (", " ++ value ++ ")").toList
  targeted : (column ++ " = ").toList <+: front
  unquoted : ∀ x ∈ d.lexemes front, x.literal? = none
  read : ∀ rest, d.lexemes (assigned.toList ++ rest) =
    d.lexemes front ++ .quoted (literalQuotes '\'') path ::
      d.lexemes ((", " ++ value ++ ")").toList ++ rest)
  keys : d.pathKeys? path = if d.Legible keys then some keys else none

/-- A written name and a word behind it are read one after the other. -/
theorem lexemes_wrap_word (style : d.pathStyle? = some s) (name : String) {word : List Char}
    (bare : d.IsWord word) (some : word ≠ []) (rest : List Char) :
    d.lexemes ((d.wrap name).toList ++ (word ++ rest)) =
      (Name.ofChars name.toList).lexemes d ++ word.map .bare ++ d.lexemes rest := by
  have closing : ¬ d.IsBare d.closing := by
    cases d <;> cases style <;> decide
  have apart : (word ++ rest).head? ≠ .some d.closing := by
    obtain ⟨c, later, rfl⟩ := List.exists_cons_of_ne_nil some
    intro same
    exact closing (Option.some.inj same ▸ bare c List.mem_cons_self)
  rw [lexemes_wrap name apart, lexemes_word bare, List.append_assoc]

/-- A call that sets a place of fit keys is read as it is meant. -/
theorem readsAt_of_fit (style : d.pathStyle? = some s) (inside : keys ≠ [])
    (fit : ∀ key ∈ keys, ¬ Unfit key) (column call cast : String) {value assigned : String}
    (bare : d.IsWord call.toList ∧ d.IsWord cast.toList)
    (assigns : " = ".toList <+: call.toList) (some : cast.toList ≠ [])
    (written : assigned.toList = (d.wrap column ++ call ++ d.wrap column ++ cast).toList ++
      '\'' :: s.path keys ++ '\'' :: (", " ++ value ++ ")").toList) :
    d.ReadsAt (d.wrap column) (d.wrap column ++ call ++ d.wrap column ++ cast).toList (s.path keys)
      keys value assigned := by
  have called : call.toList ≠ [] := by
    intro none
    rw [none] at assigns
    exact absurd (List.prefix_nil.1 assigns) (by decide)
  have front : ∀ rest, d.lexemes ((d.wrap column ++ call ++ d.wrap column ++ cast).toList ++ rest) =
      (Name.ofChars column.toList).lexemes d ++ call.toList.map .bare ++
        ((Name.ofChars column.toList).lexemes d ++ cast.toList.map .bare) ++ d.lexemes rest := by
    intro rest
    have second := lexemes_wrap_word style column bare.2 some rest
    have first := lexemes_wrap_word style column bare.1 called
      ((d.wrap column).toList ++ (cast.toList ++ rest))
    rw [second] at first
    simpa only [String.toList_append, List.append_assoc] using first
  have alone := front []
  rw [List.append_nil, lexemes_nil, List.append_nil] at alone
  refine ⟨written, ?_, ?_, ?_, pathKeys?_path style inside fit⟩
  · obtain ⟨more, split⟩ := assigns
    refine ⟨more ++ (d.wrap column).toList ++ cast.toList, ?_⟩
    simp only [String.toList_append, ← split, List.append_assoc]
  · rw [alone]
    have name : ∀ x ∈ (Name.ofChars column.toList).lexemes d, x.literal? = none :=
      fun x member => Name.literal?_of_mem member
    have word : ∀ cs : List Char, ∀ x ∈ cs.map Lexeme.bare, x.literal? = none := by
      intro cs x member
      obtain ⟨c, -, rfl⟩ := List.mem_map.1 member
      rfl
    exact List.forall_mem_append.2 ⟨List.forall_mem_append.2 ⟨name, word _⟩,
      List.forall_mem_append.2 ⟨name, word _⟩⟩
  · intro rest
    have quiet : '\'' ∉ s.path keys ∧ '\\' ∉ s.path keys :=
      ⟨fun member => (quiet_path style fit _ member).1 rfl,
        fun member => (quiet_path style fit _ member).2 rfl⟩
    have apart : ((", " ++ value ++ ")").toList ++ rest).head? ≠ .some '\'' := by simp
    have literal := lexemes_literal d quiet apart
    rw [written, alone, List.append_assoc, List.append_assoc, front]
    simpa using literal

/-- A place of fit keys is assigned to as it is meant. -/
theorem jsonUpdate_of_fit (sets : d = mysql ∨ d = postgres) (inside : keys ≠ [])
    (fit : ∀ key ∈ keys, ¬ Unfit key) (column value : String) :
    ∃ front path assigned, d.ReadsAt (d.wrap column) front path keys value assigned ∧
      d.jsonUpdate (d.wrap column) (keys.map String.ofList) value = .ok assigned := by
  let row := keys.map fun key => String.ofList (quotedKey key)
  have text (sep : String) :
      (Text.separated sep row).toList = List.intercalate sep.toList (keys.map quotedKey) := by
    simp [row, Text.toList_separated, Function.comp_def]
  rcases sets with rfl | rfl
  · have set : mysql.jsonUpdate (mysql.wrap column) (keys.map String.ofList) value =
        .ok (mysql.wrap column ++ " = json_set(" ++ mysql.wrap column ++ ", '$." ++
          Text.separated "." row ++ "', " ++ value ++ ")") := by
      rw [jsonUpdate, jsonKeys_of_fit fit]
      rfl
    exact ⟨_, _, _, readsAt_of_fit rfl inside fit column " = json_set(" ", "
      (by decide) (by decide) (by decide) (by simp [text, PathStyle.path]), set⟩
  · have set : postgres.jsonUpdate (postgres.wrap column) (keys.map String.ofList) value =
        .ok (postgres.wrap column ++ " = jsonb_set(" ++ postgres.wrap column ++ "::jsonb, '\x7b" ++
          Text.separated "," row ++ "\x7d', " ++ value ++ ")") := by
      rw [jsonUpdate, jsonKeys_of_fit fit]
      rfl
    exact ⟨_, _, _, readsAt_of_fit rfl inside fit column " = jsonb_set(" "::jsonb, "
      (by decide) (by decide) (by decide) (by simp [text, PathStyle.path]), set⟩

/-- A place with an unfit key is refused. -/
theorem jsonUpdate_of_unfit (sets : d = mysql ∨ d = postgres) (unfit : ∃ key ∈ keys, Unfit key)
    (column value : String) :
    ∃ key, d.jsonUpdate column (keys.map String.ofList) value =
      .error (.invalid (.jsonKey key)) := by
  obtain ⟨key, refused⟩ := jsonKeys_of_unfit unfit
  refine ⟨key, ?_⟩
  rcases sets with rfl | rfl
  · rw [jsonUpdate, refused]
    rfl
  · rw [jsonUpdate, refused]
    rfl

/-- A place is refused or assigned to, depending on its keys. -/
theorem jsonUpdate_cases (sets : d = mysql ∨ d = postgres) (inside : keys ≠ [])
    (column value : String) :
    ((∃ key ∈ keys, Unfit key) ∧ ∃ key,
      d.jsonUpdate (d.wrap column) (keys.map String.ofList) value =
        .error (.invalid (.jsonKey key))) ∨
    ((∀ key ∈ keys, ¬ Unfit key) ∧ ∃ front path assigned,
      d.ReadsAt (d.wrap column) front path keys value assigned ∧
      d.jsonUpdate (d.wrap column) (keys.map String.ofList) value = .ok assigned) := by
  by_cases unfit : ∃ key ∈ keys, Unfit key
  · exact .inl ⟨unfit, jsonUpdate_of_unfit sets unfit _ value⟩
  · have fit : ∀ key ∈ keys, ¬ Unfit key := fun key member bad => unfit ⟨key, member, bad⟩
    exact .inr ⟨fit, jsonUpdate_of_fit sets inside fit column value⟩

end Dialect

end SqlFragments
