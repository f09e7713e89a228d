import Mathlib.Data.List.Infix
import SqlFragments.Cli.Expansion

/-!
# Settings as templates

A setting is read as a `Template`, literal texts with references between them, up to its end or up to
the first reference that cannot be expanded. `Template.expansion_exact` says that expanding tells which:
it gives the filled template, with every literal and every value as it is, or the error of that
reference.

Expanding goes over a literal text (`expandChars_literal`), over a reference (`expandChars_reference`)
and so over a template (`Template.expandChars_written`) without a look at what follows, except that a
brace behind a dollar would open a reference. A text can always be cut this way
(`Template.exists_cut`).
-/

namespace SqlFragments.Cli

variable {env : Environment}

/-- Literal texts with references between them. A reference comes with the literal text in front of
it and with what is behind it. -/
inductive Template where
  | literal (text : String)
  | reference (before name : String) (behind : Template)
  deriving DecidableEq, Repr

namespace Template

/-- What opens a reference. -/
def opening : String := "$\x7b"

/-- A reference as it is written. -/
def referenceTo (name : String) : String := opening ++ name ++ "\x7d"

/-- Whether a text opens no reference. -/
def IsLiteral (text : String) : Prop := ¬ opening.toList <:+: text.toList

/-- Whether a reference may have the name: some characters, none of which closes the reference. -/
def IsName (name : String) : Prop := name ≠ "" ∧ '\x7d' ∉ name.toList

/-- The setting that the template is read from. -/
def written : Template → String
  | literal text => text
  | reference before name behind => before ++ referenceTo name ++ behind.written

/-- Whether the literal texts open no references and the references have names. -/
def WellFormed : Template → Prop
  | literal text => IsLiteral text
  | reference before name behind => IsLiteral before ∧ IsName name ∧ behind.WellFormed

/-- The template with the values of its variables, if they are all defined. -/
def filled? (env : Environment) : Template → Option String
  | literal text => some text
  | reference before name behind => do
    let value ← env name
    let rest ← behind.filled? env
    return before ++ value ++ rest

/-- What is wrong with the reference that stands at the beginning of a text. -/
inductive Offends (env : Environment) : ExpansionError → String → Prop where
  | unterminated {name : String} (unclosed : '\x7d' ∉ name.toList) :
      Offends env (.unterminated name) (opening ++ name)
  | unnamed (behind : String) : Offends env .unnamed (referenceTo "" ++ behind)
  | undefined {name : String} (named : IsName name) (missing : env name = none) (behind : String) :
      Offends env (.undefined name) (referenceTo name ++ behind)

end Template

open Template

/-! ## Going over a text -/

/-- A character that opens no reference is kept. -/
theorem expandChars_cons {c : Char} {cs : List Char}
    (closed : ¬ opening.toList <+: c :: cs) :
    expandChars env none (c :: cs) = (expandChars env none cs).map (c :: ·) := by
  rw [expandChars]
  rintro rest rfl rfl
  exact closed ⟨rest, rfl⟩

/-- A literal text is kept, if no brace behind it makes its last character open a reference. -/
theorem expandChars_literal {text rest : List Char} (plain : ¬ opening.toList <:+: text)
    (apart : rest.head? ≠ some '\x7b') :
    expandChars env none (text ++ rest) = (expandChars env none rest).map (text ++ ·) := by
  induction text with
  | nil => cases h : expandChars env none rest <;> simp [h, Except.map]
  | cons c text ih =>
    rw [List.infix_cons_iff, not_or] at plain
    have closed : ¬ opening.toList <+: c :: (text ++ rest) := by
      intro opens
      cases text with
      | nil =>
        obtain ⟨-, brace⟩ := List.cons_prefix_cons.1 opens
        obtain ⟨behind, rfl⟩ := brace
        exact apart rfl
      | cons d text =>
        obtain ⟨rfl, brace⟩ := List.cons_prefix_cons.1 opens
        obtain ⟨rfl, -⟩ := List.cons_prefix_cons.1 brace
        exact plain.1 ⟨text, rfl⟩
    rw [List.cons_append, expandChars_cons closed, ih plain.2]
    cases expandChars env none rest <;> rfl

/-- Inside a reference the name is read up to the closing brace. -/
theorem expandChars_name {name : List Char} (unclosed : '\x7d' ∉ name) (read rest : List Char) :
    expandChars env (some read) (name ++ rest) =
      expandChars env (some (name.reverse ++ read)) rest := by
  induction name generalizing read with
  | nil => rfl
  | cons c name ih =>
    rw [List.mem_cons, not_or] at unclosed
    rw [List.cons_append, expandChars, if_neg (Ne.symm unclosed.1), ih unclosed.2,
      List.reverse_cons, List.append_assoc, List.singleton_append]

/-- A reference that is opened is read up to its closing brace. -/
theorem expandChars_opened {name : String} (unclosed : '\x7d' ∉ name.toList) (rest : List Char) :
    expandChars env none ((opening ++ name).toList ++ rest) =
      expandChars env (some name.toList.reverse) rest := by
  rw [String.toList_append, List.append_assoc]
  change expandChars env (some []) (name.toList ++ rest) = _
  rw [expandChars_name unclosed, List.append_nil]

theorem toList_referenceTo_append (name : String) (rest : List Char) :
    (referenceTo name).toList ++ rest = (opening ++ name).toList ++ '\x7d' :: rest := by
  rw [referenceTo, String.toList_append, List.append_assoc]
  rfl

/-- A reference gives the value of its variable, or the error that there is none. -/
theorem expandChars_reference {name : String} (named : IsName name) (rest : List Char) :
    expandChars env none ((referenceTo name).toList ++ rest) =
      match env name with
      | none => .error (.undefined name)
      | some value => (expandChars env none rest).map (value.toList ++ ·) := by
  have filled : name.toList.reverse.isEmpty = false := by
    simpa [List.isEmpty_eq_false_iff] using named.1
  rw [toList_referenceTo_append, expandChars_opened named.2, expandChars, if_pos rfl, filled,
    List.reverse_reverse, String.ofList_toList]
  rfl

namespace Template

/-- What is wrong with a reference is told. -/
theorem Offends.expandChars {e : ExpansionError} {text : String} (h : Offends env e text) :
    expandChars env none text.toList = .error e := by
  cases h with
  | @unterminated name unclosed =>
    rw [← List.append_nil (opening ++ name).toList, expandChars_opened unclosed, Cli.expandChars,
      List.reverse_reverse, String.ofList_toList]
  | unnamed behind =>
    rw [String.toList_append, toList_referenceTo_append, expandChars_opened (by simp)]
    rfl
  | undefined named missing behind =>
    rw [String.toList_append, expandChars_reference named, missing]

/-- What is wrong begins with a dollar. -/
theorem Offends.head? {e : ExpansionError} {text : String} (h : Offends env e text) :
    text.toList.head? = some '$' := by
  cases h <;> simp [referenceTo, opening]

/-- **Going over a template** fills it. -/
theorem expandChars_written {t : Template} (formed : t.WellFormed) {out : String}
    (filled : t.filled? env = some out) {rest : List Char} (apart : rest.head? ≠ some '\x7b') :
    Cli.expandChars env none (t.written.toList ++ rest) =
      (Cli.expandChars env none rest).map (out.toList ++ ·) := by
  induction t generalizing out with
  | literal text =>
    cases filled
    exact expandChars_literal formed apart
  | reference before name behind ih =>
    obtain ⟨plain, named, formed⟩ := formed
    obtain ⟨value, found, later⟩ := Option.bind_eq_some_iff.1 filled
    obtain ⟨ending, ended, same⟩ := Option.bind_eq_some_iff.1 later
    cases same
    have dollar : ((referenceTo name).toList ++ (behind.written.toList ++ rest)).head? ≠
        some '\x7b' := by
      simp [referenceTo, opening]
    rw [written, String.toList_append, String.toList_append, List.append_assoc, List.append_assoc,
      expandChars_literal plain dollar, expandChars_reference named, found]
    simp only [ih formed ended, String.toList_append]
    cases Cli.expandChars env none rest <;> simp [Except.map]

/-! ## Cutting a text -/

/-- A text is literal, or a reference is opened behind a literal text. -/
theorem isLiteral_or_opens (text : String) :
    IsLiteral text ∨
      ∃ before rest : String, IsLiteral before ∧ text = before ++ opening ++ rest := by
  have cut (cs : List Char) : ¬ opening.toList <:+: cs ∨
      ∃ before rest, ¬ opening.toList <:+: before ∧ cs = before ++ (opening.toList ++ rest) := by
    induction cs with
    | nil => exact .inl (by simp [opening])
    | cons c cs ih =>
      by_cases opens : opening.toList <+: c :: cs
      · obtain ⟨rest, same⟩ := opens
        exact .inr ⟨[], rest, by simp [opening], same.symm⟩
      · rcases ih with plain | ⟨before, rest, plain, rfl⟩
        · exact .inl (List.infix_cons_iff.not.2 (not_or.2 ⟨opens, plain⟩))
        · refine .inr ⟨c :: before, rest, List.infix_cons_iff.not.2 (not_or.2 ⟨?_, plain⟩), rfl⟩
          exact fun early => opens (early.trans ⟨opening.toList ++ rest, rfl⟩)
  rcases cut text.toList with plain | ⟨before, rest, plain, same⟩
  · exact .inl plain
  · refine .inr ⟨.ofList before, .ofList rest, ?_, ?_⟩
    · rwa [IsLiteral, String.toList_ofList]
    · rw [← String.toList_inj, same]
      simp

/-- What follows an opened reference closes it, or nothing does. -/
theorem unclosed_or_closes (text : String) :
    '\x7d' ∉ text.toList ∨
      ∃ name behind : String, '\x7d' ∉ name.toList ∧ text = name ++ "\x7d" ++ behind := by
  by_cases closes : '\x7d' ∈ text.toList
  · obtain ⟨name, behind, same, first⟩ := List.eq_append_cons_of_mem closes
    refine .inr ⟨.ofList name, .ofList behind, by rwa [String.toList_ofList], ?_⟩
    rw [← String.toList_inj, same]
    simp
  · exact .inl closes

/-- Every text is a template, or goes on behind one with a reference that cannot be expanded. -/
theorem exists_cut (env : Environment) (s : String) :
    ∃ t : Template, t.WellFormed ∧ (∃ out, t.filled? env = some out) ∧
      (s = t.written ∨ ∃ e rest, Offends env e rest ∧ s = t.written ++ rest) := by
  rcases isLiteral_or_opens s with plain | ⟨before, opened, plain, rfl⟩
  · exact ⟨.literal s, plain, ⟨s, rfl⟩, .inl rfl⟩
  rcases unclosed_or_closes opened with unclosed | ⟨name, behind, unclosed, rfl⟩
  · exact ⟨.literal before, plain, ⟨before, rfl⟩,
      .inr ⟨_, _, .unterminated unclosed, by rw [written, String.append_assoc]⟩⟩
  have cut : before ++ opening ++ (name ++ "\x7d" ++ behind) =
      before ++ referenceTo name ++ behind := by
    simp only [referenceTo, String.append_assoc]
  rw [cut]
  by_cases empty : name = ""
  · subst empty
    exact ⟨.literal before, plain, ⟨before, rfl⟩,
      .inr ⟨_, _, .unnamed behind, by rw [written, String.append_assoc]⟩⟩
  have named : IsName name := ⟨empty, unclosed⟩
  cases found : env name with
  | none =>
    exact ⟨.literal before, plain, ⟨before, rfl⟩,
      .inr ⟨_, _, .undefined named found behind, by rw [written, String.append_assoc]⟩⟩
  | some value =>
    obtain ⟨t, formed, ⟨out, filled⟩, ends⟩ := exists_cut env behind
    refine ⟨.reference before name t, ⟨plain, named, formed⟩, ⟨before ++ value ++ out, ?_⟩, ?_⟩
    · rw [filled?, found, filled]
      rfl
    · rcases ends with rfl | ⟨e, rest, offends, rfl⟩
      · exact .inl rfl
      · exact .inr ⟨e, rest, offends, by simp only [written, String.append_assoc]⟩
termination_by s.length
decreasing_by
  subst_vars
  have brace : "\x7d".length = 1 := rfl
  simp only [String.length_append, brace]
  omega

/-! ## Expanding a setting -/

/-- A template is filled. -/
theorem expand_written {t : Template} (formed : t.WellFormed) {out : String}
    (filled : t.filled? env = some out) : expand env t.written = .ok out := by
  have ended : ([] : List Char).head? ≠ some '\x7b' := nofun
  rw [expand, ← List.append_nil t.written.toList, expandChars_written formed filled ended]
  simp [Cli.expandChars, Except.map]

/-- Behind a template that can be filled the reference that cannot be expanded is told. -/
theorem expand_offending {t : Template} (formed : t.WellFormed) {out : String}
    (filled : t.filled? env = some out) {e : ExpansionError} {rest : String}
    (offends : Offends env e rest) : expand env (t.written ++ rest) = .error e := by
  have apart : rest.toList.head? ≠ some '\x7b' := by
    rw [offends.head?]
    decide
  rw [expand, String.toList_append, expandChars_written formed filled apart, offends.expandChars]
  rfl

/-- **Expansion is one exact pass.** A setting expands to the text of a template whose literal texts
stand as they are and whose references are replaced by the values of their variables, whatever these
values hold. It fails with an error exactly if the first reference that is no reference to a defined
variable is at fault in this way: nothing closes it, it has no name, or its variable is undefined. -/
theorem expansion_exact (env : Environment) (s : String) :
    (∀ out, expand env s = .ok out ↔
      ∃ t : Template, t.WellFormed ∧ t.filled? env = some out ∧ s = t.written) ∧
    ∀ e, expand env s = .error e ↔
      ∃ (t : Template) (rest : String), t.WellFormed ∧ (t.filled? env).isSome ∧
        Offends env e rest ∧ s = t.written ++ rest := by
  obtain ⟨t, formed, ⟨found, filled⟩, ends⟩ := exists_cut env s
  constructor
  · intro out
    constructor
    · intro expanded
      rcases ends with rfl | ⟨e, rest, offends, rfl⟩
      · cases (expand_written formed filled).symm.trans expanded
        exact ⟨t, formed, filled, rfl⟩
      · cases (expand_offending formed filled offends).symm.trans expanded
    · rintro ⟨t, formed, filled, rfl⟩
      exact expand_written formed filled
  · intro e
    constructor
    · intro failed
      rcases ends with rfl | ⟨e, rest, offends, rfl⟩
      · cases (expand_written formed filled).symm.trans failed
      · cases (expand_offending formed filled offends).symm.trans failed
        exact ⟨t, rest, formed, by rw [filled]; rfl, offends, rfl⟩
    · rintro ⟨t, rest, formed, defined, offends, rfl⟩
      obtain ⟨out, filled⟩ := Option.isSome_iff_exists.1 defined
      exact expand_offending formed filled offends

-- Only a brace makes a dollar open a reference, and a value that looks like one stays.
example : expand (fun _ => some "$\x7bB\x7d") "$$\x7bA\x7d-$" = .ok "$$\x7bB\x7d-$" := by decide

end Template

end SqlFragments.Cli
