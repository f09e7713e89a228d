import Mathlib.Data.List.Induction
import SqlFragments.Cli.Options

/-!
# Two spellings of an option

An option has its value in the next argument or behind an equals sign. What arguments ask for does not
depend on the options that were set before them: `demand` lists their wishes in order and says how the
reading ends, and `Options.parse_eq` says that the options of a checkup are those of the wishes granted
one after another. Where no option is left without its value, the demands of two lists of arguments
follow one another (`demand_append`).

So two spellings of an option differ only by the value that they set, and only if nothing sets the
option later (`Options.grants_set`). An argument with an equals sign sets the value without what
repeats the option at its beginning (`Argument.of_joined`), which is another value exactly if it begins
so: `spellings_agree_iff` says when the two spellings are parsed alike.
-/

namespace SqlFragments

namespace Cli

/-! ## Values behind an equals sign -/

/-- A word is dropped from the beginning of a text as often as it stands there. -/
theorem dropRepeated_cases {word : List Char} (filled : word ≠ []) {steps : Nat} {cs : List Char}
    (enough : cs.length ≤ steps) :
    ¬ word <+: dropRepeated word steps cs ∧
      ∃ times, cs = (List.replicate times word).flatten ++ dropRepeated word steps cs := by
  induction steps generalizing cs with
  | zero =>
    obtain rfl := List.length_eq_zero_iff.1 (Nat.le_zero.1 enough)
    exact ⟨by simpa [dropRepeated] using filled, 0, rfl⟩
  | succ steps ih =>
    rw [dropRepeated]
    cases found : Text.after? word cs with
    | none => exact ⟨Text.after?_eq_none_iff.1 found, 0, rfl⟩
    | some rest =>
      obtain rfl := Text.after?_eq_some_iff.1 found
      have shorter : rest.length ≤ steps := by
        have := List.length_pos_iff.2 filled
        rw [List.length_append] at enough
        omega
      obtain ⟨other, times, cut⟩ := ih shorter
      refine ⟨other, times + 1, ?_⟩
      rw [List.replicate_succ, List.flatten_cons, List.append_assoc, ← cut]

/-- The beginning of an argument that has the value of an option behind an equals sign. -/
def Flag.opening (flag : Flag) : String := flag.name ++ "="

/-- A value without what repeats the option at its beginning. -/
def Flag.kept (flag : Flag) (value : String) : String :=
  .ofList (dropRepeated flag.opening.toList value.toList.length value.toList)

/-- What is kept of a value does not begin with the option, and the option repeated stands in front of
it. -/
theorem Flag.kept_cases (flag : Flag) (value : String) :
    ¬ flag.opening.toList <+: (flag.kept value).toList ∧
      ∃ times, value.toList =
        (List.replicate times flag.opening.toList).flatten ++ (flag.kept value).toList := by
  have filled : flag.opening.toList ≠ [] := by cases flag <;> decide
  rw [kept, String.toList_ofList]
  exact dropRepeated_cases filled (Nat.le_refl _)

/-- A value is kept exactly if it does not begin with the option. -/
theorem Flag.kept_eq_self_iff {flag : Flag} {value : String} :
    flag.kept value = value ↔ ¬ flag.opening.toList <+: value.toList := by
  obtain ⟨other, times, cut⟩ := flag.kept_cases value
  constructor
  · intro same
    rwa [same] at other
  · intro apart
    cases times with
    | zero =>
      rw [List.replicate_zero, List.flatten_nil, List.nil_append] at cut
      exact String.toList_inj.1 cut.symm
    | succ times =>
      rw [List.replicate_succ, List.flatten_cons, List.append_assoc] at cut
      exact absurd ⟨_, cut.symm⟩ apart

/-! ## Arguments -/

/-- What an argument is that is no value of the option before it. -/
inductive Argument where
  | help
  | json
  | option (flag : Flag)
  | joined (flag : Flag) (value : String)
  | unknown
  deriving DecidableEq, Repr

/-- Tells what an argument is. -/
def Argument.of (argument : String) : Argument :=
  if argument = "-h" ∨ argument = "--help" then .help
  else if argument = "--json" then .json
  else
    match Flag.all.find? (·.name = argument) with
    | some flag => .option flag
    | none =>
      match joined? argument with
      | some (flag, value) => .joined flag value
      | none => .unknown

theorem Argument.of_name (flag : Flag) : of flag.name = .option flag := by
  cases flag <;> rfl

/-- No option begins like another one. -/
theorem Flag.eq_of_opening {f flag : Flag} {value : String}
    (begins : f.opening.toList <+: (flag.opening ++ value).toList) : f = flag := by
  rw [String.toList_append] at begins
  have related := List.prefix_or_prefix_of_prefix begins (List.prefix_append _ _)
  revert related
  cases f <;> cases flag <;> decide

theorem joinedValue?_opening (f flag : Flag) (value : String) :
    joinedValue? f (flag.opening ++ value) = if f = flag then some (flag.kept value) else none := by
  have word : f.name.toList ++ ['='] = f.opening.toList := by
    rw [Flag.opening, String.toList_append]
    rfl
  unfold joinedValue?
  simp only [word]
  split
  · next same =>
    rw [same, String.toList_append, Text.after?_append]
    rfl
  · next other =>
    rw [Text.after?_eq_none_iff.2 fun begins => other (Flag.eq_of_opening begins)]
    rfl

theorem joined?_opening (flag : Flag) (value : String) :
    joined? (flag.opening ++ value) = some (flag, flag.kept value) := by
  simp only [joined?, joinedValue?_opening]
  cases flag <;> rfl

/-- An argument with an equals sign is none without one. -/
theorem Flag.opening_append_ne {flag : Flag} {value other : String} (plain : '=' ∉ other.toList) :
    flag.opening ++ value ≠ other := by
  rintro rfl
  simp [opening] at plain

theorem Argument.of_joined (flag : Flag) (value : String) :
    of (flag.opening ++ value) = .joined flag (flag.kept value) := by
  have unnamed : Flag.all.find? (·.name = flag.opening ++ value) = none := by
    rw [List.find?_eq_none]
    intro f _ same
    refine Flag.opening_append_ne ?_ (of_decide_eq_true same).symm
    cases f <;> decide
  unfold of
  rw [if_neg, if_neg (Flag.opening_append_ne (by decide)), unnamed, joined?_opening]
  rintro (short | long)
  · exact Flag.opening_append_ne (by decide) short
  · exact Flag.opening_append_ne (by decide) long

/-! ## What arguments ask for -/

/-- One thing that is asked of a checkup. -/
inductive Wish where
  | json
  | setting (flag : Flag) (value : String)
  deriving DecidableEq, Repr

/-- How the reading of arguments ends: with the last one, at an option that is left without its value,
or before. -/
inductive Stop where
  | complete
  | waiting (flag : Flag)
  | help
  | unknown (argument : String)
  deriving DecidableEq, Repr

/-- What arguments ask for, in order, and how their reading ends. -/
structure Demand where
  wishes : List Wish
  stop : Stop
  deriving DecidableEq, Repr

/-- A wish in front of others. -/
def Demand.cons (wish : Wish) (d : Demand) : Demand := { d with wishes := wish :: d.wishes }

/-- What arguments ask for. -/
def demand : List String → Demand
  | [] => ⟨[], .complete⟩
  | argument :: rest =>
    match Argument.of argument with
    | .help => ⟨[], .help⟩
    | .json => (demand rest).cons .json
    | .option flag =>
      match rest with
      | [] => ⟨[], .waiting flag⟩
      | value :: rest => (demand rest).cons (.setting flag value)
    | .joined flag value => (demand rest).cons (.setting flag value)
    | .unknown => ⟨[], .unknown argument⟩

/-- The options with a wish granted. -/
def Options.grant (o : Options) : Wish → Options
  | .json => { o with json := true }
  | .setting flag value => o.set flag value

/-- What is answered to a demand, with the options that were set before. -/
def Demand.answer (o : Options) (d : Demand) : Except UsageError Command :=
  match d.stop with
  | .complete => .ok (.doctor (d.wishes.foldl Options.grant o))
  | .waiting flag => .error (.missingValue flag)
  | .help => .ok (.help .doctor)
  | .unknown argument => .error (.unknownArgument argument)

/-- One demand behind another, unless the reading ended before. -/
def Demand.followedBy (d e : Demand) : Demand :=
  match d.stop with
  | .complete => ⟨d.wishes ++ e.wishes, e.stop⟩
  | _ => d

/-- Arguments are parsed by what the first one is. -/
theorem Options.parse_cons (o : Options) (argument : String) (rest : List String) :
    o.parse (argument :: rest) =
      match Argument.of argument with
      | .help => .ok (.help .doctor)
      | .json => { o with json := true }.parse rest
      | .option flag =>
        match rest with
        | [] => .error (.missingValue flag)
        | value :: rest => (o.set flag value).parse rest
      | .joined flag value => (o.set flag value).parse rest
      | .unknown => .error (.unknownArgument argument) := by
  unfold Argument.of
  rw [parse.eq_def]
  dsimp only
  by_cases help : argument = "-h" ∨ argument = "--help"
  · rw [if_pos help, if_pos help]
  rw [if_neg help, if_neg help]
  by_cases json : argument = "--json"
  · rw [if_pos json, if_pos json]
  rw [if_neg json, if_neg json]
  cases Flag.all.find? (·.name = argument) with
  | some flag => rfl
  | none => rcases joined? argument with _ | ⟨flag, value⟩ <;> rfl

/-- **Arguments are parsed** to the answer to what they ask for. -/
theorem Options.parse_eq (o : Options) (arguments : List String) :
    o.parse arguments = (demand arguments).answer o := by
  fun_induction demand arguments generalizing o with
  | case1 => rfl
  | case2 argument rest is | case4 argument flag is | case7 argument rest is =>
    rw [parse_cons, is]
    rfl
  | case3 argument rest is ih | case5 argument flag is value rest ih
  | case6 argument rest flag value is ih =>
    rw [parse_cons, is]
    exact ih _

theorem Demand.cons_followedBy (wish : Wish) (d e : Demand) :
    (d.cons wish).followedBy e = (d.followedBy e).cons wish := by
  obtain ⟨wishes, stop⟩ := d
  cases stop <;> rfl

/-- Where no option is left without its value, demands follow one another. -/
theorem demand_append {before : List String} (after : List String)
    (complete : ∀ flag, (demand before).stop ≠ .waiting flag) :
    demand (before ++ after) = (demand before).followedBy (demand after) := by
  fun_induction demand before with
  | case1 => rfl
  | case2 argument rest is | case7 argument rest is =>
    rw [List.cons_append, demand, is]
    rfl
  | case4 argument flag is => exact absurd rfl (complete flag)
  | case3 argument rest is ih | case6 argument rest flag value is ih =>
    rw [List.cons_append, demand, is, Demand.cons_followedBy, ← ih complete]
  | case5 argument flag is value rest ih =>
    rw [List.cons_append, List.cons_append, demand, is, Demand.cons_followedBy, ← ih complete]

theorem demand_joined (flag : Flag) (value : String) (rest : List String) :
    demand ((flag.opening ++ value) :: rest) =
      (demand rest).cons (.setting flag (flag.kept value)) := by
  rw [demand, Argument.of_joined]

theorem demand_apart (flag : Flag) (value : String) (rest : List String) :
    demand (flag.name :: value :: rest) = (demand rest).cons (.setting flag value) := by
  rw [demand, Argument.of_name]

/-! ## What is set later -/

/-- The values that are set for an option, in order. -/
def settings (flag : Flag) (wishes : List Wish) : List String :=
  wishes.filterMap fun
    | .setting f value => if f = flag then some value else none
    | .json => none

namespace Options

/-- The value of an option. -/
def value? (o : Options) : Flag → Option String
  | .config => some o.config
  | .database => o.database
  | .driver => o.driver
  | .serverVersion => o.serverVersion

@[simp] theorem value?_set (o : Options) (flag : Flag) (value : String) :
    (o.set flag value).value? flag = some value := by
  cases flag <;> rfl

theorem value?_set_of_ne (o : Options) {f flag : Flag} (differ : f ≠ flag) (value : String) :
    (o.set f value).value? flag = o.value? flag := by
  cases f <;> cases flag <;> first | rfl | exact absurd rfl differ

@[simp] theorem set_set (o : Options) (flag : Flag) (first last : String) :
    (o.set flag first).set flag last = o.set flag last := by
  cases flag <;> rfl

theorem set_comm (o : Options) {f g : Flag} (differ : f ≠ g) (a b : String) :
    (o.set f a).set g b = (o.set g b).set f a := by
  cases f <;> cases g <;> first | rfl | exact absurd rfl differ

theorem set_inj {o : Options} {flag : Flag} {a b : String} :
    o.set flag a = o.set flag b ↔ a = b := by
  refine ⟨fun same => ?_, fun same => by rw [same]⟩
  have values := congrArg (value? · flag) same
  simpa using values

/-- A setting counts unless the option is set later. -/
theorem grants_set (o : Options) (flag : Flag) (value : String) (wishes : List Wish) :
    wishes.foldl grant (o.set flag value) =
      if settings flag wishes = [] then (wishes.foldl grant o).set flag value
      else wishes.foldl grant o := by
  induction wishes generalizing o with
  | nil => rfl
  | cons wish wishes ih =>
    cases wish with
    | json =>
      have apart : (o.set flag value).grant .json = (o.grant .json).set flag value := by
        cases flag <;> rfl
      rw [List.foldl_cons, apart, ih]
      rfl
    | setting f later =>
      rw [List.foldl_cons, List.foldl_cons, grant, grant]
      by_cases same : f = flag
      · subst same
        rw [set_set, if_neg (by simp [settings])]
      · rw [set_comm o (Ne.symm same), ih]
        simp [settings, same]

/-- The last setting of an option counts. -/
theorem value?_grants (o : Options) (flag : Flag) (wishes : List Wish) :
    (wishes.foldl grant o).value? flag = (settings flag wishes).getLast?.or (o.value? flag) := by
  induction wishes using List.reverseRecOn with
  | nil => rfl
  | append_singleton wishes wish ih =>
    rw [List.foldl_append, List.foldl_cons, List.foldl_nil, settings, List.filterMap_append]
    cases wish with
    | json =>
      have other : ((wishes.foldl grant o).grant .json).value? flag =
          (wishes.foldl grant o).value? flag := by
        cases flag <;> rfl
      rw [other, ih]
      simp [settings]
    | setting f value =>
      rw [grant]
      by_cases same : f = flag
      · subst same
        simp
      · rw [value?_set_of_ne _ same, ih]
        simp [settings, same]

end Options

/-! ## Two spellings -/

namespace Demand

variable (o : Options) (d : Demand) {flag : Flag}

theorem answer_followedBy (e : Demand) :
    (d.followedBy e).answer o =
      if d.stop = .complete then e.answer (d.wishes.foldl Options.grant o) else d.answer o := by
  obtain ⟨wishes, stop⟩ := d
  cases stop with
  | complete =>
    rw [if_pos rfl]
    simp [followedBy, answer, List.foldl_append]
  | waiting | help | unknown => rfl

/-- Two values of an option are answered alike if the reading ends early, if the option is set later,
or if they are the same. -/
theorem answer_set_eq_iff {a b : String} :
    d.answer (o.set flag a) = d.answer (o.set flag b) ↔
      d.stop ≠ .complete ∨ settings flag d.wishes ≠ [] ∨ a = b := by
  obtain ⟨wishes, stop⟩ := d
  cases stop with
  | complete =>
    by_cases none : settings flag wishes = [] <;>
      simp [answer, Options.grants_set, none, Options.set_inj]
  | waiting | help | unknown => exact iff_of_true rfl (.inl nofun)

/-- Options of a checkup are read from all arguments. -/
theorem complete_of_answer {settled : Options} (answered : d.answer o = .ok (.doctor settled)) :
    d.stop = .complete := by
  obtain ⟨wishes, stop⟩ := d
  cases stop with
  | complete => rfl
  | waiting | help | unknown => cases answered

/-- An option that is set has this value in the end, unless it is set later. -/
theorem value_of_answer {value : String} {settled : Options}
    (answered : d.answer (o.set flag value) = .ok (.doctor settled)) :
    settled.value? flag = some ((settings flag d.wishes).getLast?.getD value) := by
  obtain ⟨wishes, stop⟩ := d
  cases stop with
  | complete =>
    cases answered
    rw [Options.value?_grants, Options.value?_set]
    cases (settings flag wishes).getLast? <;> rfl
  | waiting | help | unknown => cases answered

end Demand

/-- **The two spellings agree** unless the value begins with the option. Behind arguments that leave no
option without its value, an option with its value in the next argument is set to exactly this value,
unless it is set later, and one with its value behind an equals sign to what is left when the option
repeated is dropped from the value. So they are parsed to the same command or error exactly if the
value does not count, because the reading ends before all arguments are read or the option is set
later, or if it does not begin with the option and the sign. -/
theorem spellings_agree_iff (flag : Flag) (value : String) (before after : List String)
    (complete : ∀ f, (demand before).stop ≠ .waiting f) :
    let parsed (spelling : List String) :=
      Command.parse ("doctor" :: (before ++ (spelling ++ after)))
    let joined := [flag.name ++ "=" ++ value]
    let apart := [flag.name, value]
    let later := settings flag (demand after).wishes
    let word := (flag.name ++ "=").toList
    (parsed joined = parsed apart ↔
      (demand before).stop ≠ .complete ∨ (demand after).stop ≠ .complete ∨ later ≠ [] ∨
        ¬ word <+: value.toList) ∧
    (∀ o, parsed apart = .ok (.doctor o) →
      o.value? flag = some (later.getLast?.getD value)) ∧
    ∃ kept : String, ¬ word <+: kept.toList ∧
      (∃ times, value.toList = (List.replicate times word).flatten ++ kept.toList) ∧
      ∀ o, parsed joined = .ok (.doctor o) →
        o.value? flag = some (later.getLast?.getD kept) := by
  intro parsed joined apart later word
  let set (v : String) : Options := ((demand before).wishes.foldl Options.grant {}).set flag v
  -- What is parsed for a spelling depends on the value that it sets, and on nothing else of it.
  have answered (spelling : List String) {v : String}
      (asked : demand (spelling ++ after) = (demand after).cons (.setting flag v)) :
      parsed spelling = if (demand before).stop = .complete then (demand after).answer (set v)
        else (demand before).answer {} := by
    change Options.parse {} _ = _
    rw [Options.parse_eq, demand_append _ complete, Demand.answer_followedBy, asked]
    rfl
  have settled (spelling : List String) {v : String} {o : Options}
      (asked : demand (spelling ++ after) = (demand after).cons (.setting flag v))
      (parsed : parsed spelling = .ok (.doctor o)) :
      o.value? flag = some (later.getLast?.getD v) := by
    rw [answered spelling asked] at parsed
    split at parsed
    · exact Demand.value_of_answer _ _ parsed
    · next early => exact absurd (Demand.complete_of_answer _ _ parsed) early
  have together := demand_joined flag value after
  have separate := demand_apart flag value after
  refine ⟨?_, fun o => settled apart separate, flag.kept value, (flag.kept_cases value).1,
    (flag.kept_cases value).2, fun o => settled joined together⟩
  rw [answered joined together, answered apart separate]
  by_cases reached : (demand before).stop = .complete
  · rw [if_pos reached, if_pos reached, Demand.answer_set_eq_iff, Flag.kept_eq_self_iff]
    simp only [reached, ne_eq, not_true, false_or]
    rfl
  · rw [if_neg reached, if_neg reached]
    exact iff_of_true rfl (.inl reached)

/-- Behind an option whose value looks like another one, the repeated option makes a difference, and a
value that looks like another option does not. -/
theorem repeatedDriver_differs_but_json_agrees :
    (∀ f, (demand ["--config", "--help"]).stop ≠ .waiting f) ∧
      Command.parse ["doctor", "--config", "--help", "--driver=--driver=mysql"] ≠
        Command.parse ["doctor", "--config", "--help", "--driver", "--driver=mysql"] ∧
      Command.parse ["doctor", "--config", "--help", "--driver=--json"] =
        Command.parse ["doctor", "--config", "--help", "--driver", "--json"] := by
  have complete : ∀ f, (demand ["--config", "--help"]).stop ≠ .waiting f := by
    have read : (demand ["--config", "--help"]).stop = .complete := by decide
    rw [read]
    exact nofun
  refine ⟨complete, fun same => ?_, ?_⟩
  · have apart := (spellings_agree_iff .driver "--driver=mysql" _ [] complete).1.1 same
    revert apart
    decide
  · have other : ¬ (Flag.driver.name ++ "=").toList <+: "--json".toList := by decide
    exact (spellings_agree_iff .driver "--json" _ [] complete).1.2 (.inr (.inr (.inr other)))

end Cli

end SqlFragments
