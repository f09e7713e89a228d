import SqlFragments.Value

/-!
# Bindings

What a placeholder gets when a statement's bindings are evaluated: a literal value, or a deferred
one that is read from a named cell at that moment. A counting binding also moves its cell on, so how
often and in which order bindings are evaluated shows in the cells.

`evaluateAll` evaluates a list in order, one value for each binding (`length_evaluateAll`).
-/

namespace SqlFragments

/-- The named cells that deferred bindings read, the latest setting of a name first. -/
structure Cells where
  entries : List (String × Value) := []
  deriving DecidableEq, Inhabited

namespace Cells

/-- The value of a cell; a cell that was never set is NULL. -/
def get (cells : Cells) (name : String) : Value :=
  (cells.entries.lookup name).getD .null

/-- The cells with one set to a value. -/
def set (cells : Cells) (name : String) (v : Value) : Cells :=
  ⟨(name, v) :: cells.entries.filter (fun entry => entry.1 != name)⟩

theorem get_set_self (cells : Cells) (name : String) (v : Value) :
    (cells.set name v).get name = v := by
  simp [get, set]

/-- Setting a cell leaves the others alone. -/
theorem get_set_ne (cells : Cells) (v : Value) {name other : String} (h : other ≠ name) :
    (cells.set name v).get other = cells.get other := by
  have hne : (other == name) = false := by simpa using h
  simp only [get, set, List.lookup_cons, hne]
  congr 1
  induction cells.entries with
  | nil => rfl
  | cons entry rest ih =>
    obtain ⟨n, w⟩ := entry
    by_cases hn : n = name
    · subst hn
      simp [List.lookup_cons, hne, ih]
    · simp [List.lookup_cons, hn, ih]

end Cells

/-- How a deferred binding reads its cell. -/
inductive Deferred where
  | reading (cell : String)
  | counting (cell : String)
  deriving DecidableEq, Repr

/-- A value for a placeholder. -/
inductive Binding where
  | literal (v : Value)
  | deferred (source : Deferred)
  deriving DecidableEq, Repr

/-- Work on the cells. -/
abbrev Evaluation := StateM Cells

namespace Binding

/-- Whether the binding is the literal NULL. -/
def isNull : Binding → Bool
  | literal v => v.isNull
  | deferred _ => false

/-- The value of a binding now. A counting binding yields its cell and then adds one to it, if it
holds a whole number. -/
def evaluate : Binding → Evaluation Value
  | literal v => pure v
  | deferred (.reading cell) => fun cells => (cells.get cell, cells)
  | deferred (.counting cell) => fun cells =>
    match cells.get cell with
    | .int n => (.int n, cells.set cell (.int (n + 1)))
    | v => (v, cells)

/-- The values of the bindings, evaluated in order. -/
def evaluateAll : List Binding → Evaluation (List Value)
  | [] => pure []
  | b :: bs => do
    let v ← b.evaluate
    let vs ← evaluateAll bs
    return v :: vs

theorem length_evaluateAll (bs : List Binding) (cells : Cells) :
    ((evaluateAll bs).run cells).1.length = bs.length := by
  induction bs generalizing cells with
  | nil => rfl
  | cons b bs ih => exact congrArg Nat.succ (ih _)

/-- The binding with its kind; what a deferred one yields is not shown. -/
def dump : Binding → String
  | literal v => "Value(" ++ v.dump ++ ")"
  | deferred _ => "Deferred(\"<fn>\")"

end Binding

end SqlFragments
