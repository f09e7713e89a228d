import SqlFragments.Calendar
import SqlFragments.Number.Layout
import SqlFragments.Text.Quoted

/-!
# Values

The scalars that are bound to the placeholders of a statement, and their three texts: `text` for
people, `json` for reports and `dump` for the dump of an expression.
-/

namespace SqlFragments

/-- A scalar bound to a placeholder. -/
inductive Value where
  | null
  | bool (b : Bool)
  | int (n : Int64)
  | float (x : Number.Double)
  | text (s : String)
  | timestamp (t : Timestamp)
  | date (d : Date)
  deriving DecidableEq, Repr, Inhabited

namespace Value

/-- Whether the value is the SQL NULL. -/
def isNull : Value → Bool
  | null => true
  | _ => false

/-- The text that the value holds. -/
def text? : Value → Option String
  | text s => some s
  | _ => none

/-- The whole number that the value holds. -/
def int? : Value → Option Int64
  | int n => some n
  | _ => none

/-- The text of a truth value. -/
def boolText (b : Bool) : String := if b then "true" else "false"

/-- The value as people read it. -/
def display : Value → String
  | null => "NULL"
  | bool b => boolText b
  | int n => toString n.toInt
  | float x => Number.Layout.plain.text x
  | text s => s
  | timestamp t => t.text " "
  | date d => d.text

/-- The value as JSON; JSON has no text for infinities and for what is not a number. -/
def json : Value → String
  | null => "null"
  | bool b => boolText b
  | int n => toString n.toInt
  | float x =>
    match x.read with
    | .finite _ _ _ => Number.Layout.json.text x
    | _ => "null"
  | text s => Text.jsonString s
  | timestamp t => Text.jsonString (t.text "T")
  | date d => Text.jsonString d.text

/-- The value with its kind. -/
def dump : Value → String
  | null => "Null"
  | bool b => "Bool(" ++ boolText b ++ ")"
  | int n => "Int(" ++ toString n.toInt ++ ")"
  | float x => "Float(" ++ Number.Layout.dump.text x ++ ")"
  | text s => "Text(" ++ Text.quoted s ++ ")"
  | timestamp t => "Timestamp(" ++ t.text "T" ++ ")"
  | date d => "Date(" ++ d.text ++ ")"

end Value

end SqlFragments
