import SqlFragments.Query.Slot

/-!
# Dialects

What the four known databases write differently: how a name is quoted, how a page of rows is asked
for, how rows are locked, how dates are compared, and the statements that some of them lack. All
texts that a dialect function takes are written already.

A name is quoted by writing its closing quote twice inside it, so a quoted name ends where the
dialect closes it (`quote_chars`).
-/

namespace SqlFragments

/-- A database whose statements can be written. -/
inductive Dialect where
  | mysql
  | postgres
  | sqlite
  | sqlServer
  deriving DecidableEq, Repr

/-- A statement with its values. -/
structure Statement where
  sql : String
  bindings : List Value
  deriving DecidableEq, Repr

namespace Dialect

/-- The driver of the dialect. -/
def driver : Dialect → Driver
  | mysql => .mysql
  | postgres => .postgres
  | sqlite => .sqlite
  | sqlServer => .sqlServer

/-- The dialect of a driver; only the four known drivers have one. -/
def ofDriver : Driver → Except Error Dialect
  | .mysql => .ok mysql
  | .postgres => .ok postgres
  | .sqlite => .ok sqlite
  | .sqlServer => .ok sqlServer
  | .other name => .error (.unsupported (.other name) .compilation)

theorem ofDriver_driver (d : Dialect) : ofDriver d.driver = .ok d := by
  cases d <;> rfl

/-- The error that the dialect lacks a feature. -/
def lacks (d : Dialect) (feature : Feature) : Error :=
  .unsupported d.driver feature

/-- The character that opens a quoted name. -/
def opening : Dialect → Char
  | mysql => '`'
  | postgres | sqlite => '"'
  | sqlServer => '['

/-- The character that closes a quoted name. -/
def closing : Dialect → Char
  | mysql => '`'
  | postgres | sqlite => '"'
  | sqlServer => ']'

/-- The characters of a quoted name. -/
def quoteChars (d : Dialect) (name : List Char) : List Char :=
  d.opening :: Text.doubled d.closing name ++ [d.closing]

/-- A quoted name. -/
def quote (d : Dialect) (name : String) : String :=
  String.ofList (d.quoteChars name.toList)

theorem quote_chars (d : Dialect) (name : String) :
    (d.quote name).toList = d.opening :: Text.doubled d.closing name.toList ++ [d.closing] := by
  simp [quote, quoteChars]

/-- Whether a backslash in a string literal takes away the meaning of the next character. -/
def escapesBackslash : Dialect → Bool
  | mysql => true
  | _ => false

/-- The pattern that SQLite formats a part of a date with. -/
def datePattern : DatePart → String
  | .date => "%Y-%m-%d"
  | .time => "%H:%M:%S"
  | .day => "%d"
  | .month => "%m"
  | .year => "%Y"

/-- The comparison of a part of a date with a value. -/
def dateWhere (d : Dialect) (part : DatePart) (column operator value : String) : String :=
  let compared (left : String) : String := left ++ " " ++ operator ++ " " ++ value
  let called : String := compared (part.word ++ "(" ++ column ++ ")")
  match d, part with
  | mysql, _ => called
  | postgres, .date => compared (column ++ "::date")
  | postgres, .time => compared (column ++ "::time")
  | postgres, _ => compared ("extract(" ++ part.word ++ " from " ++ column ++ ")")
  | sqlite, _ =>
    "strftime('" ++ datePattern part ++ "', " ++ column ++ ") " ++ operator ++ " cast(" ++ value ++
      " as text)"
  | sqlServer, .date => compared ("cast(" ++ column ++ " as date)")
  | sqlServer, .time => compared ("cast(" ++ column ++ " as time)")
  | sqlServer, _ => called

/-- The page that follows `select`: the first rows on SQL Server. -/
def top : Dialect → Option UInt64 → Option UInt64 → Option String
  | sqlServer, some limit, none => some ("top " ++ toString limit.toNat)
  | _, _, _ => none

/-- A limit and an offset, as far as they are given. -/
def limitThenOffset (limit offset : Option String) : String :=
  (match limit with | some n => " limit " ++ n | none => "") ++
  (match offset with | some n => " offset " ++ n | none => "")

/-- The page at the end of a query. Databases that know no offset without a limit get one that
leaves nothing out; SQL Server pages only what is ordered, and gets an order without effect. -/
def limitOffset (d : Dialect) (limit offset : Option UInt64) (ordered : Bool) : String :=
  let limitText := limit.map fun n => toString n.toNat
  let offsetText := offset.map fun n => toString n.toNat
  match d, limit, offset with
  | mysql, none, some _ => limitThenOffset (some "18446744073709551615") offsetText
  | sqlite, none, some _ => limitThenOffset (some "-1") offsetText
  | sqlServer, none, none => ""
  | sqlServer, _, _ =>
    (if ordered then "" else " order by (select 0)") ++
      " offset " ++ offsetText.getD "0" ++ " rows" ++
      (match limitText with
        | some n => " fetch next " ++ n ++ " rows only"
        | none => "")
  | _, _, _ => limitThenOffset limitText offsetText

/-- The lock at the end of a query; SQLite has none and SQL Server writes it after the table. -/
def lock : Dialect → Lock → String
  | sqlite, _ | sqlServer, _ => ""
  | _, .update => " for update"
  | mysql, .shared => " lock in share mode"
  | postgres, .shared => " for share"
  | _, .raw sql => " " ++ sql

/-- The lock after the table of a query. -/
def tableHint : Dialect → Lock → Option String
  | sqlServer, .update => some "with(rowlock,updlock,holdlock)"
  | sqlServer, .shared => some "with(rowlock,holdlock)"
  | sqlServer, .raw sql => some sql
  | _, _ => none

/-- A member of a union. -/
def wrapUnion (d : Dialect) (sql : String) : String :=
  match d with
  | mysql | postgres => "(" ++ sql ++ ")"
  | sqlite => "select * from (" ++ sql ++ ")"
  | sqlServer => "select * from (" ++ sql ++ ") as " ++ d.quote "temp_table"

/-- The question whether a query has rows. -/
def hasRows (d : Dialect) (select : String) : String :=
  match d with
  | sqlServer =>
    "select case when exists(" ++ select ++ ") then 1 else 0 end as " ++ d.quote "exists"
  | _ => "select exists(" ++ select ++ ") as " ++ d.quote "exists"

/-- The insertion of a row of defaults. -/
def emptyInsert (d : Dialect) (table : String) : String :=
  match d with
  | mysql => "insert into " ++ table ++ " () values ()"
  | _ => "insert into " ++ table ++ " default values"

/-- An insertion that leaves out rows that are there already. -/
def insertOrIgnore (d : Dialect) (insert : String) : Except Error String :=
  match d with
  | mysql => .ok (Text.replaceFirst "insert" "insert ignore" insert)
  | postgres => .ok (insert ++ " on conflict do nothing")
  | sqlite => .ok (Text.replaceFirst "insert" "insert or ignore" insert)
  | sqlServer => .error (d.lacks .insertOrIgnore)

/-- An insertion that reports the new key where the database can. -/
def insertGetId (d : Dialect) (insert sequence : String) : String :=
  match d with
  | postgres => insert ++ " returning " ++ d.quote sequence
  | _ => insert

/-- Assignments of what the inserted row would have set, then of given values. -/
def conflictSets (inserted : String → String) (update : List String)
    (assignments : List (String × String)) : String :=
  Text.commaList ((update.map fun c => c ++ " = " ++ inserted c) ++
    assignments.map fun (c, v) => c ++ " = " ++ v)

/-- An insertion that changes rows that are there already. -/
def upsert (d : Dialect) (insert : String) (uniqueBy update : List String)
    (assignments : List (String × String)) : Except Error String :=
  match d with
  | mysql =>
    .ok (insert ++ " on duplicate key update " ++
      conflictSets (fun c => "values(" ++ c ++ ")") update assignments)
  | postgres | sqlite =>
    .ok (insert ++ " on conflict (" ++ Text.commaList uniqueBy ++ ") do update set " ++
      conflictSets (fun c => d.quote "excluded" ++ "." ++ c) update assignments)
  | sqlServer => .error (d.lacks .upsert)

/-- Whether rows may be changed through joins, in an order and up to a limit. -/
def allowsJoinedMutation : Dialect → Bool
  | mysql => true
  | _ => false

/-- Whether a key may stand in a JSON path: it has a character, and none that would end the path or
the literal around it. -/
def isJsonKey (key : List Char) : Bool :=
  !key.isEmpty && key.all fun c => c != '\'' && c != '"' && c != '\\'

/-- A key of a JSON path. -/
def jsonKey (key : String) : Except Error String :=
  if isJsonKey key.toList then .ok ("\"" ++ key ++ "\"") else .error (.invalid (.jsonKey key))

/-- The keys of a JSON path; the first that may not stand in one is the error. -/
def jsonKeys : List String → Except Error (List String)
  | [] => .ok []
  | key :: rest => do
    let first ← jsonKey key
    let others ← jsonKeys rest
    return first :: others

/-- The assignment of a value inside a JSON column. -/
def jsonUpdate (d : Dialect) (column : String) (path : List String) (value : String) :
    Except Error String :=
  match d with
  | mysql => do
    let keys ← jsonKeys path
    return column ++ " = json_set(" ++ column ++ ", '$." ++ Text.separated "." keys ++ "', " ++
      value ++ ")"
  | postgres => do
    let keys ← jsonKeys path
    return column ++ " = jsonb_set(" ++ column ++ "::jsonb, '\x7b" ++ Text.separated "," keys ++
      "\x7d', " ++ value ++ ")"
  | _ => .error (d.lacks .jsonUpdate)

/-- The statements that empty a table, given quoted and as its name. -/
def truncate (d : Dialect) (table name : String) : List Statement :=
  match d with
  | postgres => [⟨"truncate " ++ table ++ " restart identity cascade", []⟩]
  | sqlite =>
    [⟨"delete from sqlite_sequence where name = ?", [.text name]⟩, ⟨"delete from " ++ table, []⟩]
  | _ => [⟨"truncate table " ++ table, []⟩]

end Dialect

end SqlFragments
