import SqlFragments.Text.Printable

/-!
# Quoted texts

Two ways to write a text between double quotes. `quoted` is the form that messages and dumps use: it
names the usual controls, gives other hidden characters by their code point and leaves the single
quote alone. `jsonString` is the string form of JSON: it escapes what JSON requires and nothing
else.
-/

namespace SqlFragments.Text

/-- A number in base sixteen, lower case, without leading zeros. -/
def hex (n : Nat) : String :=
  String.ofList (Nat.toDigits 16 n)

/-- How a quoted text shows one character. -/
def quotedChar (c : Char) : String :=
  if c = '"' then "\\\""
  else if c = '\\' then "\\\\"
  else if c = '\n' then "\\n"
  else if c = '\r' then "\\r"
  else if c = '\t' then "\\t"
  else if c.toNat = 0 then "\\0"
  else if isShown c then c.toString
  else "\\u\x7b" ++ hex c.toNat ++ "\x7d"

/-- The text between double quotes, as messages and dumps show it. -/
def quoted (s : String) : String :=
  "\"" ++ String.join (s.toList.map quotedChar) ++ "\""

/-- How a JSON string writes one character. -/
def jsonChar (c : Char) : String :=
  if c = '"' then "\\\""
  else if c = '\\' then "\\\\"
  else if c.toNat = 8 then "\\b"
  else if c = '\t' then "\\t"
  else if c = '\n' then "\\n"
  else if c.toNat = 12 then "\\f"
  else if c = '\r' then "\\r"
  else if c.toNat < 0x20 then
    "\\u00" ++ (if c.toNat < 0x10 then "0" else "") ++ hex c.toNat
  else c.toString

/-- The text as a JSON string. -/
def jsonString (s : String) : String :=
  "\"" ++ String.join (s.toList.map jsonChar) ++ "\""

end SqlFragments.Text
