import SqlFragments.Value

/-!
# Column encodings

How a value is written to a Postgres column. A value travels as a `Wire`, a scalar of a kind that some
columns take; it is put behind what was written before, or refused (`WireFormat.scalar`). Whole numbers
are narrowed to the column's width first, and a `Whole` fits its width, so what is written is never
another number.

Which kinds a column takes and which bytes a scalar has there is up to a `WireFormat`.
`WireFormat.binary` is that of Postgres, with the most significant byte first; `length_bigEndian` fixes
how many bytes a number takes.
-/

namespace SqlFragments

/-- A type of column; those that no value can be written to are known by name only. -/
inductive ColumnType where
  | bool
  | int2
  | int4
  | int8
  | float4
  | float8
  | text
  | varchar
  | bpchar
  | name
  | unknown
  | citext
  | ltree
  | lquery
  | ltxtquery
  | timestamp
  | date
  | other (name : String)
  deriving DecidableEq, Repr

namespace ColumnType

/-- The type of a name. -/
def ofName : String → ColumnType
  | "bool" => bool
  | "int2" => int2
  | "int4" => int4
  | "int8" => int8
  | "float4" => float4
  | "float8" => float8
  | "text" => text
  | "varchar" => varchar
  | "bpchar" => bpchar
  | "name" => name
  | "unknown" => unknown
  | "citext" => citext
  | "ltree" => ltree
  | "lquery" => lquery
  | "ltxtquery" => ltxtquery
  | "timestamp" => timestamp
  | "date" => date
  | custom => other custom

/-- Whether texts are written to the column with the version of their format in front. -/
def isVersioned : ColumnType → Bool
  | ltree | lquery | ltxtquery => true
  | _ => false

/-- Whether the column holds text. -/
def isText : ColumnType → Bool
  | text | varchar | bpchar | name | unknown | citext => true
  | column => column.isVersioned

end ColumnType

/-- Why a value is not written. -/
inductive EncodingError where
  | wrongType
  | outOfRange
  | tooLarge
  deriving DecidableEq, Repr

/-! ## Bytes -/

/-- The number modulo `256 ^ width` in `width` bytes, most significant first. -/
def bigEndian : Nat → Nat → List UInt8
  | 0, _ => []
  | width + 1, n => .ofNat (n / Nat.pow 256 width % 256) :: bigEndian width n

theorem length_bigEndian (width n : Nat) : (bigEndian width n).length = width := by
  induction width with
  | zero => rfl
  | succ width ih => simp [bigEndian, ih]

/-- The two's complement of a whole number in `width` bytes. -/
def twosComplement (width : Nat) (n : Int) : List UInt8 :=
  bigEndian width (Int.emod n (Nat.pow 256 width : Nat)).toNat

/-- Whether a whole number has a two's complement in `width` bytes. -/
def fitsBytes (width : Nat) (n : Int) : Bool :=
  let half : Nat := Nat.pow 256 width / 2
  n < half && -(half : Int) ≤ n

/-- The bytes of a text. -/
def textBytes (s : String) : List UInt8 := s.toUTF8.data.toList

/-! ## Scalars on their way to a column -/

/-- How many bytes a column has for a whole number. -/
inductive IntWidth where
  | two
  | four
  | eight
  deriving DecidableEq, Repr

namespace IntWidth

/-- The number of bytes. -/
def bytes : IntWidth → Nat
  | two => 2
  | four => 4
  | eight => 8

/-- The column with this width. -/
def column : IntWidth → ColumnType
  | two => .int2
  | four => .int4
  | eight => .int8

end IntWidth

/-- A whole number that fits a width. -/
structure Whole where
  width : IntWidth
  n : Int
  fits : fitsBytes width.bytes n = true
  deriving DecidableEq, Repr

namespace Whole

/-- The number in a width, if it fits. -/
def narrow? (width : IntWidth) (n : Int) : Option Whole :=
  if fits : fitsBytes width.bytes n then some ⟨width, n, fits⟩ else none

/-- A number in eight bytes. -/
def ofInt64 (n : Int64) : Whole where
  width := .eight
  n := n.toInt
  fits := by
    have half : Nat.pow 256 IntWidth.eight.bytes / 2 = 9223372036854775808 := rfl
    have below : n.toInt < 9223372036854775808 := n.toInt_lt
    have above : -9223372036854775808 ≤ n.toInt := n.le_toInt
    rw [fitsBytes, half]
    exact Bool.and_eq_true_iff.2 ⟨decide_eq_true below, decide_eq_true above⟩

end Whole

/-- A kind of scalar that travels to a column. -/
inductive WireKind where
  | bool
  | whole (width : IntWidth)
  | single
  | double
  | text
  | timestamp
  | date
  deriving DecidableEq, Repr

namespace WireKind

/-- All kinds. -/
def all : List WireKind :=
  [bool, whole .two, whole .four, whole .eight, single, double, text, timestamp, date]

end WireKind

/-- A scalar in the form in which it travels to a column. -/
inductive Wire where
  | bool (b : Bool)
  | whole (n : Whole)
  | single (bits : UInt32)
  | double (x : Number.Double)
  | text (s : String)
  | timestamp (t : Timestamp)
  | date (d : Date)

/-- Work that puts bytes behind those that were written before, which stay there if it fails. -/
abbrev Encoder : Type → Type := ExceptT EncodingError (StateM (List UInt8))

namespace Wire

/-- The kind of the scalar. -/
def kind : Wire → WireKind
  | bool _ => .bool
  | whole n => .whole n.width
  | single _ => .single
  | double _ => .double
  | text _ => .text
  | timestamp _ => .timestamp
  | date _ => .date

/-- The bytes of a count of days or microseconds, which may be too large for its width. -/
def countBytes (width : Nat) (n : Int) : Except EncodingError (List UInt8) :=
  if fitsBytes width n then .ok (twosComplement width n) else .error .tooLarge

end Wire

/-- A format of scalars in columns: which kinds of scalars a column takes, and the bytes of a scalar
there. -/
structure WireFormat where
  accepts : WireKind → ColumnType → Bool
  bytes : Wire → ColumnType → Except EncodingError (List UInt8)

namespace WireFormat

variable (f : WireFormat)

/-- Whether the column takes scalars of some kind. -/
def takes (column : ColumnType) : Bool :=
  WireKind.all.any (f.accepts · column)

/-- Writes a scalar to a column that takes its kind. -/
def scalar (x : Wire) (column : ColumnType) : Encoder Unit :=
  if f.accepts x.kind column then
    match f.bytes x column with
    | .ok bytes => modify (· ++ bytes)
    | .error e => throw e
  else throw .wrongType

/-- What the format is known for: a column of a width takes whole numbers of this width and no other
column does, in as many bytes and as a two's complement, and columns of text take texts as they
are. -/
structure Documented : Prop where
  whole_accepted : ∀ width column, f.accepts (.whole width) column = true ↔ column = width.column
  whole_bytes : ∀ n : Whole,
    f.bytes (.whole n) n.width.column = .ok (twosComplement n.width.bytes n.n)
  text_accepted : ∀ column, column = .text ∨ column = .varchar → f.accepts .text column = true
  text_bytes : ∀ s column, column = .text ∨ column = .varchar →
    f.bytes (.text s) column = .ok (textBytes s)

/-- The binary format of Postgres. A timestamp is counted in microseconds, cut toward the midnight
that began 2000, and a date in days from then. -/
def binary : WireFormat where
  accepts
    | .bool, column => column == .bool
    | .whole width, column => column == width.column
    | .single, column => column == .float4
    | .double, column => column == .float8
    | .text, column => column.isText
    | .timestamp, column => column == .timestamp
    | .date, column => column == .date
  bytes
    | .bool b, _ => .ok [if b then 1 else 0]
    | .whole n, _ => .ok (twosComplement n.width.bytes n.n)
    | .single bits, _ => .ok (bigEndian 4 bits.toNat)
    | .double x, _ => .ok (bigEndian 8 x.bits.toNat)
    | .text s, column => .ok (if column.isVersioned then 1 :: textBytes s else textBytes s)
    | .timestamp t, _ => Wire.countBytes 8 (Int.tdiv t.sinceEpoch 1000)
    | .date d, _ => Wire.countBytes 4 d.dayNumber

theorem documented_binary : binary.Documented where
  whole_accepted _ _ := beq_iff_eq
  whole_bytes _ := rfl
  text_accepted := by
    rintro _ (rfl | rfl) <;> rfl
  text_bytes := by
    rintro s _ (rfl | rfl) <;> rfl

end WireFormat

/-- Whether values can be written to the column. -/
def ColumnType.accepts (column : ColumnType) : Bool := WireFormat.binary.takes column

/-! ## Values -/

/-- Whether something was written for a value; nothing is written for the SQL NULL. -/
inductive Presence where
  | null
  | present
  deriving DecidableEq, Repr

/-- What is written for a value: the SQL NULL or bytes. -/
inductive Encoded where
  | null
  | bytes (bytes : List UInt8)
  deriving DecidableEq, Repr

/-- What the work writes where nothing was written before. -/
def Encoder.alone (work : Encoder Presence) : Except EncodingError Encoded :=
  match work.run.run [] with
  | (.ok .null, _) => .ok .null
  | (.ok .present, bytes) => .ok (.bytes bytes)
  | (.error e, _) => .error e

namespace Value

/-- A whole number as a scalar of a width. -/
def narrowed (width : IntWidth) (n : Int64) : Except EncodingError Wire :=
  match Whole.narrow? width n.toInt with
  | some whole => .ok (.whole whole)
  | none => .error .outOfRange

/-- A whole number in the form that a column takes: in its width, with a point, or in decimal digits.
To any other column it goes in eight bytes. -/
def intWire (n : Int64) : ColumnType → Except EncodingError Wire
  | .int2 => narrowed .two n
  | .int4 => narrowed .four n
  | .float4 => .ok (.single (Number.singleBitsOfInt n.toInt))
  | .float8 => .ok (.double (.ofInt n.toInt))
  | .text | .varchar => .ok (.text (toString n.toInt))
  | _ => .ok (.whole (.ofInt64 n))

/-- The value in the form in which it goes to a column; NULL has none. -/
def wire? : Value → ColumnType → Except EncodingError (Option Wire)
  | null, _ => .ok none
  | bool b, _ => .ok (some (.bool b))
  | int n, column => (intWire n column).map some
  | float x, .float4 => .ok (some (.single x.toSingleBits))
  | float x, _ => .ok (some (.double x))
  | text s, _ => .ok (some (.text s))
  | timestamp t, _ => .ok (some (.timestamp t))
  | date d, _ => .ok (some (.date d))

end Value

namespace WireFormat

variable (f : WireFormat)

/-- Writes a value to a column. NULL can be written to every column. -/
def write (v : Value) (column : ColumnType) : Encoder Presence :=
  match v.wire? column with
  | .ok none => pure .null
  | .ok (some x) => do
    f.scalar x column
    return .present
  | .error e => throw e

/-- Writes a value to a column that some kind of scalar can be written to. -/
def writeChecked (v : Value) (column : ColumnType) : Encoder Presence :=
  if f.takes column then f.write v column else throw .wrongType

end WireFormat

namespace Value

/-- What is written for a value. -/
def encode (v : Value) (column : ColumnType) : Except EncodingError Encoded :=
  (WireFormat.binary.write v column).alone

/-- What is written for a value to a column that some kind of scalar can be written to. -/
def encodeChecked (v : Value) (column : ColumnType) : Except EncodingError Encoded :=
  (WireFormat.binary.writeChecked v column).alone

end Value

end SqlFragments
