/-
# `serde_json::Value`

The JSON values the server passes around: request parameters, result rows, live events.
`serde_json` keeps a number as a 64-bit integer when it is one and as a double otherwise; a
double is represented here by the text it prints as.  An object is the list of its fields in
key order, which is how the default `Map` stores it.
-/
import Mathlib.Data.List.Basic

namespace PgPaw

/-- `serde_json::Number`. -/
inductive Number
  | integer (n : Int)
  | float (text : String)
  deriving DecidableEq, Repr

/-- `serde_json::Value`. -/
inductive Json
  | null
  | bool (b : Bool)
  | number (n : Number)
  | string (text : String)
  | array (items : List Json)
  | object (fields : List (String × Json))
  deriving Repr

namespace Json

mutual

/-- `Value: Eq`. -/
def decEq : (a b : Json) → Decidable (a = b)
  | null, b => match b with
    | null => isTrue rfl
    | bool _ | number _ | string _ | array _ | object _ => isFalse nofun
  | bool x, b => match b with
    | bool y => if h : x = y then isTrue (h ▸ rfl) else isFalse fun e => h (by injection e)
    | null | number _ | string _ | array _ | object _ => isFalse nofun
  | number x, b => match b with
    | number y => if h : x = y then isTrue (h ▸ rfl) else isFalse fun e => h (by injection e)
    | null | bool _ | string _ | array _ | object _ => isFalse nofun
  | string x, b => match b with
    | string y => if h : x = y then isTrue (h ▸ rfl) else isFalse fun e => h (by injection e)
    | null | bool _ | number _ | array _ | object _ => isFalse nofun
  | array xs, b => match b with
    | array ys => match decEqItems xs ys with
      | isTrue h => isTrue (h ▸ rfl)
      | isFalse h => isFalse fun e => h (by injection e)
    | null | bool _ | number _ | string _ | object _ => isFalse nofun
  | object xs, b => match b with
    | object ys => match decEqFields xs ys with
      | isTrue h => isTrue (h ▸ rfl)
      | isFalse h => isFalse fun e => h (by injection e)
    | null | bool _ | number _ | string _ | array _ => isFalse nofun

def decEqItems : (xs ys : List Json) → Decidable (xs = ys)
  | [], [] => isTrue rfl
  | [], _ :: _ | _ :: _, [] => isFalse nofun
  | x :: xs, y :: ys => match decEq x y with
    | isFalse h => isFalse fun e => h (by injection e)
    | isTrue h => match decEqItems xs ys with
      | isTrue hs => isTrue (h ▸ hs ▸ rfl)
      | isFalse hs => isFalse fun e => hs (by injection e)

def decEqFields : (xs ys : List (String × Json)) → Decidable (xs = ys)
  | [], [] => isTrue rfl
  | [], _ :: _ | _ :: _, [] => isFalse nofun
  | (k, x) :: xs, (l, y) :: ys =>
    if hk : k = l then match decEq x y with
      | isFalse h => isFalse fun e => h (by injection e with e; injection e)
      | isTrue h => match decEqFields xs ys with
        | isTrue hs => isTrue (hk ▸ h ▸ hs ▸ rfl)
        | isFalse hs => isFalse fun e => hs (by injection e)
    else isFalse fun e => hk (by injection e with e; injection e)

end

instance : DecidableEq Json := decEq

/-- `Value::get(column)`: a field of an object, nothing of any other value. -/
def get (v : Json) (column : String) : Option Json :=
  match v with
  | object fields => fields.lookup column
  | _ => none

end Json

end PgPaw
