/-
# `CacheError`

The errors of the read core that carry something the code looks at or prints.
-/
import Mathlib.Data.List.Basic

namespace PgPaw

/-- `error.rs`, `CacheError`.  `pglite` is `pglite::Error::Database` by its `sqlstate` and
message; the engine's other failures carry an empty `sqlstate`. -/
inductive CacheError
  | pglite (sqlstate message : String)
  | parse (message : String)
  | rejected (message : String)
  | config (message : String)
  | cache (message : String)
  | halted (message : String)
  | unauthorized (message : String)
  | forbidden (message : String)
  deriving DecidableEq, Repr

/-- `pglite::Error: Display`: a database error with its code, any other failure as it is. -/
def pgliteDisplay (sqlstate message : String) : String :=
  if sqlstate == "" then message else "database error " ++ sqlstate ++ ": " ++ message

end PgPaw
