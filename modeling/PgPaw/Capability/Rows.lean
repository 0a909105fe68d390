/-
# `capability/rows.rs`: running a read

`query_json_scoped` runs the text of a read on the local database and returns the body the
server sends.  The database is a state of tables, each known by its lower-cased bare name, and
the engine under it is a parameter: what a statement returns in a session on a state.

A read without a principal and without headers runs on the connection itself, as the owner of
the database; any other read runs in a transaction under the principal's role.
-/
import PgPaw.Error
import PgPaw.Json
import PgPaw.Text

namespace PgPaw

/-- A state of the database: the contents of each table. -/
abbrev Database (γ : Type) := String → γ

/-- `Principal`. -/
structure Principal where
  role : String
  claimsJson : String
  deriving DecidableEq, Repr

/-- What `begin_scoped` sets for the length of its transaction. -/
structure Session where
  role : String
  claims : Option String
  headers : String
  deriving DecidableEq, Repr

/-- The database engine: the first column of the rows a statement returns, run in a session or
as the owner. -/
structure Engine (γ : Type) where
  query : Option Session → String → List Json → Database γ →
    Except CacheError (List (Option String))

/-- `DEFAULT_PUBLIC_ROLE`. -/
def DEFAULT_PUBLIC_ROLE : String := "pgpaw_public"

/-- `wrap_json`. -/
def wrapJson (sql : String) : String :=
  "select coalesce(jsonb_agg(to_jsonb(_t)), '[]'::jsonb)::text as j from (" ++ sql ++ ") _t"

/-- `scoped_role`. -/
def scopedRole (principal : Option Principal) : String :=
  (principal.map Principal.role).getD DEFAULT_PUBLIC_ROLE

/-- `begin_scoped`, as `query_json_scoped` calls it. -/
def beginScoped (principal : Option Principal) (headers : Option String) : Session where
  role := scopedRole principal
  claims := principal.map Principal.claimsJson
  headers := headers.getD "\x7b\x7d"

/-- A read runs as the owner when it has neither a principal nor headers. -/
def ownerScope (principal : Option Principal) (headers : Option String) : Bool :=
  principal.isNone && headers.isNone

variable {γ : Type}

/-- `query_json_scoped`. -/
def queryJsonScoped (engine : Engine γ) (principal : Option Principal) (headers : Option String)
    (sql : String) (params : List Json) (db : Database γ) : Except CacheError String :=
  let session := if ownerScope principal headers then none
    else some (beginScoped principal headers)
  match engine.query session (wrapJson sql) params db with
  | .error e => .error e
  | .ok rows => .ok ((rows.head?.join).getD "[]")

/-! ## The columns of a row -/

/-- `to_jsonb` of a row: of two columns of one name, the later one stays. -/
def toJsonb (row : List (String × Json)) : List (String × Json) :=
  row.foldr (fun field fields =>
    if (fields.map Prod.fst).contains field.1 then fields else field :: fields) []

/-- The names stay. -/
theorem mem_names_toJsonb {row : List (String × Json)} {name : String} :
    name ∈ (toJsonb row).map Prod.fst ↔ name ∈ row.map Prod.fst := by
  induction row with
  | nil => rfl
  | cons field row ih =>
    have hcons : toJsonb (field :: row) =
        if ((toJsonb row).map Prod.fst).contains field.1 then toJsonb row
        else field :: toJsonb row := rfl
    rw [hcons, List.map_cons, List.mem_cons, ← ih]
    split
    · rename_i h
      refine ⟨Or.inr, ?_⟩
      rintro (rfl | hmem)
      · simpa using h
      · exact hmem
    · rw [List.map_cons, List.mem_cons]

theorem length_toJsonb_le (row : List (String × Json)) : (toJsonb row).length ≤ row.length := by
  induction row with
  | nil => exact Nat.le_refl 0
  | cons field row ih =>
    have hcons : toJsonb (field :: row) =
        if ((toJsonb row).map Prod.fst).contains field.1 then toJsonb row
        else field :: toJsonb row := rfl
    rw [hcons, List.length_cons]
    split
    · omega
    · rw [List.length_cons]
      omega

/-- **`to_jsonb` drops no column exactly when the names are distinct.** -/
theorem toJsonb_eq_self_iff {row : List (String × Json)} :
    toJsonb row = row ↔ (row.map Prod.fst).Nodup := by
  induction row with
  | nil => exact iff_of_true rfl List.nodup_nil
  | cons field row ih =>
    have hcons : toJsonb (field :: row) =
        if ((toJsonb row).map Prod.fst).contains field.1 then toJsonb row
        else field :: toJsonb row := rfl
    rw [hcons, List.map_cons, List.nodup_cons, ← ih, List.contains_eq_mem]
    simp only [decide_eq_true_eq, mem_names_toJsonb]
    split
    · rename_i hmem
      refine iff_of_false (fun he => ?_) fun h => h.1 hmem
      have hlen := congrArg List.length he
      have := length_toJsonb_le row
      rw [List.length_cons] at hlen
      omega
    · rename_i hmem
      rw [List.cons.injEq, and_iff_right rfl]
      exact ⟨fun h => ⟨hmem, h⟩, And.right⟩

/-! ## Writing to the tables -/

/-- The new contents of the tables a transaction changes. -/
abbrev Writes (γ : Type) := List (String × γ)

/-- The state after a transaction's writes. -/
def Database.write (db : Database γ) (writes : Writes γ) : Database γ := fun table =>
  (writes.lookup table).getD (db table)

/-- Only the written tables change. -/
theorem Database.write_of_notMem {db : Database γ} {writes : Writes γ} {table : String}
    (h : table ∉ writes.map Prod.fst) : db.write writes table = db table := by
  have hl : writes.lookup table = none := by
    rw [List.lookup_eq_none_iff]
    rintro ⟨t, c⟩ hp
    have : table ≠ t := fun e => h (e ▸ List.mem_map_of_mem hp)
    simpa using this
  rw [Database.write, hl, Option.getD_none]

end PgPaw
