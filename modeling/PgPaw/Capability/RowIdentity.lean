/-
# Which rows a live query can tell apart

`keyed_map` files the rows of a result under a key: the value of the table's primary key, when
the query lists one table and its rows have a column of that name, and the hash of the row
otherwise.  `LiveHub::subscribe` picks the column from the table list alone.

So a query may list one table and still return two rows with one key: it joins the table to
itself, or outputs something else under the key's name.  The last such row wins in the map, and
what happens to the others is never sent (`rowIdentity_iff`).
-/
import PgPaw.Capability.LiveStream
import PgPaw.Capability.Prepare

namespace PgPaw

open MapDiff Sql

variable {γ : Type}

/-- The key column `LiveHub::subscribe` picks. -/
def keyColumn (pk : String → Option String) (tables : List String) : Option String :=
  match tables with
  | [table] => pk (toAsciiLowercase table)
  | _ => none

/-- It is the one a new subscription gets. -/
theorem pk_hubSubscribe (env : Live.Env γ) (s : Live.State γ) (query : CacheableQuery)
    (hash : String) (version : Nat) (body : String) (principal : Option Principal)
    (headers : Option String) :
    ((Live.hubSubscribe env s query hash version body principal headers).subs s.nextId).map
      Live.Subscription.pk = some (keyColumn env.pk query.tables) := by
  simp only [Live.hubSubscribe, Function.update_self, Option.map_some]
  rfl

/-! ## 1. One result -/

/-- The map has every row of the body, and no other. -/
def Lossless (serde : Serde) (pk : Option String) (body : String) : Prop :=
  ∃ rows, serde.fromStr body = some (.array rows) ∧
    ∀ row, row ∈ rows ↔ ∃ key, (keyedMap serde body pk).lookup key = some row

/-- The body is read, and its key column, if it has one, has different texts in different rows. -/
def Identifies (serde : Serde) (pk : Option String) (body : String) : Prop :=
  ∃ rows, serde.fromStr body = some (.array rows) ∧
    ∀ column, pk = some column → ∀ a ∈ rows, ∀ b ∈ rows, ∀ v w, a.get column = some v →
      b.get column = some w → valueKey serde v = valueKey serde w → a = b

/-- The rows of one result: objects with the same names, whose hashes differ when they do. -/
structure OneResult (serde : Serde) (rows : List Json) : Prop where
  uniform : ∀ a ∈ rows, ∀ b ∈ rows, ∀ column, (a.get column).isSome = (b.get column).isSome
  hash : ∀ a ∈ rows, ∀ b ∈ rows, rowHash serde a = rowHash serde b → a = b

theorem rowKey_of_get {serde : Serde} {column : String} {row v : Json}
    (h : row.get column = some v) : rowKey serde (some column) row = valueKey serde v := by
  simp [rowKey, h]

theorem rowKey_of_noColumn {serde : Serde} {column : String} {row : Json}
    (h : row.get column = none) : rowKey serde (some column) row = rowHash serde row := by
  simp [rowKey, h]

/-- The row keys of one result tell its rows apart exactly when the key column does. -/
theorem rowKey_injOn_iff {serde : Serde} {rows : List Json} (h : OneResult serde rows)
    (pk : Option String) :
    (∀ a ∈ rows, ∀ b ∈ rows, rowKey serde pk a = rowKey serde pk b → a = b) ↔
      ∀ column, pk = some column → ∀ a ∈ rows, ∀ b ∈ rows, ∀ v w, a.get column = some v →
        b.get column = some w → valueKey serde v = valueKey serde w → a = b := by
  constructor
  · rintro hinj column rfl a ha b hb v w hv hw hkey
    refine hinj a ha b hb ?_
    rw [rowKey_of_get hv, rowKey_of_get hw, hkey]
  · intro hcolumn a ha b hb hkey
    cases pk with
    | none => exact h.hash a ha b hb hkey
    | some column =>
      have hsame := h.uniform a ha b hb column
      cases hv : a.get column with
      | none =>
        rw [hv] at hsame
        have hw : b.get column = none := Option.not_isSome_iff_eq_none.mp (by simp [← hsame])
        rw [rowKey_of_noColumn hv, rowKey_of_noColumn hw] at hkey
        exact h.hash a ha b hb hkey
      | some v =>
        rw [hv] at hsame
        obtain ⟨w, hw⟩ := Option.isSome_iff_exists.mp hsame.symm
        rw [rowKey_of_get hv, rowKey_of_get hw] at hkey
        exact hcolumn column rfl a ha b hb v w hv hw hkey

/-- **A map loses no row exactly when the body is read and its key column identifies the rows.** -/
theorem lossless_iff {serde : Serde} {pk : Option String} {body : String}
    (h : ∀ rows, serde.fromStr body = some (.array rows) → OneResult serde rows) :
    Lossless serde pk body ↔ Identifies serde pk body := by
  refine exists_congr fun rows => and_congr_right fun hbody => ?_
  rw [← rowKey_injOn_iff (h rows hbody) pk, ← values_foldl_insert_iff (rowKey serde pk)]
  simp only [keyedMap, hbody]

/-! ## 2. Two results -/

/-- Two results that differ as sets of rows. -/
def DifferAsSets (serde : Serde) (body body' : String) : Prop :=
  ∃ rows rows', serde.fromStr body = some (.array rows) ∧
    serde.fromStr body' = some (.array rows') ∧ ¬ ∀ row, row ∈ rows ↔ row ∈ rows'

/-- Between two results that lose no row, nothing goes unnoticed. -/
theorem diff_ne_nil {serde : Serde} {pk : Option String} {body body' : String}
    (h : Lossless serde pk body) (h' : Lossless serde pk body')
    (hdiffer : DifferAsSets serde body body') {prev next : RowIter}
    (hprev : prev.toFinmap = keyedMap serde body pk)
    (hnext : next.toFinmap = keyedMap serde body' pk) : diff prev next ≠ [] := by
  intro hnil
  obtain ⟨rows, rows', hrows, hrows', hne⟩ := hdiffer
  obtain ⟨_, hr, hlossless⟩ := h
  obtain ⟨_, hr', hlossless'⟩ := h'
  obtain rfl : rows = _ := by simpa using hrows.symm.trans hr
  obtain rfl : rows' = _ := by simpa using hrows'.symm.trans hr'
  have hsame : keyedMap serde body pk = keyedMap serde body' pk := by
    have hreplay := replay_diff prev next
    rw [hnil, hprev, hnext] at hreplay
    exact hreplay
  exact hne fun row => by rw [hlossless, hlossless', hsame]

/-! ## 3. An accepted query -/

section Query

variable (engine : Engine γ) (serde : Serde) (read : PreparedRead)

/-- No result of a read loses a row, and two results that differ as sets of rows never give an
empty difference. -/
def LosesNoRow (pk : Option String) : Prop :=
  (∀ db body, read.result engine db = .ok body → Lossless serde pk body) ∧
    ∀ db db' body body', read.result engine db = .ok body → read.result engine db' = .ok body' →
      DifferAsSets serde body body' → ∀ prev next : RowIter,
        prev.toFinmap = keyedMap serde body pk → next.toFinmap = keyedMap serde body' pk →
          diff prev next ≠ []

/-- What PostgreSQL and the hasher promise about the results of a read. -/
def ResultsUniform : Prop :=
  ∀ db body rows, read.result engine db = .ok body → serde.fromStr body = some (.array rows) →
    OneResult serde rows

end Query

/-- **Row identity loses no row exactly when the key column identifies the rows** of every
result of the accepted query. -/
theorem rowIdentity_iff {reader : Reader γ} {halted : Option String} {request : ReadRequest}
    {db : Database γ} {read : PreparedRead} (_ : prepare reader halted request db = .ok read)
    {env : Live.Env γ} (hresults : ResultsUniform env.engine env.serde read) :
    LosesNoRow env.engine env.serde read (keyColumn env.pk read.query.tables) ↔
      ∀ db body, read.result env.engine db = .ok body →
        Identifies env.serde (keyColumn env.pk read.query.tables) body := by
  have hiff : ∀ db body, read.result env.engine db = .ok body →
      (Lossless env.serde (keyColumn env.pk read.query.tables) body ↔
        Identifies env.serde (keyColumn env.pk read.query.tables) body) := fun db body hrun =>
    lossless_iff fun rows hrows => hresults db body rows hrun hrows
  constructor
  · intro h db body hrun
    exact (hiff db body hrun).mp (h.1 db body hrun)
  · intro h
    have hlossless := fun db body hrun => (hiff db body hrun).mpr (h db body hrun)
    refine ⟨hlossless, ?_⟩
    intro db db' body body' hrun hrun' hdiffer prev next hprev hnext
    exact diff_ne_nil (hlossless db body hrun) (hlossless db' body' hrun') hdiffer hprev hnext

/-- Who is in `users`: ann, and bob. -/
abbrev AnnBob := Bool × Bool

def annRow : Json := .object [("id", .number (.integer 1)), ("name", .string "ann")]
def bobRow : Json := .object [("id", .number (.integer 2)), ("name", .string "bob")]

def annText : String := "\x7b\"id\":1,\"name\":\"ann\"\x7d"
def bobText : String := "\x7b\"id\":2,\"name\":\"bob\"\x7d"

namespace AnnBob

def rows (users : AnnBob) : List Json :=
  (if users.1 then [annRow] else []) ++ if users.2 then [bobRow] else []

def body (users : AnnBob) : String :=
  "[" ++ ", ".intercalate ((if users.1 then [annText] else []) ++
    if users.2 then [bobText] else []) ++ "]"

end AnnBob

/-- A server whose one table `users` has any of these rows, asked for all of them. -/
def annBobEnv : Live.Env AnnBob where
  engine := ⟨fun _ _ _ db => .ok [some (db "users").body]⟩
  serde := {
    fromStr text :=
      ([(false, false), (true, false), (false, true), (true, true)].find? fun users : AnnBob =>
        users.body == text).map fun users => .array users.rows
    toString
      | .number (.integer n) => decimal n.toNat
      | row => if row = annRow then annText else bobText
    finish text := if text = annText then 5421655112246606305 else 7930761390574790727 }
  pk table := if table = "users" then some "id" else none

def annBobReader : Reader AnnBob where
  crates := usersCrates
  classifier := .new ["users"]
  isPrivate := primaryVerdict usersOrdersCatalog
  columns _ _ _ db := .ok (if (db "users").rows.isEmpty then [] else [["id", "name"]])

/-- The key column tells ann from bob: no row is lost. -/
theorem rowIdentity_iff_users :
    LosesNoRow annBobEnv.engine annBobEnv.serde Live.usersPublic (some "id") ∧
      (keyedMap annBobEnv.serde (AnnBob.body (true, true)) (some "id")).keys = {"1", "2"} := by
  have haccepted : prepare annBobReader none ⟨"SELECT * FROM users", none, none, []⟩
      (fun _ => (true, true)) = .ok Live.usersPublic := by rfl
  have hbody (users : AnnBob) : annBobEnv.serde.fromStr users.body = some (.array users.rows) := by
    obtain ⟨ann, bob⟩ := users
    revert ann bob
    decide +kernel
  -- what a result has is ann and bob at most
  have hrows : ∀ db body rows, Live.usersPublic.result annBobEnv.engine db = .ok body →
      annBobEnv.serde.fromStr body = some (.array rows) → rows ⊆ [annRow, bobRow] := by
    intro db body rows hrun hread
    obtain rfl : (db "users").body = body := Except.ok.inj hrun
    obtain rfl : (db "users").rows = rows := by simpa using (hbody _).symm.trans hread
    obtain ⟨ann, bob⟩ := db "users"
    cases ann <;> cases bob <;> simp [AnnBob.rows]
  have hresults : ResultsUniform annBobEnv.engine annBobEnv.serde Live.usersPublic := by
    intro db body rows hrun hread
    have hsub := hrows db body rows hrun hread
    refine ⟨fun a ha b hb column => ?_, fun a ha b hb => ?_⟩
    · have hcolumns : ∀ row ∈ [annRow, bobRow], (row.get column).isSome =
          (column == "id" || column == "name") := by
        cases hid : column == "id" <;> cases hname : column == "name" <;>
          simp [annRow, bobRow, Json.get, List.lookup_cons, hid, hname]
      rw [hcolumns a (hsub ha), hcolumns b (hsub hb)]
    · have hhash : ∀ a ∈ [annRow, bobRow], ∀ b ∈ [annRow, bobRow],
          rowHash annBobEnv.serde a = rowHash annBobEnv.serde b → a = b := by decide +kernel
      exact hhash a (hsub ha) b (hsub hb)
  refine ⟨(rowIdentity_iff haccepted hresults).mpr ?_, by decide +kernel⟩
  intro db body hrun
  obtain rfl : (db "users").body = body := Except.ok.inj hrun
  refine ⟨(db "users").rows, hbody _, ?_⟩
  intro column hcolumn a ha b hb v w hv hw hkey
  obtain rfl : "id" = column := Option.some.inj hcolumn
  have hids : ∀ a ∈ [annRow, bobRow], ∀ b ∈ [annRow, bobRow],
      (a.get "id").map (valueKey annBobEnv.serde) = (b.get "id").map (valueKey annBobEnv.serde) →
        a = b := by decide +kernel
  have hsub := hrows db _ _ hrun (hbody _)
  exact hids a (hsub ha) b (hsub hb) (by rw [hv, hw, Option.map_some, Option.map_some, hkey])

/-! ## 4. A self-join -/

def crossJoinSql : String :=
  "SELECT a.id, b.name FROM users a CROSS JOIN users b ORDER BY a.id, b.id"

/-- A table of the `FROM`, under an alias. -/
def aliased (table as : String) : TableFactor :=
  .table [bareIdent table] (some ⟨bareIdent as, []⟩) false []

def crossJoinQuery : Query :=
  .mk false [] (.select (.mk false []
    [.unnamedExpr (.compoundIdentifier [bareIdent "a", bareIdent "id"]),
      .unnamedExpr (.compoundIdentifier [bareIdent "b", bareIdent "name"])] none
    [.mk (aliased "users" "a") [.mk (aliased "users" "b") .inner false [] []]] none [] []))
    [.compoundIdentifier [bareIdent "a", bareIdent "id"],
      .compoundIdentifier [bareIdent "b", bareIdent "id"]] [] []

/-- The rows of `users`: an id and a name. -/
abbrev Users := List (Nat × String)

/-- The rows of the join, in the order of both ids: `users` is. -/
def crossJoin (users : Users) : List Json :=
  users.flatMap fun (id, _) => users.map fun (_, name) =>
    .object [("id", .number (.integer id)), ("name", .string name)]

/-- What PostgreSQL prints for them. -/
def crossJoinBody (users : Users) : String :=
  "[" ++ ", ".intercalate (users.flatMap fun (id, _) => users.map fun (_, name) =>
    "\x7b\"id\": " ++ decimal id ++ ", \"name\": \"" ++ name ++ "\"\x7d") ++ "]"

/-- Two users, before and after the first is renamed. -/
def annAndBob : Users := [(1, "ann"), (2, "bob")]
def amyAndBob : Users := [(1, "amy"), (2, "bob")]

/-- A server with the table `users`, asked for its join with itself. -/
def crossJoinEnv : Live.Env Users where
  engine := ⟨fun _ _ _ db => .ok [some (crossJoinBody (db "users"))]⟩
  serde := {
    fromStr text := ([annAndBob, amyAndBob].find? fun users => crossJoinBody users == text).map
      fun users => .array (crossJoin users)
    toString
      | .number (.integer n) => toString n
      | _ => ""
    finish _ := 0 }
  pk table := if table = "users" then some "id" else none

def crossJoinReader : Reader Users where
  crates := oneText crossJoinSql crossJoinQuery 0
  classifier := .new ["users"]
  isPrivate := primaryVerdict usersOrdersCatalog
  columns _ _ _ db := .ok (if (db "users").isEmpty then [] else [["id", "name"]])

/-- What `prepare` returns for it: one table. -/
def crossJoinRead : PreparedRead := ⟨⟨0, ["users"], [], crossJoinSql, []⟩, none, none, false⟩

/-- The rows of the join before and after the renaming, as the hub files them. -/
def crossJoinRows : RowIter :=
  (AList.singleton "1" (.object [("id", .number (.integer 1)), ("name", .string "bob")])).insert
    "2" (.object [("id", .number (.integer 2)), ("name", .string "bob")])

/-- **A self-join loses rows.**  The query is accepted with one table, so its rows go by `id`;
each id has two rows, the second hides the first, and when the first user is renamed, which
changes the two rows that are hidden, there is nothing to send. -/
theorem self_join_loses_row :
    prepare crossJoinReader none ⟨crossJoinSql, none, none, []⟩ (fun _ => annAndBob) =
        .ok crossJoinRead ∧
      keyColumn crossJoinEnv.pk crossJoinRead.query.tables = some "id" ∧
      crossJoinRead.result crossJoinEnv.engine (fun _ => annAndBob) =
        .ok (crossJoinBody annAndBob) ∧
      crossJoinRead.result crossJoinEnv.engine (fun _ => amyAndBob) =
        .ok (crossJoinBody amyAndBob) ∧
      ¬ Lossless crossJoinEnv.serde (some "id") (crossJoinBody annAndBob) ∧
      DifferAsSets crossJoinEnv.serde (crossJoinBody annAndBob) (crossJoinBody amyAndBob) ∧
      crossJoinRows.toFinmap = keyedMap crossJoinEnv.serde (crossJoinBody annAndBob) (some "id") ∧
      crossJoinRows.toFinmap = keyedMap crossJoinEnv.serde (crossJoinBody amyAndBob) (some "id") ∧
      diff crossJoinRows crossJoinRows = [] := by
  have hann : crossJoinEnv.serde.fromStr (crossJoinBody annAndBob) =
      some (.array (crossJoin annAndBob)) := by decide +kernel
  have hamy : crossJoinEnv.serde.fromStr (crossJoinBody amyAndBob) =
      some (.array (crossJoin amyAndBob)) := by decide +kernel
  refine ⟨by decide +kernel, by decide, by decide +kernel, by decide +kernel, ?_, ?_,
    by decide +kernel, by decide +kernel, by decide +kernel⟩
  · rintro ⟨rows, hrows, hvalues⟩
    obtain rfl : crossJoin annAndBob = rows := by simpa using hann.symm.trans hrows
    simp only [keyedMap, hann] at hvalues
    have hinj := (values_foldl_insert_iff (rowKey crossJoinEnv.serde (some "id"))).mp hvalues
    exact absurd (hinj (.object [("id", .number (.integer 1)), ("name", .string "ann")])
      (by decide) (.object [("id", .number (.integer 1)), ("name", .string "bob")]) (by decide)
      (by decide)) (by decide)
  · refine ⟨_, _, hann, hamy, fun h => ?_⟩
    exact absurd ((h (.object [("id", .number (.integer 1)), ("name", .string "ann")])).mp
      (by decide)) (by decide)

end PgPaw
