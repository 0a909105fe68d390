/-
# `binding/unb.rs`: `pgpaw.sql`

The handler authenticates, runs the statement under a deadline, and reads the rows it returned.
`execute` commits before it returns, so what comes after it comes after the commit: reading the
rows, and hearing of the commit itself.

The deadline drops `execute` at an await point.  The operation that was awaited has been sent, and
may still be performed.

`error_uncommitted_iff` says for which runs an error reply means that nothing was committed.
-/
import PgPaw.Capability.Sql

namespace PgPaw

open Program (Await)

/-! ## 1. The handler -/

/-- `unb::ErrorCode`. -/
inductive ErrorCode
  | busy
  | invalidInput
  | unauthorized
  | internal
  deriving DecidableEq, Repr

/-- `unb::HandlerError`. -/
structure HandlerError where
  code : ErrorCode
  message : String
  deriving DecidableEq, Repr

/-- `SqlRequest`. -/
structure SqlRequest where
  sql : String
  params : List Json
  bearer : Option String

/-- `SqlReply`. -/
structure SqlReply where
  command : String
  rows : Json
  rowsAffected : Nat
  deriving DecidableEq

/-- What the handler calls outside the repository. -/
structure UnbCrates extends SqlCrates where
  /-- `Value::to_string`. -/
  toString : Json → String
  /-- The text of the error of `serde_json::from_str`. -/
  fromStrError : String → String
  /-- `Verifier::verify`; absent when no verifier is configured. -/
  verify : Option (String → Except CacheError Principal)

/-- `CacheError: Display`. -/
def CacheError.display : CacheError → String
  | .pglite sqlstate message => pgliteDisplay sqlstate message
  | .parse message => "parse: " ++ message
  | .rejected message => "rejected: " ++ message
  | .config message => message
  | .cache message => "cache: " ++ message
  | .halted message => "replica halted: " ++ message
  | .unauthorized message => "unauthorized: " ++ message
  | .forbidden message => "forbidden: " ++ message

/-- `SqlOperations::authenticate`. -/
def SqlOperations.authenticate (crates : UnbCrates) (bearer : Option String) :
    Except CacheError (Option Principal) :=
  match bearer with
  | none => .ok none
  | some token => match crates.verify with
    | none => .error (.unauthorized
        "a token was presented but JWT verification is not configured")
    | some verify => (verify token).map some

namespace Unb

/-- `serde_json::Map::insert`: the fields are kept in the order of their names. -/
def insertField (name : String) (value : Json) : List (String × Json) → List (String × Json)
  | [] => [(name, value)]
  | (name', value') :: fields =>
    if name < name' then (name, value) :: (name', value') :: fields
    else if name = name' then (name, value) :: fields
    else (name', value') :: insertField name value fields

/-- `wire_headers`; a value is absent when it is not text. -/
def wireHeaders (crates : UnbCrates) (headers : List (String × Option String)) : Option String :=
  let own := headers.filter fun header => !("unb-".toList.isPrefixOf header.1.toList)
  let fields := own.filterMap fun header => header.2.map fun value => (header.1, value)
  let map := fields.foldl (fun map field => insertField field.1 (.string field.2) map) []
  if map.isEmpty then none else some (crates.toString (.object map))

/-- `handler_error`. -/
def handlerError (error : CacheError) : HandlerError where
  code := match error with
    | .rejected _ | .parse _ => .invalidInput
    | .unauthorized _ | .forbidden _ => .unauthorized
    | .halted _ => .busy
    | _ => .internal
  message := error.display

/-- `parse_rows`. -/
def parseRows (crates : UnbCrates) (body : String) : Except CacheError Json :=
  match crates.fromStr body with
  | some rows => .ok rows
  | none => .error (.cache (crates.fromStrError body))

/-- The reply, once `execute` has returned or the deadline has dropped it. -/
def reply (crates : UnbCrates) (outcome : Option (Except CacheError SqlOutcome)) :
    Except HandlerError SqlReply :=
  match outcome with
  | none => .error ⟨.busy, "statement exceeded the " ++ decimal SQL_DEADLINE_SECS ++
      "s execution deadline"⟩
  | some (.error error) => .error (handlerError error)
  | some (.ok outcome) => match parseRows crates outcome.rowsJson with
    | .error error => .error (handlerError error)
    | .ok rows => .ok ⟨outcome.command, rows, outcome.rowsAffected⟩

/-- `sql`: the reply, and what was asked of the database. -/
def sql (crates : UnbCrates) (operations : SqlOperations) (request : SqlRequest)
    (headers : List (String × Option String)) (script : List (Await DbReply)) :
    Except HandlerError SqlReply × List (DbOp × Await DbReply) :=
  match SqlOperations.authenticate crates request.bearer with
  | .error error => (.error (handlerError error), [])
  | .ok principal =>
    let (outcome, trace) := (operations.execute crates.toSqlCrates request.sql request.params
      principal (wireHeaders crates headers)).run.play script
    (reply crates outcome, trace)

/-! ## 2. When nothing was committed -/

/-- The transaction of a request was committed. -/
def Committed (trace : List (DbOp × Await DbReply)) : Prop :=
  ∃ await : Await DbReply, (DbOp.commit, await) ∈ trace ∧ await.performed = true

/-- An operation was answered with rows. -/
def Answered (await : Await DbReply) : Prop := ∃ rows, await.reply = some (.ok rows)

/-- The role `execute` runs a request under. -/
def roleOf (operations : SqlOperations) (principal : Option Principal) : String :=
  (principal.map Principal.role).getD operations.publicRole

/-- The operations of `begin_scoped`. -/
def scopeLength (principal : Option Principal) : Nat := if principal.isSome then 5 else 4

/-- **The replies take a request to its commit**: the statement and the role are accepted, the
scope is set up, and the statement runs and passes the checks on its result. -/
structure AtCommit (crates : UnbCrates) (operations : SqlOperations) (request : SqlRequest)
    (principal : Option Principal) (script : List (Await DbReply)) (validated : ValidatedSql)
    (outcome : RowsOutcome) (commit : Await DbReply) : Prop where
  accepted : validateOneStatement crates.toSqlCrates request.sql MAX_SQL_BYTES = .ok validated
  role : roleOf operations principal ≠ "postgres"
  writable : (operations.readOnly && validated.command != "SELECT") = false
  replies : ∃ owner scope statement later, script = owner :: scope ++ statement :: commit :: later ∧
    (∃ rows, owner.reply = some (.ok rows) ∧ SqlOperations.denyOwnerRow rows = .ok ()) ∧
    scope.length = scopeLength principal ∧ (∀ await ∈ scope, Answered await) ∧
    ∃ rows, statement.reply = some (.ok rows) ∧ SqlOperations.statementOutcome
      crates.toSqlCrates validated MAX_RESULT_BYTES rows = .ok outcome

/-- **A commit is heard of, and its rows can be read.** -/
def CommitReported (crates : UnbCrates) (operations : SqlOperations) (request : SqlRequest)
    (script : List (Await DbReply)) : Prop :=
  ∀ principal validated outcome commit,
    SqlOperations.authenticate crates request.bearer = .ok principal →
    AtCommit crates operations request principal script validated outcome commit →
      commit.performed = true → Answered commit ∧ (crates.fromStr outcome.rowsJson).isSome

/-! ## 3. The programs before the commit -/

section Programs

variable {α : Type} {script rest : List (Await DbReply)}

theorem returns_perform {op : DbOp} {rows : List DbRow} :
    Program.Returns (Db.perform op) script rows rest ↔
      ∃ await, script = await :: rest ∧ await.reply = some (.ok rows) := by
  unfold Program.Returns
  change ((Program.perform op).play script).1 = _ ∧ _ ↔ _
  cases script with
  | nil => simp [Program.perform, Program.play]
  | cons await script =>
    rcases hreply : await.reply with _ | (error | rows')
    · simp [Program.perform, Program.play, hreply]
    · simp [Program.perform, Program.play, hreply]
    · simp only [Program.perform, Program.play, hreply]
      simp [Db.perform, ExceptT.run, ExceptT.mk, Program.perform, Program.play, hreply, and_comm]

theorem returns_orError {result : Except CacheError α} {a : α} :
    Program.Returns (Db.orError result) script a rest ↔ result = .ok a ∧ script = rest := by
  unfold Program.Returns
  change some result = some (Except.ok a) ∧ script.drop 0 = rest ↔ _
  simp

theorem returns_discard {op : DbOp} {u : Unit} :
    Program.Returns (discard (Db.perform op)) script u rest ↔
      ∃ await, script = await :: rest ∧ Answered await := by
  have hdiscard : (discard (Db.perform op) : Db Unit) = Db.perform op >>= fun _ => pure () := rfl
  rw [hdiscard, Program.returns_bind]
  simp only [returns_perform, Program.returns_pure, true_and]
  constructor
  · rintro ⟨rows, _, ⟨await, rfl, hreply⟩, rfl⟩
    exact ⟨await, rfl, rows, hreply⟩
  · rintro ⟨await, rfl, rows, hreply⟩
    exact ⟨rows, _, ⟨await, rfl, hreply⟩, rfl⟩

/-- The first awaits of a script are all answered. -/
def Answers (n : Nat) (script rest : List (Await DbReply)) : Prop :=
  ∃ scope, script = scope ++ rest ∧ scope.length = n ∧ ∀ await ∈ scope, Answered await

theorem answers_zero : Answers 0 script rest ↔ script = rest := by
  constructor
  · rintro ⟨scope, rfl, hlength, -⟩
    rw [List.length_eq_zero_iff.mp hlength, List.nil_append]
  · rintro rfl
    exact ⟨[], rfl, rfl, by simp⟩

theorem answers_succ {n : Nat} : Answers (n + 1) script rest ↔
    ∃ middle, (∃ await, script = await :: middle ∧ Answered await) ∧ Answers n middle rest := by
  constructor
  · rintro ⟨scope, rfl, hlength, hscope⟩
    obtain ⟨await, scope, rfl⟩ := List.exists_cons_of_length_eq_add_one hlength
    exact ⟨scope ++ rest, ⟨await, rfl, hscope await List.mem_cons_self⟩, scope, rfl,
      Nat.succ.inj hlength, fun a ha => hscope a (List.mem_cons_of_mem await ha)⟩
  · rintro ⟨_, ⟨await, rfl, hawait⟩, scope, rfl, rfl, hscope⟩
    refine ⟨await :: scope, rfl, rfl, fun a ha => ?_⟩
    rcases List.mem_cons.mp ha with rfl | ha
    · exact hawait
    · exact hscope a ha

/-- The operations of `begin_scoped` are all answered. -/
theorem returns_beginScoped {role : String} {principal : Option Principal}
    {headers : Option String} {u : Unit} : Program.Returns (SqlOperations.beginScoped (some role)
        (principal.map Principal.claimsJson) headers) script u rest ↔
      Answers (scopeLength principal) script rest := by
  cases principal with
  | none =>
    simp only [SqlOperations.beginScoped, Option.map_none, Program.returns_bind, returns_discard,
      scopeLength]
    simp only [Option.isSome_none, Bool.false_eq_true, if_false, answers_succ, answers_zero,
      exists_const]
    simp
  | some principal =>
    simp only [SqlOperations.beginScoped, Option.map_some, Program.returns_bind, returns_discard,
      scopeLength]
    simp only [Option.isSome_some, if_true, answers_succ, answers_zero, exists_const]
    simp

theorem returns_throw {error : CacheError} {a : α} :
    ¬ Program.Returns (throw error : Db α) script a rest := by
  rintro ⟨h, -⟩
  cases h

theorem returns_denyOwnerRoles {role : String} {u : Unit} :
    Program.Returns (SqlOperations.denyOwnerRoles role) script u rest ↔
      role ≠ "postgres" ∧ ∃ owner rows, script = owner :: rest ∧ owner.reply = some (.ok rows) ∧
        SqlOperations.denyOwnerRow rows = .ok () := by
  unfold SqlOperations.denyOwnerRoles
  by_cases hrole : role = "postgres"
  · simp only [hrole, beq_self_eq_true, if_true, Program.returns_bind, returns_throw, false_and,
      exists_const, ne_eq, not_true_eq_false]
  · have hne : (role == "postgres") = false := by simpa using hrole
    simp only [hne, Bool.false_eq_true, if_false, Program.returns_bind, returns_perform,
      returns_orError, ne_eq, hrole, not_false_eq_true, true_and]
    constructor
    · rintro ⟨rows, _, ⟨owner, rfl, hreply⟩, hdeny, rfl⟩
      exact ⟨owner, rows, rfl, hreply, hdeny⟩
    · rintro ⟨owner, rows, rfl, hreply, hdeny⟩
      exact ⟨rows, _, ⟨owner, rfl, hreply⟩, hdeny, rfl⟩

/-- What `acceptRequest` lets through has a valid statement, a role that owns nothing, and one
answer used up. -/
theorem returns_acceptRequest {crates : UnbCrates} {operations : SqlOperations} {text : String}
    {principal : Option Principal} {admitted : SqlOperations.Admitted} :
    Program.Returns (SqlOperations.acceptRequest crates.toSqlCrates operations text principal)
        script admitted rest ↔
      validateOneStatement crates.toSqlCrates text MAX_SQL_BYTES = .ok admitted.validated ∧
      admitted.role = roleOf operations principal ∧
      admitted.claims = principal.map Principal.claimsJson ∧
      roleOf operations principal ≠ "postgres" ∧
      (operations.readOnly && admitted.validated.command != "SELECT") = false ∧
      ∃ owner rows, script = owner :: rest ∧ owner.reply = some (.ok rows) ∧
        SqlOperations.denyOwnerRow rows = .ok () := by
  unfold SqlOperations.acceptRequest
  simp only [Program.returns_bind, returns_orError]
  constructor
  · rintro ⟨validated, _, ⟨hvalid, rfl⟩, _, middle, hdeny, h⟩
    obtain ⟨hrole, owner, rows, rfl, hreply, hrow⟩ := returns_denyOwnerRoles.mp hdeny
    split at h
    · obtain ⟨_, _, hthrow, -⟩ := Program.returns_bind.mp h
      exact absurd hthrow returns_throw
    · rename_i hwritable
      obtain ⟨rfl, rfl⟩ := Program.returns_pure.mp h
      exact ⟨hvalid, rfl, rfl, hrole, Bool.not_eq_true _ ▸ hwritable, owner, rows, rfl, hreply,
        hrow⟩
  · rintro ⟨hvalid, hrole, hclaims, hpostgres, hwritable, owner, rows, rfl, hreply, hrow⟩
    refine ⟨admitted.validated, _, ⟨hvalid, rfl⟩, (), rest,
      returns_denyOwnerRoles.mpr ⟨hpostgres, owner, rows, rfl, hreply, hrow⟩, ?_⟩
    rw [if_neg (Bool.not_eq_true _ ▸ hwritable)]
    refine Program.returns_pure.mpr ⟨?_, rfl⟩
    obtain ⟨validated, role, claims⟩ := admitted
    simp only at hrole hclaims
    rw [hrole, hclaims]
    rfl

/-- The statement runs and passes the checks on its result. -/
theorem returns_runStatement {crates : SqlCrates} {validated : ValidatedSql} {text : String}
    {params : List Json} {bound : Nat} {outcome : RowsOutcome} :
    Program.Returns (SqlOperations.runStatement crates validated text params bound) script outcome
        rest ↔
      ∃ statement rows, script = statement :: rest ∧ statement.reply = some (.ok rows) ∧
        SqlOperations.statementOutcome crates validated bound rows = .ok outcome := by
  simp only [SqlOperations.runStatement, Program.returns_bind, returns_perform, returns_orError]
  constructor
  · rintro ⟨rows, _, ⟨statement, rfl, hreply⟩, houtcome, rfl⟩
    exact ⟨statement, rows, rfl, hreply, houtcome⟩
  · rintro ⟨statement, rows, rfl, hreply, houtcome⟩
    exact ⟨rows, _, ⟨statement, rfl, hreply⟩, houtcome, rfl⟩

theorem play_attempt {block : Db α} : (Db.attempt block).run.play script =
    ((block.run.play script).1.map Except.ok, (block.run.play script).2) := by
  change (block.run >>= fun result => (.done (.ok result) :
    Program DbOp DbReply (Except CacheError (Except CacheError α)))).play script = _
  rw [Program.play_bind]
  rcases (block.run.play script).1 with _ | result
  · rfl
  · simp [Program.play]

/-- A block goes on with its result, whichever it is. -/
theorem returns_attempt {block : Db α} {result : Except CacheError α} :
    Program.Returns (Db.attempt block) script result rest ↔
      (block.run.play script).1 = some result ∧
        script.drop (block.run.play script).2.length = rest := by
  unfold Program.Returns
  rw [play_attempt]
  simp

/-- What happens at an operation that is awaited alone. -/
theorem play_perform (op : DbOp) : (Db.perform op).run.play script =
    match script with
    | [] => (none, [])
    | await :: _ => (await.reply, [(op, await)]) := by
  change (Program.perform op).play script = _
  cases script with
  | nil => rfl
  | cons await script =>
    rcases hreply : await.reply <;> simp [Program.perform, Program.play, hreply]

theorem avoids_perform {op op' : DbOp} (h : op' ≠ op) : Program.Avoids op (Db.perform op') := by
  intro script entry hentry
  rw [play_perform] at hentry
  cases script with
  | nil => exact absurd hentry List.not_mem_nil
  | cons await script =>
    rw [List.mem_singleton.mp hentry]
    exact h

theorem avoids_pure {op : DbOp} {a : α} : Program.Avoids op (pure a : Db α) :=
  fun _ _ hentry => absurd hentry List.not_mem_nil

theorem avoids_throw {op : DbOp} {error : CacheError} : Program.Avoids op (throw error : Db α) :=
  fun _ _ hentry => absurd hentry List.not_mem_nil

theorem avoids_orError {op : DbOp} {result : Except CacheError α} :
    Program.Avoids op (Db.orError result) :=
  fun _ _ hentry => absurd hentry List.not_mem_nil

theorem avoids_discard {op : DbOp} {block : Db α} (h : Program.Avoids op block) :
    Program.Avoids op (discard block) :=
  Program.Avoids.bind h fun _ => avoids_pure

/-- **Nothing before the commit commits.** -/
theorem avoids_acceptRequest {crates : SqlCrates} {operations : SqlOperations} {text : String}
    {principal : Option Principal} :
    Program.Avoids .commit (SqlOperations.acceptRequest crates operations text principal) := by
  have hdeny : ∀ role, Program.Avoids .commit (SqlOperations.denyOwnerRoles role) := by
    intro role
    unfold SqlOperations.denyOwnerRoles
    have hquery : Program.Avoids .commit (do
        let rows ← Db.perform (.query SqlOperations.ownerRolesText [.string role])
        Db.orError (SqlOperations.denyOwnerRow rows)) :=
      Program.Avoids.bind (avoids_perform fun h => by cases h) fun _ => avoids_orError
    split
    · exact Program.Avoids.bind avoids_throw fun _ => hquery
    · exact hquery
  refine Program.Avoids.bind avoids_orError fun _ => Program.Avoids.bind (hdeny _) fun _ => ?_
  split
  · exact Program.Avoids.bind avoids_throw fun _ => avoids_pure
  · exact avoids_pure

theorem avoids_beginScoped {role claims headers : Option String} :
    Program.Avoids .commit (SqlOperations.beginScoped role claims headers) := by
  have hset : ∀ text params, Program.Avoids .commit (discard (Db.perform (.txQuery text params))) :=
    fun text params => avoids_discard (avoids_perform fun h => by cases h)
  have hbegin : Program.Avoids .commit (discard (Db.perform .transaction)) :=
    avoids_discard (avoids_perform fun h => by cases h)
  refine Program.Avoids.bind hbegin fun _ => Program.Avoids.bind (hset _ _) fun _ => ?_
  cases claims with
  | none =>
    refine Program.Avoids.bind (hset _ _) ?_
    intro _
    cases role with
    | none => exact avoids_pure
    | some role => exact hset _ _
  | some claims =>
    refine Program.Avoids.bind (hset _ _) fun _ => Program.Avoids.bind (hset _ _) fun _ => ?_
    cases role with
    | none => exact avoids_pure
    | some role => exact hset _ _

theorem avoids_runStatement {crates : SqlCrates} {validated : ValidatedSql} {text : String}
    {params : List Json} {bound : Nat} : Program.Avoids .commit
      (SqlOperations.runStatement crates validated text params bound) :=
  Program.Avoids.bind (avoids_perform fun h => by cases h) fun _ => avoids_orError

theorem avoids_attempt {op : DbOp} {block : Db α} (h : Program.Avoids op block) :
    Program.Avoids op (Db.attempt block) := by
  intro script entry hentry
  rw [play_attempt] at hentry
  exact h script entry hentry

/-- Another error for the same program. -/
theorem play_adapt {block : Db α} {f : CacheError → CacheError} :
    (ExceptT.adapt f block).run.play script =
      ((block.run.play script).1.map (Except.mapError f), (block.run.play script).2) := by
  change (block.run >>= fun result => (.done (Except.mapError f result) :
    Program DbOp DbReply (Except CacheError α))).play script = _
  rw [Program.play_bind]
  rcases (block.run.play script).1 with _ | result
  · rfl
  · simp [Program.play]

end Programs

/-! ## 4. The commit -/

section Commit

variable {crates : UnbCrates} {operations : SqlOperations} {request : SqlRequest}
  {principal : Option Principal} {headers : Option String} {script : List (Await DbReply)}

/-- The end of a transaction whose statement succeeded. -/
theorem play_endTransaction (outcome : RowsOutcome) :
    (SqlOperations.endTransaction (.ok outcome)).run.play script = match script with
      | [] => (none, [])
      | commit :: _ => (commit.reply.map (·.map fun _ => outcome), [(.commit, commit)]) := by
  cases script with
  | nil => rfl
  | cons commit script =>
    obtain ⟨performed, reply⟩ := commit
    rcases reply with _ | (error | rows) <;> rfl

/-- **The commit of `run_sql_as`** comes after its scope and its statement. -/
theorem commit_of_runSqlAs {role : String} {validated : ValidatedSql} {text : String}
    {params : List Json} {bound : Nat} {commit : Await DbReply}
    (hcommit : (DbOp.commit, commit) ∈ ((SqlOperations.runSqlAs crates.toSqlCrates role
      (principal.map Principal.claimsJson) headers validated text params bound).run.play
        script).2) :
    ∃ scope statement later rows outcome, script = scope ++ statement :: commit :: later ∧
      scope.length = scopeLength principal ∧ (∀ await ∈ scope, Answered await) ∧
      statement.reply = some (.ok rows) ∧
      SqlOperations.statementOutcome crates.toSqlCrates validated bound rows = .ok outcome := by
  rcases Program.mem_play_bind hcommit with hearly | ⟨_, _, hscope, hrest⟩
  · exact absurd rfl (avoids_beginScoped _ _ hearly)
  obtain ⟨scope, rfl, hlength, hanswered⟩ := returns_beginScoped.mp hscope
  rcases Program.mem_play_bind hrest with hearly | ⟨result, _, hattempt, hend⟩
  · exact absurd rfl (avoids_attempt avoids_runStatement _ _ hearly)
  cases result with
  | error error =>
    have hrollback : Program.Avoids .commit (SqlOperations.endTransaction (.error error)) :=
      Program.Avoids.bind (avoids_discard (avoids_attempt (avoids_perform fun h => by cases h)))
        fun _ => avoids_throw
    exact absurd rfl (hrollback _ _ hend)
  | ok outcome =>
    obtain ⟨statement, rows, rfl, hstatement, houtcome⟩ :=
      returns_runStatement.mp (returns_attempt.mp hattempt)
    rw [play_endTransaction] at hend
    split at hend
    · exact absurd hend List.not_mem_nil
    · rename_i later
      obtain ⟨-, rfl⟩ := Prod.mk.inj (List.mem_singleton.mp hend)
      exact ⟨scope, statement, later, rows, outcome, rfl, hlength, hanswered, hstatement, houtcome⟩

/-- **A commit is reached** only past everything that comes before it. -/
theorem atCommit_of_commit {commit : Await DbReply}
    (hcommit : (DbOp.commit, commit) ∈ ((operations.execute crates.toSqlCrates request.sql
      request.params principal headers).run.play script).2) :
    ∃ validated outcome,
      AtCommit crates operations request principal script validated outcome commit := by
  rcases Program.mem_play_bind hcommit with hearly | ⟨admitted, _, haccept, hrest⟩
  · exact absurd rfl (avoids_acceptRequest _ _ hearly)
  obtain ⟨hvalid, -, hclaims, hrole, hwritable, owner, rows, rfl, howner, hdeny⟩ :=
    returns_acceptRequest.mp haccept
  rcases Program.mem_play_bind hrest with hrun | ⟨_, _, -, hlate⟩
  · rw [play_adapt, hclaims] at hrun
    obtain ⟨scope, statement, later, rows', outcome, rfl, hlength, hanswered, hstatement,
      houtcome⟩ := commit_of_runSqlAs hrun
    exact ⟨admitted.validated, outcome, hvalid, hrole, hwritable, owner, scope, statement, later,
      rfl, ⟨rows, howner, hdeny⟩, hlength, hanswered, rows', hstatement, houtcome⟩
  · exact absurd hlate List.not_mem_nil

/-- What `execute` returns once its commit is answered. -/
def executed (validated : ValidatedSql) (outcome : RowsOutcome) :
    Except CacheError (List DbRow) → Except CacheError SqlOutcome
  | .ok _ => .ok ⟨validated.command, outcome.rowsJson, outcome.rowsAffected⟩
  | .error error => .error (mapDbDenial error)

/-- **At its commit, `execute` commits**, and returns what the commit is answered. -/
theorem play_of_atCommit (headers : Option String) {validated : ValidatedSql}
    {outcome : RowsOutcome} {commit : Await DbReply}
    (h : AtCommit crates operations request principal script validated outcome commit) :
    ((operations.execute crates.toSqlCrates request.sql request.params principal
        headers).run.play script).1 = commit.reply.map (executed validated outcome) ∧
      (DbOp.commit, commit) ∈ ((operations.execute crates.toSqlCrates request.sql request.params
        principal headers).run.play script).2 := by
  obtain ⟨hvalid, hrole, hwritable, owner, scope, statement, later, rfl, ⟨rows, howner, hdeny⟩,
    hlength, hanswered, rows', hstatement, houtcome⟩ := h
  have haccept : Program.Returns (SqlOperations.acceptRequest crates.toSqlCrates operations
      request.sql principal) (owner :: scope ++ statement :: commit :: later)
      ⟨validated, roleOf operations principal, principal.map Principal.claimsJson⟩
      (scope ++ statement :: commit :: later) :=
    returns_acceptRequest.mpr
      ⟨hvalid, rfl, rfl, hrole, hwritable, owner, rows, rfl, howner, hdeny⟩
  have hscope : Program.Returns (SqlOperations.beginScoped (some (roleOf operations principal))
      (principal.map Principal.claimsJson) headers) (scope ++ statement :: commit :: later) ()
      (statement :: commit :: later) :=
    returns_beginScoped.mpr ⟨scope, rfl, hlength, hanswered⟩
  have hstatement : Program.Returns (Db.attempt (SqlOperations.runStatement crates.toSqlCrates
      validated request.sql request.params MAX_RESULT_BYTES)) (statement :: commit :: later)
      (.ok outcome) (commit :: later) :=
    returns_attempt.mpr (returns_runStatement.mpr ⟨statement, rows', rfl, hstatement, houtcome⟩)
  -- what is left of `run_sql_as` is its commit
  have hrun : ((SqlOperations.runSqlAs crates.toSqlCrates (roleOf operations principal)
      (principal.map Principal.claimsJson) headers validated request.sql request.params
      MAX_RESULT_BYTES).run.play (scope ++ statement :: commit :: later)).1 =
        commit.reply.map (·.map fun _ => outcome) ∧
      (DbOp.commit, commit) ∈ ((SqlOperations.runSqlAs crates.toSqlCrates
        (roleOf operations principal) (principal.map Principal.claimsJson) headers validated
        request.sql request.params MAX_RESULT_BYTES).run.play
          (scope ++ statement :: commit :: later)).2 := by
    rw [SqlOperations.runSqlAs, Program.play_of_returns hscope, Program.play_of_returns hstatement,
      play_endTransaction]
    exact ⟨rfl, by simp⟩
  rw [SqlOperations.execute, Program.play_of_returns haccept, Program.play_fallible_bind,
    play_adapt, hrun.1]
  rcases commit.reply with _ | (error | rows)
  · exact ⟨rfl, List.mem_append_right _ hrun.2⟩
  · exact ⟨rfl, List.mem_append_right _ hrun.2⟩
  · exact ⟨rfl, List.mem_append_right _ (List.mem_append_left _ hrun.2)⟩

/-- The reply to a request whose commit is performed is no error exactly when the commit is heard
of and the rows can be read. -/
theorem reply_executed (validated : ValidatedSql) (outcome : RowsOutcome) (commit : Await DbReply) :
    (∀ error, reply crates (commit.reply.map (executed validated outcome)) ≠ .error error) ↔
      Answered commit ∧ (crates.fromStr outcome.rowsJson).isSome := by
  unfold Answered
  rcases commit.reply with _ | (error | rows)
  · simp [reply]
  · simp [reply, executed]
  · rcases hrows : crates.fromStr outcome.rowsJson with _ | body <;>
      simp [reply, executed, parseRows, hrows]

end Commit

/-- **An error reply means that nothing was committed exactly when every commit that is performed
is heard of and has rows that can be read.** -/
theorem error_uncommitted_iff (crates : UnbCrates) (operations : SqlOperations)
    (request : SqlRequest) (headers : List (String × Option String))
    (script : List (Await DbReply)) :
    (∀ error, (sql crates operations request headers script).1 = .error error →
        ¬ Committed (sql crates operations request headers script).2) ↔
      CommitReported crates operations request script := by
  unfold sql CommitReported
  cases SqlOperations.authenticate crates request.bearer with
  | error error =>
    refine iff_of_true (fun _ _ => ?_) fun _ _ _ _ hprincipal => by cases hprincipal
    rintro ⟨commit, hcommit, -⟩
    exact absurd hcommit List.not_mem_nil
  | ok principal =>
    dsimp only
    constructor
    · intro h _ validated outcome commit hprincipal hat hperformed
      cases hprincipal
      obtain ⟨hresult, hmem⟩ := play_of_atCommit (wireHeaders crates headers) hat
      refine (reply_executed validated outcome commit).mp ?_
      intro error herror
      rw [← hresult] at herror
      exact h error herror ⟨commit, hmem, hperformed⟩
    · rintro h error herror ⟨commit, hcommit, hperformed⟩
      obtain ⟨validated, outcome, hat⟩ := atCommit_of_commit hcommit
      rw [(play_of_atCommit _ hat).1] at herror
      exact (reply_executed validated outcome commit).mpr
        (h principal validated outcome commit rfl hat hperformed) error herror

/-! ## 5. A number that is too large, and a deadline that is too early -/

/-- `INSERT .. RETURNING n`. -/
def insertSql : String := "INSERT INTO t (n) VALUES (1e400) RETURNING n"

/-- The row with the number 10 to the power of 400. -/
def hugeBody : String := "[\x7b\"n\": 1" ++ String.ofList (List.replicate 400 '0') ++ "\x7d]"

/-- The parser on this statement; `serde_json` has no double for the number. -/
def hugeCrates : UnbCrates where
  parse text :=
    if text = insertSql then .ok [.insert (some [.unnamedExpr (.identifier ⟨"n", none⟩)])]
    else .error "sql parser error"
  toUppercase text := String.ofList (text.toList.map Char.toUpper)
  fromStr _ := none
  toString _ := "\x7b\x7d"
  fromStrError _ := "number out of range at line 1 column 408"
  verify := none

/-- A data node. -/
def dataNode : SqlOperations := ⟨DEFAULT_PUBLIC_ROLE, false⟩

/-- What the database does for the request, and what becomes of the commit. -/
def insertScript (body : String) (commit : Await DbReply) : List (Await DbReply) :=
  List.replicate 5 ⟨true, some (.ok [])⟩ ++ [⟨true, some (.ok [[.string body]])⟩, commit]

theorem atCommit_insert {body : String}
    (hbound : SqlOperations.checkResultBound body MAX_RESULT_BYTES = .ok ())
    (commit : Await DbReply) :
    AtCommit hugeCrates dataNode ⟨insertSql, [], none⟩ none (insertScript body commit)
      ⟨"INSERT", true, false⟩ ⟨body, 0⟩ commit where
  accepted := validateOneStatement_ok_iff.mpr ⟨by decide, _, rfl, rfl, rfl, rfl⟩
  role := by decide
  writable := rfl
  replies := by
    refine ⟨⟨true, some (.ok [])⟩, List.replicate 4 ⟨true, some (.ok [])⟩, _, [], rfl,
      ⟨[], rfl, rfl⟩, rfl, fun await hawait => ?_, _, rfl, ?_⟩
    · rw [List.eq_of_mem_replicate hawait]
      exact ⟨[], rfl⟩
    · change (do
        SqlOperations.checkResultBound body MAX_RESULT_BYTES
        pure (⟨body, 0⟩ : RowsOutcome)) = _
      rw [hbound]
      rfl

/-- The request, and a commit that is performed. -/
def insertRun (body : String) (answer : Option (Except CacheError (List DbRow))) :
    Except HandlerError SqlReply × List (DbOp × Await DbReply) :=
  sql hugeCrates dataNode ⟨insertSql, [], none⟩ [] (insertScript body ⟨true, answer⟩)

/-- Its body cannot be read, or the answer is not waited for. -/
theorem committed_of_body {body : String}
    (hbound : SqlOperations.checkResultBound body MAX_RESULT_BYTES = .ok ())
    {answer : Option (Except CacheError (List DbRow))}
    (hanswer : answer = some (.ok []) ∨ answer = none) :
    ∃ error, (insertRun body answer).1 = .error error ∧ Committed (insertRun body answer).2 := by
  obtain ⟨hresult, hmem⟩ := play_of_atCommit none (atCommit_insert hbound ⟨true, answer⟩)
  rcases hanswer with rfl | rfl
  · exact ⟨_, congrArg (reply hugeCrates) hresult, _, hmem, rfl⟩
  · exact ⟨_, congrArg (reply hugeCrates) hresult, _, hmem, rfl⟩

/-- **The row is there, and the reply is an error**: the number cannot be read, or the deadline
fires while the commit is under way. -/
theorem committed_with_error :
    (∃ error, (insertRun hugeBody (some (.ok []))).1 = .error error ∧
      Committed (insertRun hugeBody (some (.ok []))).2) ∧
    ∃ error, (insertRun hugeBody none).1 = .error error ∧
      Committed (insertRun hugeBody none).2 := by
  have hbound : SqlOperations.checkResultBound hugeBody MAX_RESULT_BYTES = .ok () := by
    decide +kernel
  exact ⟨committed_of_body hbound (Or.inl rfl), committed_of_body hbound (Or.inr rfl)⟩

end Unb

end PgPaw
