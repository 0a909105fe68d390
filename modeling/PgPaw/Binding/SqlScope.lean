/-
# The scope of a request of `pgpaw.sql`

Whatever the database answers, and wherever the deadline drops the handler, the text of a request
is run at most once, after the role was found to own nothing, and in a transaction with the role,
the claims and the headers of the request (`sql_keeps_scope`).  The role `none` is one that the
check lets through: no such role is in the catalog, and PostgreSQL takes it to mean the user of
the session.

A transaction whose statement was answered is ended before the handler goes on.

The headers of the request are what the policies of its statement read in `request.headers`, but
for those of the transport (`headers_reach_statement`).
-/
import PgPaw.Binding.Unb
import PgPaw.Capability.LocalScope

namespace PgPaw.Unb

open Program

/-! ## 1. What may be asked -/

/-- The catalog's row of a role has none of the three flags. -/
def OwnsNothing (row : DbRow) : Prop := ∀ i < 3, ∃ flag : Int,
  SqlOperations.getFlag row i = .ok flag ∧ flag ≠ 1

/-- The catalog has no such role, or one that owns nothing. -/
def Checked (role : String) (trace : Trace DbOp DbReply) : Prop :=
  ∃ await rows, (DbOp.query SqlOperations.ownerRolesText [.string role], await) ∈ trace ∧
    await.reply = some (.ok rows) ∧ ∀ row, rows.head? = some row → OwnsNothing row

/-- The question to the catalog, and the begin of the transaction with its first settings. -/
def scopeOpening (role : String) (begun : Option (List Setting)) : List DbOp :=
  .query SqlOperations.ownerRolesText [.string role] ::
    begun.elim [] fun settings => .transaction :: settings.map Setting.query

/-- The operations before the statement of a request. -/
def opening (role : String) (principal : Option Principal) (headers : Option String) :
    List DbOp :=
  scopeOpening role
    (some (Setting.all (some role) (principal.map Principal.claimsJson) headers))

/-- The statement of a request. -/
def statement (validated : ValidatedSql) (request : SqlRequest) : DbOp :=
  .txQuery (SqlOperations.statementText validated request.sql) request.params

/-- **What a request may ask of the database**, and after what. -/
inductive Allows (crates : UnbCrates) (operations : SqlOperations) (request : SqlRequest)
    (principal : Option Principal) (headers : Option String) : Trace DbOp DbReply → DbOp → Prop
  | check (hrole : roleOf operations principal ≠ "postgres") :
    Allows crates operations request principal headers []
      (.query SqlOperations.ownerRolesText [.string (roleOf operations principal)])
  | begin {before : Trace DbOp DbReply} (hchecked : Checked (roleOf operations principal) before)
      (hclosed : session before = none)
      (hops : before.map Prod.fst = scopeOpening (roleOf operations principal) none) :
    Allows crates operations request principal headers before .transaction
  | set {before : Trace DbOp DbReply} {done rest : List Setting} {setting : Setting}
      (hopen : ∃ scope, session before = some scope)
      (hall : Setting.all (some (roleOf operations principal))
        (principal.map Principal.claimsJson) headers = done ++ setting :: rest)
      (hops : before.map Prod.fst = scopeOpening (roleOf operations principal) (some done)) :
    Allows crates operations request principal headers before setting.query
  | run {before : Trace DbOp DbReply} {scope : LocalScope} {validated : ValidatedSql}
      (hrole : roleOf operations principal ≠ "postgres")
      (haccepted : validateOneStatement crates.toSqlCrates request.sql MAX_SQL_BYTES =
        .ok validated)
      (hwritable : (operations.readOnly && validated.command != "SELECT") = false)
      (hchecked : Checked (roleOf operations principal) before)
      (hopened : before.map Prod.fst = opening (roleOf operations principal) principal headers)
      (hopen : session before = some scope)
      (hfor : scope.IsFor (some (roleOf operations principal))
        (principal.map Principal.claimsJson) headers)
      (hruns : scope.runsAs "postgres" = if roleOf operations principal = "none" then "postgres"
        else roleOf operations principal) :
    Allows crates operations request principal headers before (statement validated request)
  | commit {before : Trace DbOp DbReply} {await : Await DbReply} {rows : List DbRow}
      {validated : ValidatedSql} {outcome : RowsOutcome}
      (hopened : before.map Prod.fst = opening (roleOf operations principal) principal headers)
      (hreply : await.reply = some (.ok rows))
      (houtcome : SqlOperations.statementOutcome crates.toSqlCrates validated MAX_RESULT_BYTES
        rows = .ok outcome) :
    Allows crates operations request principal headers
      (before ++ [(statement validated request, await)]) .commit
  | rollback {before : Trace DbOp DbReply} {await : Await DbReply} {validated : ValidatedSql}
      (hopened : before.map Prod.fst = opening (roleOf operations principal) principal headers)
      (hfailed : ∀ rows outcome, await.reply = some (.ok rows) →
        SqlOperations.statementOutcome crates.toSqlCrates validated MAX_RESULT_BYTES rows ≠
          .ok outcome) :
    Allows crates operations request principal headers
      (before ++ [(statement validated request, await)]) .rollback

/-- The contract of a request. -/
def sqlContract (crates : UnbCrates) (operations : SqlOperations) (request : SqlRequest)
    (principal : Option Principal) (headers : Option String) : Contract DbOp DbReply where
  allows := Allows crates operations request principal headers
  relies := ServerReads

/-! ## 2. What is asked -/

section Contract

variable {crates : UnbCrates} {operations : SqlOperations} {request : SqlRequest}
  {principal : Option Principal} {headers : Option String}

/-- A transaction whose statement was sent is over. -/
def Ended (operations : SqlOperations) (principal : Option Principal) (headers : Option String)
    (trace : Trace DbOp DbReply) : Prop :=
  session trace = none ∨
    trace.length ≤ (opening (roleOf operations principal) principal headers).length

/-- A flag that is let through. -/
theorem flag_of_ok {flag : Except CacheError Int} {e : CacheError} {rest : Except CacheError Unit}
    (h : (flag >>= fun n => if (n == 1) = true then throw e >>= fun (_ : Unit) => rest
      else rest) = .ok ()) : (∃ n, flag = .ok n ∧ n ≠ 1) ∧ rest = .ok () := by
  cases flag with
  | error e => cases h
  | ok n =>
    change (if (n == 1) = true then throw e >>= fun (_ : Unit) => rest else rest) = .ok () at h
    split at h
    · cases h
    · rename_i hn
      exact ⟨⟨n, rfl, by simpa using hn⟩, h⟩

/-- A role that is let through owns nothing. -/
theorem ownsNothing_of_denyOwnerRow {rows : List DbRow} {row : DbRow}
    (h : SqlOperations.denyOwnerRow rows = .ok ()) (hrow : rows.head? = some row) :
    OwnsNothing row := by
  unfold SqlOperations.denyOwnerRow at h
  rw [hrow] at h
  obtain ⟨hsuper, h⟩ := flag_of_ok h
  obtain ⟨hbypass, h⟩ := flag_of_ok h
  obtain ⟨hmember, -⟩ := @flag_of_ok _ (.forbidden
    "public SQL never executes as the database owner or a member of it") (pure ()) h
  intro i hi
  match i, hi with
  | 0, _ => exact hsuper
  | 1, _ => exact hbypass
  | 2, _ => exact hmember

/-- The role is let through, and the catalog was asked about it. -/
structure RoleAccepted (crates : UnbCrates) (operations : SqlOperations) (request : SqlRequest)
    (principal : Option Principal) (headers : Option String) (trace : Trace DbOp DbReply) :
    Prop where
  role : roleOf operations principal ≠ "postgres"
  ran : (sqlContract crates operations request principal headers).Ran
    [.query SqlOperations.ownerRolesText [.string (roleOf operations principal)]] trace
  checked : Checked (roleOf operations principal) trace

theorem obeys_denyOwnerRoles {β : Type} {post : Except CacheError β → Trace DbOp DbReply → Prop}
    (herror : ∀ e trace, Ended operations principal headers trace → post (.error e) trace) :
    (sqlContract crates operations request principal headers).Obeys (· = [])
      (SqlOperations.denyOwnerRoles (roleOf operations principal)).run
      (Contract.goingOn
        (fun _ => RoleAccepted crates operations request principal headers) post) := by
  unfold SqlOperations.denyOwnerRoles
  by_cases hrole : roleOf operations principal = "postgres"
  · simp only [hrole, beq_self_eq_true, if_true]
    refine Contract.Obeys.fallible_bind (fun _ _ => False)
      (Contract.Obeys.throw ?_) fun _ => Contract.Obeys.of_false
    rintro _ rfl
    exact herror _ _ (Or.inl rfl)
  · simp only [beq_eq_false_iff_ne.mpr hrole, Bool.false_eq_true, if_false]
    refine Contract.Obeys.fallible_bind (fun rows trace => ∃ await,
      trace = [(.query SqlOperations.ownerRolesText [.string (roleOf operations principal)],
        await)] ∧ await.reply = some (.ok rows) ∧ ServerReads (.query
          SqlOperations.ownerRolesText [.string (roleOf operations principal)]) await) ?_
      fun rows => ?_
    · refine Contract.Obeys.perform ?_ ?_
      · rintro _ rfl
        exact .check hrole
      · rintro _ await reply rfl hreply hrely
        cases reply with
        | ok rows => exact ⟨await, rfl, hreply, hrely⟩
        | error e => exact herror e _ (Or.inr (by simp [opening, scopeOpening]))
    · refine obeys_orError ?_ ?_
      · rintro _ hdeny _ ⟨await, rfl, hreply, hrely⟩
        exact ⟨hrole, Contract.ran_cons.mpr ⟨rfl, ⟨rows, hreply⟩, hrely, Contract.ran_nil.mpr rfl⟩,
          await, rows, List.mem_singleton_self _, hreply, fun row hrow =>
            ownsNothing_of_denyOwnerRow hdeny hrow⟩
      · rintro e - _ ⟨await, rfl, -, -⟩
        exact herror e _ (Or.inr (by simp [opening, scopeOpening]))

/-- What `execute` goes on with. -/
structure Accepted (crates : UnbCrates) (operations : SqlOperations) (request : SqlRequest)
    (principal : Option Principal) (headers : Option String)
    (admitted : SqlOperations.Admitted) (trace : Trace DbOp DbReply) : Prop extends
    RoleAccepted crates operations request principal headers trace where
  valid : validateOneStatement crates.toSqlCrates request.sql MAX_SQL_BYTES =
    .ok admitted.validated
  writable : (operations.readOnly && admitted.validated.command != "SELECT") = false
  role_eq : admitted.role = roleOf operations principal
  claims_eq : admitted.claims = principal.map Principal.claimsJson

theorem obeys_acceptRequest {β : Type} {post : Except CacheError β → Trace DbOp DbReply → Prop}
    (herror : ∀ e trace, Ended operations principal headers trace → post (.error e) trace) :
    (sqlContract crates operations request principal headers).Obeys (· = [])
      (SqlOperations.acceptRequest crates.toSqlCrates operations request.sql principal).run
      (Contract.goingOn (Accepted crates operations request principal headers) post) := by
  unfold SqlOperations.acceptRequest
  refine Contract.Obeys.fallible_bind (fun validated trace => trace = [] ∧
    validateOneStatement crates.toSqlCrates request.sql MAX_SQL_BYTES = .ok validated)
    (obeys_orError ?_ ?_) fun validated => ?_
  · rintro validated hvalid _ rfl
    exact ⟨rfl, hvalid⟩
  · rintro e - _ rfl
    exact herror e _ (Or.inl rfl)
  refine Contract.Obeys.assuming fun hvalid => ?_
  refine Contract.Obeys.fallible_bind _ (obeys_denyOwnerRoles herror) fun _ => ?_
  split
  · refine Contract.Obeys.fallible_bind (fun _ _ => False) (Contract.Obeys.throw ?_)
      fun _ => Contract.Obeys.of_false
    intro trace haccepted
    refine herror _ _ (Or.inr ?_)
    rw [haccepted.ran.length]
    exact Nat.succ_le_succ (Nat.zero_le _)
  · rename_i hwritable
    refine Contract.Obeys.done fun trace haccepted => ?_
    exact ⟨haccepted, hvalid, Bool.eq_false_iff.mpr hwritable, rfl, rfl⟩

/-- The statement of a request has been sent, last of all, and this came of it. -/
def StatementSent (crates : UnbCrates) (operations : SqlOperations) (request : SqlRequest)
    (principal : Option Principal) (headers : Option String) (validated : ValidatedSql)
    (result : Except CacheError RowsOutcome) (trace : Trace DbOp DbReply) : Prop :=
  ∃ before await, trace = before ++ [(statement validated request, await)] ∧
    before.map Prod.fst = opening (roleOf operations principal) principal headers ∧
    match result with
    | .ok outcome => ∃ rows, await.reply = some (.ok rows) ∧ SqlOperations.statementOutcome
        crates.toSqlCrates validated MAX_RESULT_BYTES rows = .ok outcome
    | .error _ => ∀ rows outcome, await.reply = some (.ok rows) →
        SqlOperations.statementOutcome crates.toSqlCrates validated MAX_RESULT_BYTES rows ≠
          .ok outcome

/-- Everything before the statement has been answered. -/
structure Opened (crates : UnbCrates) (operations : SqlOperations) (request : SqlRequest)
    (principal : Option Principal) (headers : Option String) (validated : ValidatedSql)
    (trace : Trace DbOp DbReply) : Prop where
  ran : ∃ start, RoleAccepted crates operations request principal headers start ∧
    (sqlContract crates operations request principal headers).RanFrom start
      (.transaction :: (Setting.all (some (roleOf operations principal))
        (principal.map Principal.claimsJson) headers).map Setting.query) trace
  valid : validateOneStatement crates.toSqlCrates request.sql MAX_SQL_BYTES = .ok validated
  writable : (operations.readOnly && validated.command != "SELECT") = false

namespace Opened

variable {validated : ValidatedSql} {trace : Trace DbOp DbReply}

theorem ops (h : Opened crates operations request principal headers validated trace) :
    trace.map Prod.fst = opening (roleOf operations principal) principal headers := by
  obtain ⟨start, hstart, more, rfl, hmore⟩ := h.ran
  rw [List.map_append, hstart.ran.ops, hmore.ops]
  rfl

/-- **The statement is run in its scope.** -/
theorem allows (h : Opened crates operations request principal headers validated trace) :
    Allows crates operations request principal headers trace (statement validated request) := by
  have hops := h.ops
  obtain ⟨start, hstart, hran⟩ := h.ran
  have hfor := LocalScope.isFor_assignAll (some (roleOf operations principal))
    (principal.map Principal.claimsJson) headers
  have hopen := session_of_begun (fun _ _ h => h) hran
  obtain ⟨await, rows, hmem, hreply, hrow⟩ := hstart.checked
  have hname : nameBytes (roleOf operations principal).toList ≤ NAME_BYTES :=
    hstart.ran.kept _ hmem ⟨rows, hreply⟩ rfl _ rfl
  have hchecked : Checked (roleOf operations principal) trace := by
    obtain ⟨more, rfl, -⟩ := hran
    exact ⟨await, rows, List.mem_append_left _ hmem, hreply, hrow⟩
  refine .run hstart.role h.valid h.writable hchecked hops hopen hfor ?_
  rw [hfor.runsAs, truncatedName_of_le hname]

end Opened

theorem obeys_runStatement {validated : ValidatedSql} :
    (sqlContract crates operations request principal headers).Obeys
      (Opened crates operations request principal headers validated)
      (SqlOperations.runStatement crates.toSqlCrates validated request.sql request.params
        MAX_RESULT_BYTES).run
      (StatementSent crates operations request principal headers validated) := by
  refine Contract.Obeys.fallible_bind (fun rows trace => ∃ before await,
    trace = before ++ [(statement validated request, await)] ∧
      before.map Prod.fst = opening (roleOf operations principal) principal headers ∧
        await.reply = some (.ok rows)) ?_ fun rows => Contract.Obeys.done ?_
  · refine Contract.Obeys.perform (fun _ h => h.allows) fun before await reply h hreply _ => ?_
    cases reply with
    | ok rows => exact ⟨before, await, rfl, h.ops, hreply⟩
    | error e =>
      refine ⟨before, await, rfl, h.ops, fun rows outcome hok => ?_⟩
      rw [hreply] at hok
      cases hok
  · rintro _ ⟨before, await, rfl, hops, hreply⟩
    refine ⟨before, await, rfl, hops, ?_⟩
    cases houtcome : SqlOperations.statementOutcome crates.toSqlCrates validated
        MAX_RESULT_BYTES rows with
    | ok outcome => exact ⟨rows, hreply, houtcome⟩
    | error e =>
      intro rows' outcome hreply'
      rw [hreply] at hreply'
      cases hreply'
      rw [houtcome]
      exact fun h => by cases h

theorem session_commit (trace : Trace DbOp DbReply) (await : Await DbReply) :
    session (trace ++ [(.commit, await)]) = none := by
  simp [session, sessionAfter]

theorem session_rollback (trace : Trace DbOp DbReply) (await : Await DbReply) :
    session (trace ++ [(.rollback, await)]) = none := by
  simp [session, sessionAfter]

/-- **The end of a transaction ends it**, whether it is answered or fails. -/
theorem obeys_endTransaction {validated : ValidatedSql}
    (result : Except CacheError RowsOutcome) :
    (sqlContract crates operations request principal headers).Obeys
      (StatementSent crates operations request principal headers validated result)
      (SqlOperations.endTransaction result).run
      fun _ trace => session trace = none := by
  cases result with
  | ok outcome =>
    refine Contract.Obeys.fallible_bind (fun _ trace => session trace = none)
      (Contract.Obeys.discard ?_) fun _ => Contract.Obeys.done fun _ h => h
    refine Contract.Obeys.perform ?_ fun before await reply _ _ _ => ?_
    · rintro _ ⟨before, await, rfl, hops, rows, hreply, houtcome⟩
      exact .commit hops hreply houtcome
    · cases reply <;> exact session_commit _ _
  | error e =>
    refine Contract.Obeys.fallible_bind (fun _ trace => session trace = none)
      (Contract.Obeys.discard (obeys_attempt ?_)) fun _ => Contract.Obeys.done fun _ h => h
    refine Contract.Obeys.perform ?_ fun before await reply _ _ _ => session_rollback _ _
    rintro _ ⟨before, await, rfl, hops, hfailed⟩
    exact .rollback hops hfailed

theorem obeys_runSqlAs {validated : ValidatedSql} :
    (sqlContract crates operations request principal headers).Obeys
      (fun trace => RoleAccepted crates operations request principal headers trace ∧
        validateOneStatement crates.toSqlCrates request.sql MAX_SQL_BYTES = .ok validated ∧
        (operations.readOnly && validated.command != "SELECT") = false)
      (SqlOperations.runSqlAs crates.toSqlCrates (roleOf operations principal)
        (principal.map Principal.claimsJson) headers validated request.sql request.params
        MAX_RESULT_BYTES).run
      fun _ => Ended operations principal headers := by
  refine Contract.Obeys.of_start ?_
  rintro start ⟨hrole, hvalid, hwritable⟩
  refine Contract.Obeys.fallible_bind _ (obeys_beginScoped (fun _ _ h => h) ?_
    ?_ ?_) fun _ => ?_
  · refine .begin hrole.checked ?_ hrole.ran.ops
    obtain ⟨⟨_, await⟩, _, rfl, rfl, hnil⟩ := List.map_eq_cons_iff.mp hrole.ran.ops
    rw [List.map_eq_nil_iff.mp hnil]
    rfl
  · rintro done setting rest hall _ ⟨more, rfl, hmore⟩ hopen
    refine Allows.set hopen hall ?_
    rw [List.map_append, hrole.ran.ops, hmore.ops]
    rfl
  · rintro done op rest hall e _ ⟨_, await, rfl, ⟨more, rfl, hmore⟩, -⟩
    have hlength := congrArg List.length hall
    have hstart := hrole.ran.length
    have hdone := hmore.length
    refine Or.inr ?_
    simp only [List.length_append, List.length_cons, List.length_nil, opening, scopeOpening,
      Option.elim_some] at hlength hstart ⊢
    omega
  refine Contract.Obeys.fallible_bind _ (obeys_attempt (obeys_runStatement.weaken
    (fun trace hran => ⟨⟨start, hrole, hran⟩, hvalid, hwritable⟩) fun _ _ h => h)) fun result =>
      (obeys_endTransaction result).weaken (fun _ h => h) fun _ _ h => Or.inl h

/-- **A request keeps to its contract**, and ends what it began. -/
theorem obeys_execute : (sqlContract crates operations request principal headers).Obeys (· = [])
    (operations.execute crates.toSqlCrates request.sql request.params principal headers).run
    fun _ => Ended operations principal headers := by
  refine Contract.Obeys.fallible_bind _ (obeys_acceptRequest fun _ _ h => h) fun admitted => ?_
  refine Contract.Obeys.of_start fun start haccepted => ?_
  rw [haccepted.role_eq, haccepted.claims_eq]
  refine Contract.Obeys.fallible_bind (fun _ => Ended operations principal headers)
    (Contract.Obeys.map (obeys_runSqlAs.weaken ?_ ?_)) fun _ => Contract.Obeys.done fun _ h => h
  · rintro _ rfl
    exact ⟨haccepted.toRoleAccepted, haccepted.valid, haccepted.writable⟩
  · intro result trace h
    cases result <;> exact h

end Contract

/-! ## 3. The handler -/

/-- **The text of a request is run in the scope of the request**, or not at all.  Whatever is
asked of the database is one of six things, each allowed where it is asked; the statement is asked
for once, under a verified principal's role or the public one.  When `execute` returns, the
transaction of a statement that was sent is over. -/
theorem sql_keeps_scope (crates : UnbCrates) (operations : SqlOperations) (request : SqlRequest)
    (headers : List (String × Option String)) (script : List (Await DbReply)) :
    (∀ before op await after,
      (sql crates operations request headers script).2 = before ++ (op, await) :: after →
      (∀ e ∈ before, ServerReads e.1 e.2) →
        ∃ principal, SqlOperations.authenticate crates request.bearer = .ok principal ∧
          Allows crates operations request principal (wireHeaders crates headers) before op) ∧
    ∀ principal, SqlOperations.authenticate crates request.bearer = .ok principal →
      ∀ result, ((operations.execute crates.toSqlCrates request.sql request.params principal
        (wireHeaders crates headers)).run.play script).1 = some result →
      (∀ e ∈ (sql crates operations request headers script).2, ServerReads e.1 e.2) →
        Ended operations principal (wireHeaders crates headers)
          (sql crates operations request headers script).2 := by
  unfold sql
  cases SqlOperations.authenticate crates request.bearer with
  | error e =>
    refine ⟨fun before op await after hsplit => ?_, fun principal h => by cases h⟩
    exact absurd hsplit.symm (by simp)
  | ok principal =>
    refine ⟨fun before op await after hsplit hreads => ?_, ?_⟩
    · exact ⟨principal, rfl, obeys_execute.allows_of_split hsplit hreads⟩
    · rintro _ ⟨⟩ result hresult hreads
      exact obeys_execute.post_of_result hresult hreads

/-! ## 4. The headers -/

/-- The name of a header of the transport, which is kept back. -/
def isReserved (name : String) : Bool := "unb-".toList.isPrefixOf name.toList

/-- The value of a header that a policy is to see: of those of one name, the last that is
text. -/
def headerValue (headers : List (String × Option String)) (name : String) : Option String :=
  if isReserved name then none
  else ((headers.filter fun header => header.1 == name).filterMap Prod.snd).getLast?

theorem lookup_field (name : String) (value : Json) (fields : List (String × Json))
    (key : String) : ((name, value) :: fields).lookup key =
      if key = name then some value else fields.lookup key := by
  by_cases hkey : key = name
  · simp [hkey]
  · rw [List.lookup_cons, beq_false_of_ne hkey, if_neg hkey]

theorem lookup_insertField (name : String) (value : Json) (fields : List (String × Json))
    (key : String) : (insertField name value fields).lookup key =
      if key = name then some value else fields.lookup key := by
  induction fields with
  | nil => exact lookup_field name value [] key
  | cons field fields ih =>
    obtain ⟨name', value'⟩ := field
    rw [insertField]
    split
    · exact lookup_field name value _ key
    split
    · rename_i hname
      subst hname
      rw [lookup_field, lookup_field]
      split <;> rfl
    · rename_i hname
      rw [lookup_field, lookup_field, ih]
      by_cases hkey : key = name'
      · rw [if_pos hkey, if_pos hkey, if_neg fun h => hname (h.symm.trans hkey)]
      · rw [if_neg hkey, if_neg hkey]

/-- The last of the values of a name stays. -/
theorem lookup_insertFields (headers : List (String × String)) (fields : List (String × Json))
    (key : String) :
    (headers.foldl (fun map header => insertField header.1 (.string header.2) map)
      fields).lookup key =
      (((headers.filter fun header => header.1 == key).getLast?).map
        fun header => Json.string header.2).or (fields.lookup key) := by
  induction headers generalizing fields with
  | nil => rfl
  | cons header headers ih =>
    rw [List.foldl_cons, ih, lookup_insertField]
    by_cases hkey : header.1 = key
    · rw [List.filter_cons_of_pos (by simpa using hkey), if_pos hkey.symm, List.getLast?_cons]
      cases (headers.filter fun header => header.1 == key).getLast? <;> rfl
    · rw [List.filter_cons_of_neg (by simpa using hkey), if_neg (Ne.symm hkey)]

/-- The headers that are sent. -/
def sentHeaders (headers : List (String × Option String)) : List (String × String) :=
  (headers.filter fun header => !isReserved header.1).filterMap
    fun header => header.2.map fun value => (header.1, value)

theorem values_sentHeaders (headers : List (String × Option String)) (name : String) :
    ((sentHeaders headers).filter fun header => header.1 == name).map Prod.snd =
      if isReserved name then []
      else (headers.filter fun header => header.1 == name).filterMap Prod.snd := by
  induction headers with
  | nil => split <;> rfl
  | cons header headers ih =>
    obtain ⟨name', value⟩ := header
    unfold sentHeaders at ih ⊢
    cases hown : isReserved name' with
    | true =>
      rw [List.filter_cons_of_neg (by simp [hown]), ih]
      by_cases hname : name' = name
      · rw [← hname, hown, if_pos rfl, if_pos rfl]
      · rw [List.filter_cons_of_neg (by simpa using hname)]
    | false =>
      rw [List.filter_cons_of_pos (by simp [hown])]
      by_cases hname : name' = name
      · subst hname
        rw [hown] at ih ⊢
        cases value with
        | none => simpa using ih
        | some value => simpa using ih
      · cases value with
        | none => simpa [hname] using ih
        | some value => simpa [hname] using ih

/-- The fields of their object. -/
def headerFields (headers : List (String × Option String)) : List (String × Json) :=
  (sentHeaders headers).foldl (fun map header => insertField header.1 (.string header.2) map) []

/-- What is relied on of `serde_json`: it reads the object of the headers as it was written. -/
structure ReadsHeaders (crates : UnbCrates) (headers : List (String × Option String)) : Prop where
  printed : crates.fromStr (crates.toString (.object (headerFields headers))) =
    some (.object (headerFields headers))
  empty : crates.fromStr "\x7b\x7d" = some (.object [])

theorem lookup_headerFields (headers : List (String × Option String)) (name : String) :
    (headerFields headers).lookup name = (headerValue headers name).map .string := by
  have hvalues := congrArg List.getLast? (values_sentHeaders headers name)
  rw [List.getLast?_map] at hvalues
  have hmap : (fun header : String × String => Json.string header.2) =
      Json.string ∘ Prod.snd := rfl
  rw [headerFields, lookup_insertFields, List.lookup_nil, Option.or_none, headerValue, hmap,
    ← Option.map_map, hvalues]
  split <;> rfl

/-- **The headers are what is sent**: their text reads as the object of them. -/
theorem wireHeaders_reads {crates : UnbCrates} {headers : List (String × Option String)}
    (hreads : ReadsHeaders crates headers) :
    crates.fromStr ((wireHeaders crates headers).getD "\x7b\x7d") =
      some (.object (headerFields headers)) := by
  have hwire : wireHeaders crates headers = if (headerFields headers).isEmpty then none
      else some (crates.toString (.object (headerFields headers))) := rfl
  rw [hwire]
  by_cases hempty : headerFields headers = []
  · rw [hempty]
    exact hreads.empty
  · rw [if_neg (by simpa using hempty)]
    exact hreads.printed

/-- **What the policies of a statement see**: what comes after the opening is the statement, and
it is run with the claims of the principal, and with an object of the headers of the request. -/
theorem headers_reach_statement {crates : UnbCrates} {operations : SqlOperations}
    {request : SqlRequest} {headers : List (String × Option String)}
    (hobject : ReadsHeaders crates headers) {principal : Option Principal}
    {script : List (Await DbReply)}
    {before after : Trace DbOp DbReply} {op : DbOp} {await : Await DbReply}
    (hauth : SqlOperations.authenticate crates request.bearer = .ok principal)
    (hsplit : (sql crates operations request headers script).2 = before ++ (op, await) :: after)
    (hopened : before.map Prod.fst =
      opening (roleOf operations principal) principal (wireHeaders crates headers))
    (hreads : ∀ e ∈ before, ServerReads e.1 e.2) :
    (∃ validated, validateOneStatement crates.toSqlCrates request.sql MAX_SQL_BYTES =
      .ok validated ∧ op = statement validated request) ∧
    ∃ scope text fields, session before = some scope ∧
      scope.settings "request.jwt.claims" = principal.map Principal.claimsJson ∧
      scope.settings "request.headers" = some text ∧
      crates.fromStr text = some (.object fields) ∧
      ∀ name, fields.lookup name = (headerValue headers name).map .string := by
  have hallows : Allows crates operations request principal (wireHeaders crates headers) before
      op := by
    rw [sql, hauth] at hsplit
    exact obeys_execute.allows_of_split hsplit hreads
  cases hallows with
  | check => exact absurd hopened (by simp [opening, scopeOpening])
  | begin _ _ hops =>
    rw [hops] at hopened
    exact absurd hopened (by simp [opening, scopeOpening])
  | set _ hall hops =>
    have hlength := congrArg List.length (hops.symm.trans hopened)
    simp [opening, scopeOpening, hall] at hlength
  | run hrole haccepted hwritable hchecked hops hopen hfor hruns =>
    exact ⟨⟨_, haccepted, rfl⟩, _, _, _, hopen, hfor.claims, hfor.headers,
      wireHeaders_reads hobject, lookup_headerFields headers⟩
  | commit hops | rollback hops =>
    have hlength := congrArg List.length hopened
    rw [List.map_append, List.length_append, hops] at hlength
    simp at hlength

/-- A header of the client, and one of the transport. -/
def twoHeaders : List (String × Option String) :=
  [("authorization", some "u1"), ("unb-peer", some "transport")]

def twoHeadersText : String := "\x7b\"authorization\":\"u1\"\x7d"

def twoHeadersCrates : UnbCrates := { hugeCrates with
  toString := fun _ => twoHeadersText
  fromStr := fun text =>
    if text = twoHeadersText then some (.object [("authorization", .string "u1")])
    else if text = "\x7b\x7d" then some (.object []) else none }

/-- The operations before its statement. -/
def twoHeadersOpening : Trace DbOp DbReply :=
  (opening DEFAULT_PUBLIC_ROLE none (some twoHeadersText)).map fun op => (op, ⟨true, some (.ok [])⟩)

/-- **A policy sees the client's header**, and not the transport's. -/
theorem two_headers_reach_statement : ∃ scope text fields,
    session twoHeadersOpening = some scope ∧ scope.settings "request.headers" = some text ∧
      twoHeadersCrates.fromStr text = some (.object fields) ∧
      fields.lookup "authorization" = some (.string "u1") ∧ fields.lookup "unb-peer" = none := by
  have hreads : ∀ e ∈ twoHeadersOpening, ServerReads e.1 e.2 := by
    have htimeout : (serverLex Setting.timeout.text).isSome := by decide +kernel
    have hheaders : (serverLex (Setting.headers twoHeadersText).text).isSome := by decide +kernel
    have hrole : (serverLex (Setting.role DEFAULT_PUBLIC_ROLE).text).isSome := by decide +kernel
    have hname : nameBytes DEFAULT_PUBLIC_ROLE.toList ≤ NAME_BYTES := by decide
    rintro e he
    obtain ⟨op, hop, rfl⟩ := List.mem_map.mp he
    change op ∈ [DbOp.query SqlOperations.ownerRolesText [.string DEFAULT_PUBLIC_ROLE],
      .transaction, Setting.timeout.query, (Setting.headers twoHeadersText).query,
      (Setting.role DEFAULT_PUBLIC_ROLE).query] at hop
    simp only [List.mem_cons, List.not_mem_nil, or_false] at hop
    rcases hop with rfl | rfl | rfl | rfl | rfl
    · rintro - - role hparams
      obtain rfl : DEFAULT_PUBLIC_ROLE = role := by simpa using hparams
      exact hname
    · exact fun _ => trivial
    · exact fun _ => htimeout
    · exact fun _ => hheaders
    · exact fun _ => hrole
  have hsplit : (sql twoHeadersCrates dataNode ⟨insertSql, [], none⟩ twoHeaders
      (List.replicate 7 ⟨true, some (.ok [])⟩)).2 = twoHeadersOpening ++
        (statement ⟨"INSERT", true, false⟩ ⟨insertSql, [], none⟩, ⟨true, some (.ok [])⟩) ::
          [(.commit, ⟨true, some (.ok [])⟩)] := by
    rfl
  have hobject : ReadsHeaders twoHeadersCrates twoHeaders := ⟨rfl, rfl⟩
  obtain ⟨-, scope, text, fields, hopen, -, htext, hfields, hvalues⟩ :=
    headers_reach_statement hobject rfl hsplit rfl hreads
  exact ⟨scope, text, fields, hopen, htext, hfields, hvalues _, hvalues _⟩

end PgPaw.Unb
