/-
# `binding/http`: `/query` and `/q/{hash}/{version}`

`POST /query` prepares a read and goes on with it in one of four ways: as its own response, as a
stream, or as a redirect to the cursor of a snapshot that anybody may keep.

* `query_answers`: what the handler does is what `serving` says, it does not panic, and no cache
  may keep what it responds.
* `redirect_resolves`: the location of a redirect is the path of the cursor of that snapshot, in
  every run of the read core and at any later time.  The cursor is answered while it is not
  evicted, with a result of the query that has every transaction up to the version.
-/
import PgPaw.Binding.Unb
import PgPaw.Capability.Cursor
import PgPaw.Capability.Prepare
import PgPaw.Capability.Server
import PgPaw.Capability.SnapshotAge
import PgPaw.JsonText
import PgPaw.Lib.Contract

namespace PgPaw.Http

open Program

/-! ## 1. Responses -/

inductive HttpBody
  | empty
  | text (body : String)
  /-- The events of a subscription. -/
  | events
  deriving DecidableEq, Repr

structure HttpResponse where
  status : Nat
  headers : List (String × String)
  body : HttpBody
  deriving DecidableEq, Repr

/-- `CacheError::name`. -/
def errorName : CacheError → String
  | .pglite _ _ => "PgliteError"
  | .parse _ => "ParseError"
  | .rejected _ => "RejectedError"
  | .config _ => "ConfigError"
  | .cache _ => "CacheError"
  | .halted _ => "HaltedError"
  | .unauthorized _ => "UnauthorizedError"
  | .forbidden _ => "ForbiddenError"

/-- `CacheError::envelope`; the fields of an object are in the order of their names. -/
def envelope (error : CacheError) : String :=
  (Json.object [("message", .string error.display),
    ("name", .string (errorName error))]).display

/-- `error_status`. -/
def errorStatus : CacheError → Nat
  | .rejected _ | .parse _ => 400
  | .halted _ => 503
  | .unauthorized _ => 401
  | .forbidden _ => 403
  | _ => 500

/-- `error_response`. -/
def errorResponse (error : CacheError) : HttpResponse where
  status := errorStatus error
  headers := [("Content-Type", "application/json")]
  body := .text (envelope error)

/-- The location of a cursor. -/
def location (hash : String) (version : Nat) : String := "/q/" ++ hash ++ "/" ++ decimal version

/-- The redirect to a cursor. -/
def seeOther (hash : String) (version : Nat) : HttpResponse where
  status := 303
  headers := [("Location", location hash version), ("Cache-Control", "no-store")]
  body := .empty

/-- A body that is only for the one who asked. -/
def inlineBody (body : String) : HttpResponse where
  status := 200
  headers := [("Cache-Control", "private, no-store"), ("Content-Type", "application/json")]
  body := .text body

/-- A live stream. -/
def eventStream : HttpResponse where
  status := 200
  headers := [("Cache-Control", "no-store"), ("Content-Type", "text/event-stream")]
  body := .events

/-- `cursor`, of what the cache has. -/
def cursor : Option CachedResult → HttpResponse
  | some result =>
    { status := 200
      headers := [("ETag", result.etag), ("Cache-Control", "public, max-age=259200"),
        ("Content-Type", "application/json")]
      body := .text result.body }
  | none =>
    { status := 404
      headers := [("Content-Type", "application/json")]
      body := .text "\x7b\"name\":\"NotFound\",\"message\":\"unknown cursor\"\x7d" }

/-! ## 2. `query` -/

/-- What the handler calls. -/
inductive HttpOp
  | prepare (request : ReadRequest)
  | materialize (read : PreparedRead)
  | executePrivate (read : PreparedRead)
  | subscribe (read : PreparedRead)
  deriving DecidableEq

inductive HttpAnswer
  | prepared (read : PreparedRead)
  | snapshot (hash : String) (version : Nat) (result : CachedResult)
  | body (text : String)
  | subscription

abbrev HttpReply := Except CacheError HttpAnswer

/-- A handler; none where it panics. -/
abbrev Handler := Program HttpOp HttpReply (Option HttpResponse)

/-- `private_response`.  The role of the principal is unwrapped to be logged. -/
def privateResponse (read : PreparedRead) : Handler := do
  match ← perform (.executePrivate read) with
  | .ok (.body text) => return read.principal.map fun _ => inlineBody text
  | .ok _ => return none
  | .error e => return some (errorResponse (mapDbDenial e))

/-- `live_query`. -/
def liveQuery (query : CacheableQuery) (principal : Option Principal) : Handler := do
  match ← perform (.subscribe ⟨query, principal, none, false⟩) with
  | .ok .subscription => return some eventStream
  | .ok _ => return none
  | .error e => return some (errorResponse e)

/-- The redirect of `query`. -/
def publicResponse (read : PreparedRead) : Handler := do
  match ← perform (.materialize read) with
  | .ok (.snapshot hash version _) => return some (seeOther hash version)
  | .ok _ => return none
  | .error e => return some (errorResponse e)

/-- What `query` does with a prepared read. -/
def respond (live : Bool) (read : PreparedRead) : Handler :=
  if read.priv then
    if live then liveQuery read.query read.principal else privateResponse read
  else if live then liveQuery read.query none
  else publicResponse read

/-- `query`. -/
def query (live : Option Bool) (sql : String) (auth : Except CacheError (Option Principal)) :
    Handler :=
  match auth with
  | .error e => return some (errorResponse e)
  | .ok principal => do
    match ← perform (.prepare ⟨sql, principal, none, []⟩) with
    | .ok (.prepared read) => respond (live.getD false) read
    | .ok _ => return none
    | .error e => return some (errorResponse e)

/-! ## 3. What it answers -/

/-- The call that goes with a way to serve a read. -/
def servingOp (read : PreparedRead) : Server.Serving → HttpOp
  | .materialize _ => .materialize read
  | .subscribe subscription => .subscribe subscription
  | .executePrivate => .executePrivate read

variable {γ : Type}

/-- An answer of `ReadOperations`, to `prepare` one of `prepare`'s. -/
def Answers (reader : Reader γ) : HttpOp → HttpAnswer → Prop
  | .prepare request, answer =>
    ∃ halted db read, prepare reader halted request db = .ok read ∧ answer = .prepared read
  | .materialize _, answer => ∃ hash version result, answer = .snapshot hash version result
  | .executePrivate _, answer => ∃ text, answer = .body text
  | .subscribe _, answer => answer = .subscription

/-- What the handler may call: `prepare`, and what `serving` says, once. -/
inductive Allows (live : Bool) (sql : String) (principal : Option Principal) :
    Trace HttpOp HttpReply → HttpOp → Prop
  | prepare : Allows live sql principal [] (.prepare ⟨sql, principal, none, []⟩)
  | serve {read : PreparedRead} {await : Await HttpReply}
      (hreply : await.reply = some (.ok (.prepared read))) :
    Allows live sql principal [(.prepare ⟨sql, principal, none, []⟩, await)]
      (servingOp read (Server.serving ⟨.http live, read.query, principal⟩ read.priv))

def httpContract (reader : Reader γ) (live : Bool) (sql : String) (principal : Option Principal) :
    Contract HttpOp HttpReply where
  allows := Allows live sql principal
  relies op await := ∀ answer, await.reply = some (.ok answer) → Answers reader op answer

/-- No cache may keep it. -/
def NoStore (response : HttpResponse) : Prop :=
  ("Cache-Control", "no-store") ∈ response.headers ∨
    ("Cache-Control", "private, no-store") ∈ response.headers

/-- **What a response says**, of what the last call was answered. -/
inductive Tells : Trace HttpOp HttpReply → HttpResponse → Prop
  | failed {before : Trace HttpOp HttpReply} {op : HttpOp} {await : Await HttpReply}
      {e : CacheError} (hreply : await.reply = some (.error e)) :
    Tells (before ++ [(op, await)]) (errorResponse e)
  | denied {before : Trace HttpOp HttpReply} {read : PreparedRead} {await : Await HttpReply}
      {e : CacheError} (hreply : await.reply = some (.error e)) :
    Tells (before ++ [(.executePrivate read, await)]) (errorResponse (mapDbDenial e))
  | redirect {before : Trace HttpOp HttpReply} {read : PreparedRead} {await : Await HttpReply}
      {hash : String} {version : Nat} {result : CachedResult} (hpublic : read.priv = false)
      (hreply : await.reply = some (.ok (.snapshot hash version result))) :
    Tells (before ++ [(.materialize read, await)]) (seeOther hash version)
  | inlineBody {before : Trace HttpOp HttpReply} {read : PreparedRead} {await : Await HttpReply}
      {text : String} (hprivate : read.priv = true) (hprincipal : read.principal.isSome = true)
      (hreply : await.reply = some (.ok (.body text))) :
    Tells (before ++ [(.executePrivate read, await)]) (inlineBody text)
  | events {before : Trace HttpOp HttpReply} {read : PreparedRead} {await : Await HttpReply}
      (hreply : await.reply = some (.ok .subscription)) :
    Tells (before ++ [(.subscribe read, await)]) eventStream

section Handler

variable {reader : Reader γ} {live : Bool} {sql : String} {principal : Option Principal}

/-- A prepared read is the requester's own, and a private one is somebody's. -/
theorem prepared_of_answers {request : ReadRequest} {read : PreparedRead}
    (h : Answers reader (.prepare request) (.prepared read)) :
    read.principal = request.principal ∧ read.headers = request.headers ∧
      (read.priv = true → ownerScope request.principal request.headers = false) := by
  obtain ⟨halted, db, _, hprepare, ⟨⟩⟩ := h
  obtain ⟨query, priv, haccess, rfl, -⟩ := prepare_ok_iff.mp hprepare
  refine ⟨rfl, rfl, ?_⟩
  rintro (rfl : priv = true)
  unfold checkAccess at haccess
  split at haccess
  · cases haccess
  · split at haccess
    · cases haccess
    · split at haccess
      · cases haccess
      · split at haccess
        · cases haccess
        · rename_i howner
          cases haccess
          simpa using howner

/-- The call that goes with a prepared read is allowed, once. -/
def Before (sql : String) (principal : Option Principal) (read : PreparedRead)
    (before : Trace HttpOp HttpReply) : Prop :=
  ∃ await : Await HttpReply, await.reply = some (.ok (.prepared read)) ∧
    before = [(.prepare ⟨sql, principal, none, []⟩, await)]

/-- What a response is to be. -/
def Responds (result : Option HttpResponse) (trace : Trace HttpOp HttpReply) : Prop :=
  ∃ response, result = some response ∧ Tells trace response ∧
    (response.status < 400 → NoStore response)

theorem not_lt_errorStatus (e : CacheError) : ¬ errorStatus e < 400 := by
  cases e <;> simp [errorStatus]

/-- An error is responded as one. -/
theorem responds_error {trace : Trace HttpOp HttpReply} {e : CacheError}
    (h : Tells trace (errorResponse e)) :
    Responds (some (errorResponse e)) trace :=
  ⟨_, rfl, h, fun hlt => absurd hlt (not_lt_errorStatus e)⟩

/-- One call, and what is made of its answer. -/
theorem obeys_call {read : PreparedRead} {op : HttpOp} {f : HttpReply → Handler}
    (hop : servingOp read (Server.serving ⟨.http live, read.query, principal⟩ read.priv) = op)
    (hf : ∀ before await reply, await.reply = some reply →
      (∀ answer, reply = .ok answer → Answers reader op answer) →
        ∃ result, f reply = pure result ∧ Responds result (before ++ [(op, await)])) :
    (httpContract reader live sql principal).Obeys (Before sql principal read)
      (perform op >>= f) (Responds) := by
  have hcall : (httpContract reader live sql principal).Obeys (Before sql principal read)
      (perform op) fun reply trace => ∃ result, f reply = pure result ∧
        Responds result trace := by
    refine Contract.Obeys.perform ?_ ?_
    · rintro _ ⟨await, hreply, rfl⟩
      rw [← hop]
      exact .serve hreply
    · intro before await reply _ hreply hrely
      refine hf before await reply hreply fun answer hanswer => hrely answer ?_
      rw [hreply, hanswer]
  refine Contract.Obeys.bind hcall fun reply => Contract.Obeys.of_start fun start hstart => ?_
  obtain ⟨result, hresult, hresponds⟩ := hstart
  rw [hresult]
  refine Contract.Obeys.done ?_
  rintro _ rfl
  exact hresponds

theorem obeys_liveQuery {read : PreparedRead} {asked : Option Principal}
    (hop : servingOp read (Server.serving ⟨.http live, read.query, principal⟩ read.priv) =
      .subscribe ⟨read.query, asked, none, false⟩) :
    (httpContract reader live sql principal).Obeys (Before sql principal read)
      (liveQuery read.query asked) (Responds) := by
  refine obeys_call hop fun before await reply hreply hanswers => ?_
  cases reply with
  | error e => exact ⟨_, rfl, responds_error (.failed hreply)⟩
  | ok answer =>
    obtain rfl : answer = .subscription := hanswers answer rfl
    exact ⟨_, rfl, _, rfl, .events hreply, fun _ => Or.inl (by decide)⟩

theorem obeys_respond {read : PreparedRead} (hprincipal : read.principal = principal)
    (hprivate : read.priv = true → principal.isSome = true) :
    (httpContract reader live sql principal).Obeys (Before sql principal read)
      (respond live read) (Responds) := by
  unfold respond
  cases hpriv : read.priv with
  | true =>
    cases live with
    | true =>
      rw [if_pos rfl, if_pos rfl]
      refine obeys_liveQuery ?_
      rw [hpriv, hprincipal]
      rfl
    | false =>
      rw [if_pos rfl, if_neg Bool.false_ne_true]
      have hop : servingOp read (Server.serving ⟨.http false, read.query, principal⟩ read.priv) =
          .executePrivate read := by
        rw [hpriv]
        rfl
      refine obeys_call hop fun before await reply hreply hanswers => ?_
      cases reply with
      | error e => exact ⟨_, rfl, responds_error (.denied hreply)⟩
      | ok answer =>
        obtain ⟨text, rfl⟩ : ∃ text, answer = .body text := hanswers answer rfl
        obtain ⟨p, hp⟩ := Option.isSome_iff_exists.mp (hprivate hpriv)
        have hasked : read.principal = some p := hprincipal.trans hp
        have hsome : read.principal.map (fun _ => inlineBody text) = some (inlineBody text) := by
          rw [hasked]
          rfl
        have htells : Tells (before ++ [(.executePrivate read, await)]) (inlineBody text) :=
          .inlineBody hpriv (by rw [hasked]; rfl) hreply
        exact ⟨_, rfl, _, hsome, htells, fun _ => Or.inr (by simp [inlineBody])⟩
  | false =>
    cases live with
    | true =>
      rw [if_neg Bool.false_ne_true, if_pos rfl]
      refine obeys_liveQuery ?_
      rw [hpriv]
      rfl
    | false =>
      rw [if_neg Bool.false_ne_true, if_neg Bool.false_ne_true]
      have hop : servingOp read (Server.serving ⟨.http false, read.query, principal⟩ read.priv) =
          .materialize read := by
        rw [hpriv]
        rfl
      refine obeys_call hop fun before await reply hreply hanswers => ?_
      cases reply with
      | error e => exact ⟨_, rfl, responds_error (.failed hreply)⟩
      | ok answer =>
        obtain ⟨hash, version, result, rfl⟩ :
          ∃ hash version result, answer = .snapshot hash version result := hanswers answer rfl
        exact ⟨_, rfl, _, rfl, .redirect hpriv hreply, fun _ => Or.inl (by simp [seeOther])⟩

/-- The handler keeps to its contract. -/
theorem obeys_query {live : Option Bool} : (httpContract reader (live.getD false) sql
    principal).Obeys (· = []) (query live sql (.ok principal)) (Responds) := by
  have hprepare : (httpContract reader (live.getD false) sql principal).Obeys (· = [])
      (perform (.prepare ⟨sql, principal, none, []⟩)) fun reply trace =>
        ∃ await : Await HttpReply, await.reply = some reply ∧
          trace = [(.prepare ⟨sql, principal, none, []⟩, await)] ∧ ∀ answer, reply = .ok answer →
            Answers reader (.prepare ⟨sql, principal, none, []⟩) answer := by
    refine Contract.Obeys.perform ?_ ?_
    · rintro _ rfl
      exact .prepare
    · rintro _ await reply rfl hreply hrely
      refine ⟨await, hreply, rfl, fun answer hanswer => hrely answer ?_⟩
      rw [hreply, hanswer]
  refine Contract.Obeys.bind hprepare fun reply => Contract.Obeys.of_start fun start hstart => ?_
  obtain ⟨await, hreply, rfl, hanswers⟩ := hstart
  cases reply with
  | error e =>
    refine Contract.Obeys.done ?_
    rintro _ rfl
    exact responds_error (@Tells.failed [] _ await e hreply)
  | ok answer =>
    obtain ⟨halted, db, read, hread, rfl⟩ := hanswers answer rfl
    obtain ⟨hprincipal, hheaders, hprivate⟩ := prepared_of_answers ⟨halted, db, read, hread, rfl⟩
    have hsomebody : read.priv = true → principal.isSome = true := by
      intro hpriv
      simpa [ownerScope] using hprivate hpriv
    refine Contract.Obeys.weaken (obeys_respond hprincipal hsomebody) ?_ fun _ _ h => h
    rintro _ rfl
    exact ⟨await, hreply, rfl⟩

/-- **What `POST /query` answers.**  Of a request that is somebody's or nobody's, the handler
prepares the read and makes at most the one call that `serving` says.  It does not panic, whatever
is answered; what it responds tells what the last call was answered, and no cache may keep a
success. -/
theorem query_answers {live : Option Bool} {script : List (Await HttpReply)}
    (hanswers : ∀ e ∈ ((query live sql (.ok principal)).play script).2, ∀ answer,
      e.2.reply = some (.ok answer) → Answers reader e.1 answer) :
    (∀ before op await after, ((query live sql (.ok principal)).play script).2 =
      before ++ (op, await) :: after → Allows (live.getD false) sql principal before op) ∧
    ∀ result, ((query live sql (.ok principal)).play script).1 = some result →
      ∃ response, result = some response ∧
        Tells ((query live sql (.ok principal)).play script).2 response ∧
        (response.status < 400 → NoStore response) := by
  refine ⟨fun before op await after hsplit => ?_,
    fun result hresult => obeys_query.post_of_result hresult hanswers⟩
  refine obeys_query.allows_of_split hsplit fun e he => hanswers e ?_
  rw [hsplit]
  exact List.mem_append_left _ he

end Handler

/-- A server whose table `users` has row security. -/
def privateReader : Reader String :=
  { usersReader with isPrivate := primaryVerdict [⟨"public", "users", 'r', true, true⟩] }

def ann : Principal := ⟨"app_user", "\x7b\"role\":\"app_user\",\"sub\":\"ann\"\x7d"⟩

/-- `SELECT * FROM users`, asked by ann, who may see her own row. -/
def usersScript : List (Await HttpReply) :=
  [⟨true, some (.ok (.prepared ⟨usersRead, some ann, none, true⟩))⟩,
    ⟨true, some (.ok (.body Read.oneRow))⟩]

/-- She gets it in the response, which no cache may keep. -/
theorem users_are_inline :
    ((query none "SELECT * FROM users" (.ok (some ann))).play usersScript).1 =
      some (some (inlineBody Read.oneRow)) ∧ NoStore (inlineBody Read.oneRow) := by
  have hprepare : prepare privateReader none ⟨"SELECT * FROM users", some ann, none, []⟩
      (fun _ => "[]") = .ok ⟨usersRead, some ann, none, true⟩ := by rfl
  have htrace : ((query none "SELECT * FROM users" (.ok (some ann))).play usersScript).2 =
        [(.prepare ⟨"SELECT * FROM users", some ann, none, []⟩,
          ⟨true, some (.ok (.prepared ⟨usersRead, some ann, none, true⟩))⟩),
        (.executePrivate ⟨usersRead, some ann, none, true⟩,
          ⟨true, some (.ok (.body Read.oneRow))⟩)] := by rfl
  have hresult : ((query none "SELECT * FROM users" (.ok (some ann))).play usersScript).1 =
      some (some (inlineBody Read.oneRow)) := by rfl
  have hanswers := @query_answers String privateReader "SELECT * FROM users" (some ann) none
    usersScript (by
      rw [htrace]
      simp only [List.forall_mem_cons]
      refine ⟨?_, ?_, by simp⟩
      · rintro _ ⟨⟩
        exact ⟨none, _, _, hprepare, rfl⟩
      · rintro _ ⟨⟩
        exact ⟨_, rfl⟩)
  obtain ⟨response, hresponse, -, hstore⟩ := hanswers.2 _ hresult
  obtain rfl := Option.some.inj hresponse
  exact ⟨hresult, hstore (by decide)⟩

/-! ## 4. Cursors -/

/-- `/q/{hash}/{version}`, as the router takes a path apart; a segment is a text without
slashes, and is percent-decoded. -/
def cursorPath (decode : String → String) (path : String) : Option (String × String) :=
  match path.toList.dropPrefix? "/q/".toList with
  | none => none
  | some rest =>
    let hash := rest.takeWhile (· != '/')
    match rest.dropWhile (· != '/') with
    | [] => none
    | _ :: version =>
      if hash.isEmpty || version.isEmpty || version.contains '/' then none
      else some (decode (String.ofList hash), decode (String.ofList version))

/-- `GET`, of a path that is a cursor's, while the cache is as it is. -/
def getCursor (decode : String → String) (cache : String → Option CachedResult) (path : String) :
    Option HttpResponse :=
  (cursorPath decode path).map fun segments => cursor (cache (cacheKey segments.1 segments.2))

/-- A text without percent signs is decoded to itself. -/
def Plain (decode : String → String) : Prop := ∀ text, '%' ∉ text.toList → decode text = text

theorem digitChar_ne_percent : ∀ a < 16, '%' ≠ Nat.digitChar a := by decide

/-- **The location of a redirect is the path of its cursor.** -/
theorem cursorPath_location {decode : String → String} (hdecode : Plain decode)
    (fingerprint version : Nat) :
    cursorPath decode (location (lowerHex fingerprint) version) =
      some (lowerHex fingerprint, decimal version) := by
  have hpath : (location (lowerHex fingerprint) version).toList =
      "/q/".toList ++ (Nat.toDigits 16 fingerprint ++ '/' :: Nat.toDigits 10 version) := by
    simp [location, lowerHex, decimal]
  have hhash : ∀ c ∈ Nat.toDigits 16 fingerprint, (c != '/') = true := by
    intro c hc
    have hslash := notMem_toDigits (b := 16) (by decide) (by decide) digitChar_ne_slash fingerprint
    exact bne_iff_ne.mpr fun h => hslash (h ▸ hc)
  have hversion : (Nat.toDigits 10 version).contains '/' = false := by
    have hslash := notMem_toDigits (b := 10) (by decide) (by decide) digitChar_ne_slash version
    simpa using hslash
  have hdecoded : decode (lowerHex fingerprint) = lowerHex fingerprint ∧
      decode (decimal version) = decimal version := by
    refine ⟨hdecode _ ?_, hdecode _ ?_⟩ <;> simp only [lowerHex, decimal, String.toList_ofList]
    · exact notMem_toDigits (by decide) (by decide) digitChar_ne_percent fingerprint
    · exact notMem_toDigits (by decide) (by decide) digitChar_ne_percent version
  rw [cursorPath, hpath, List.dropPrefix?_append_of_beq _ (beq_self_eq_true _)]
  simp only [List.takeWhile_append_of_pos hhash, List.dropWhile_append_of_pos hhash,
    List.takeWhile_cons, List.dropWhile_cons, bne_self_eq_false, Bool.false_eq_true, if_false,
    List.append_nil, List.isEmpty_eq_false_iff.mpr Nat.toDigits_ne_nil, hversion, Bool.or_self]
  exact congrArg some (Prod.ext hdecoded.1 hdecoded.2)

section Cursors

open Transition

variable {engine : Engine γ} {pk : List (String × String)} {full : List String}
  {issued : CacheableQuery → Prop} {s s' : Read.State γ} {key : String}

/-- **What a step does to the cache**: it stores a body, or forgets one, or leaves it alone. -/
theorem cache_of_taken {a : Read.Action γ} (ht : Read.Taken engine s a s') :
    (∃ key body, s'.cache = Function.update s.cache key (some ⟨key, body⟩)) ∨
      (∃ key, a = .evict key ∧ s'.cache = Function.update s.cache key none) ∨
        s'.cache = s.cache := by
  cases ht with
  | insert hcall => exact Or.inl ⟨_, _, rfl⟩
  | evict => exact Or.inr (Or.inl ⟨_, rfl, rfl⟩)
  | materialize _ | hit _ _ | miss _ _ | execute _ _ | fail _ _ | reply _ | replyError _ | cursor
  | apply _ _ | advance _ _ _ => exact Or.inr (Or.inr rfl)

/-- What the cache has under a key is tagged with it. -/
def Tagged (s : Read.State γ) : Prop := ∀ key r, s.cache key = some r → r.etag = key

theorem Tagged.taken {a : Read.Action γ} (h : Tagged s) (ht : Read.Taken engine s a s') :
    Tagged s' := by
  intro key r hr
  rcases cache_of_taken ht with ⟨stored, body, hcache⟩ | ⟨evicted, -, hcache⟩ | hcache <;>
    rw [hcache] at hr
  · rw [Function.update_apply] at hr
    split at hr
    · rename_i hkey
      rw [← Option.some.inj hr, hkey]
    · exact h key r hr
  · rw [Function.update_apply] at hr
    split at hr
    · cases hr
    · exact h key r hr
  · exact h key r hr

theorem tagged_of_reachable {ok : Read.State γ → Read.Action γ → Prop}
    (h : (Read.system engine pk full).Reachable ok s) : Tagged s := by
  refine Reachable.induction (P := Tagged) (fun s h0 key r hr => ?_)
    (fun s a s' _ ih _ hs => ih.taken (Read.taken_of_step hs)) h
  simp [h0.cache] at hr

/-- What is cached stays so until it is evicted. -/
theorem isSome_of_taken {a : Read.Action γ} (h : (s.cache key).isSome = true)
    (ha : a ≠ .evict key) (ht : Read.Taken engine s a s') : (s'.cache key).isSome = true := by
  rcases cache_of_taken ht with ⟨stored, body, hcache⟩ | ⟨evicted, hevict, hcache⟩ | hcache <;>
    rw [hcache]
  · rw [Function.update_apply]
    split
    · rfl
    · exact h
  · have hne : key ≠ evicted := fun hkey => ha (hkey ▸ hevict)
    rwa [Function.update_of_ne hne]
  · exact h

/-- **A redirect resolves.**  Once a call has replied, the location that the handler redirects to
is a cursor, at any later time.  It is not found only when the cache does not have its key, which
it keeps having until that is evicted; else it is found under that key as its tag, with a result of
the query on a state of the database that has every transaction up to the version. -/
theorem redirect_resolves {decode : String → String} (hdecode : Plain decode)
    (hfp : Read.FingerprintsSeparate engine issued) {id v : Nat} {q : CacheableQuery}
    {r : CachedResult}
    (hs : (Read.system engine pk full).Reachable (Read.Issues issued) s)
    (hcall : s.calls id = some ⟨q, .returned (.ok (v, r))⟩)
    (hl : (Read.system engine pk full).Leads (Read.Issues issued) s s') :
    ∃ response,
      getCursor decode s'.cache (location (lowerHex q.fingerprint) v) = some response ∧
      (response.status = 404 ∧ s'.cache (snapshotKey q.fingerprint v) = none ∨
        ∃ body, response = cursor (some ⟨snapshotKey q.fingerprint v, body⟩) ∧
          Read.IncludesVersion engine s' q v body) ∧
      ((s.cache (snapshotKey q.fingerprint v)).isSome = true →
        (Read.system engine pk full).Leads (fun t a => Read.Issues issued t a ∧
          a ≠ .evict (snapshotKey q.fingerprint v)) s s' → response.status = 200) := by
  have hs' : (Read.system engine pk full).Reachable (Read.Issues issued) s' := by
    obtain ⟨s₀, h0, hl₀⟩ := hs
    exact ⟨s₀, h0, hl₀.trans hl⟩
  have hq : issued q := (Read.Asked.of_reachable (fun _ _ h => h) hs).calls id _ hcall
  have hget : getCursor decode s'.cache (location (lowerHex q.fingerprint) v) =
      some (cursor (s'.cache (snapshotKey q.fingerprint v))) := by
    rw [getCursor, cursorPath_location hdecode]
    rfl
  refine ⟨_, hget, ?_, fun hcached hkept => ?_⟩
  · cases hcache : s'.cache (snapshotKey q.fingerprint v) with
    | none => exact Or.inl ⟨rfl, rfl⟩
    | some hit =>
      have htag : hit.etag = snapshotKey q.fingerprint v := tagged_of_reachable hs' _ hit hcache
      refine Or.inr ⟨hit.body, by rw [← htag], ?_⟩
      exact Read.includesVersion_of_produced hfp hq hs'
        ((Read.Provenance.of_reachable hs').cache _ hit hcache)
  · have hstill : (s'.cache (snapshotKey q.fingerprint v)).isSome = true :=
      Leads.invariant (P := fun t => (t.cache (snapshotKey q.fingerprint v)).isSome = true) hkept
        hcached fun t a t' ht ha hstep => isSome_of_taken ht ha.2 (Read.taken_of_step hstep)
    obtain ⟨hit, hhit⟩ := Option.isSome_iff_exists.mp hstill
    rw [hhit]
    rfl

end Cursors

/-- `SELECT * FROM users` is asked and replied; a row is inserted after that. -/
def replyThenCommit : List (Read.Action String) × List (Read.Action String) :=
  ([.materialize 0 usersRead, .lookup 0, .execute 0, .insert 0, .reply 0],
    [.apply ⟨7, 1, [.insert "users" [("id", some "1")]]⟩ [("users", Read.oneRow)], .advance 0])

/-- The cursor is found then, too. -/
theorem users_cursor_found : ∃ s response,
    (Read.system (Read.rowsOf "users") [("users", "id")] []).run Read.usersStart
      (replyThenCommit.1 ++ replyThenCommit.2) = some s ∧
    getCursor id s.cache (location (lowerHex usersRead.fingerprint) 0) = some response ∧
    response.status = 200 := by
  have hfp : Read.FingerprintsSeparate (Read.rowsOf "users") (Read.Only usersRead) := by
    rintro q q' rfl rfl -
    exact ⟨rfl, rfl, fun _ => rfl⟩
  have hreplied : ((Read.system (Read.rowsOf "users") [("users", "id")] []).run Read.usersStart
      replyThenCommit.1).map (fun s => (s.calls 0, (s.cache Read.usersKey).isSome)) =
        some (some ⟨usersRead, .returned (.ok (0, ⟨Read.usersKey, "[]"⟩))⟩, true) := by rfl
  obtain ⟨s, hs, hstate⟩ := Option.map_eq_some_iff.mp hreplied
  obtain ⟨hcall, hcached⟩ := Prod.mk.inj hstate
  have hcommitted : ((Read.system (Read.rowsOf "users") [("users", "id")] []).run Read.usersStart
      (replyThenCommit.1 ++ replyThenCommit.2)).isSome = true := by rfl
  obtain ⟨s', hs'⟩ := Option.isSome_iff_exists.mp hcommitted
  have hrest : (Read.system (Read.rowsOf "users") [("users", "id")] []).run s replyThenCommit.2 =
      some s' := by
    rw [Transition.run_append, hs] at hs'
    exact hs'
  have hreach : (Read.system (Read.rowsOf "users") [("users", "id")] []).Reachable
      (Read.Issues (Read.Only usersRead)) s := by
    refine Transition.reachable_of_run (Read.fresh_start _ _ _) ?_ hs
    exact ⟨rfl, trivial, trivial, trivial, trivial, trivial⟩
  have hkept : (Read.system (Read.rowsOf "users") [("users", "id")] []).Leads
      (fun t a => Read.Issues (Read.Only usersRead) t a ∧
        a ≠ .evict (snapshotKey usersRead.fingerprint 0)) s s' := by
    refine Transition.leads_of_run (Transition.along_of_forall ?_) hrest
    rintro a ha t
    simp only [replyThenCommit, List.mem_cons, List.not_mem_nil, or_false] at ha
    rcases ha with rfl | rfl
    · exact ⟨trivial, by simp⟩
    · exact ⟨trivial, by simp⟩
  obtain ⟨response, hresponse, -, hfound⟩ := redirect_resolves (fun _ _ => rfl) hfp hreach hcall
    (Transition.Leads.mono (fun _ _ h => h.1) hkept)
  exact ⟨s', response, hs', hresponse, hfound hcached hkept⟩

end PgPaw.Http
