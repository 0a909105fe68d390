/-
# What runs as the owner

Whatever runs without a principal and headers runs as the owner of the database, whom row
security does not bind.  It should therefore list public tables only.  The decision is made
once, in `prepare`, and the query runs later: in the `materialize` call, and for a live
subscription again after each commit.

`Promised` are the tables of the reads that were found public and have still to run as the
owner.  No step of the process promises a table that is not public (`promised_of_taken`), so
the property holds as long as no change of the catalog makes a promised table private
(`owner_runs_public`).  Nothing in the process keeps a change from doing that:
`revoked_table_is_read`.
-/
import PgPaw.Capability.LostUpdate
import PgPaw.Capability.Server

namespace PgPaw

open Transition

variable {γ : Type}

/-! ## 1. Tables promised by the hub and the read core -/

namespace Live

variable {env : Env γ} {s s' : State γ}

/-- Whether what a `subscribe` call still does can run as the owner. -/
def Request.owner (read : PreparedRead) : Request → Bool
  | .materializing => true
  | .versioned _ | .fetched _ _ => ownerScope read.principal read.headers
  | .done => false

/-- A table listed by a read that will run as the owner: of a `materialize` call before its
query, of a `subscribe` call, of a job or of a subscription. -/
inductive Promised (s : State γ) (tables : Nat → List String) (t : String) : Prop
  | call {id version : Nat} {c : Read.Call} (hcall : s.core.calls id = some c)
      (hstage : c.stage.awaiting = some version) (ht : t ∈ c.query.tables) : Promised s tables t
  | request {id : Nat} {read : PreparedRead} {request : Request}
      (hrequest : s.requests id = some (read, request)) (howner : request.owner read = true)
      (ht : t ∈ read.query.tables) : Promised s tables t
  | job {job : LiveJob} (hjob : job ∈ s.worker.jobs)
      (howner : ownerScope job.principal job.headers = true) (ht : t ∈ tables job.id) :
      Promised s tables t
  | sub {id : Nat} {sub : Subscription} (hsub : s.subs id = some sub)
      (howner : ownerScope sub.principal sub.headers = true) (ht : t ∈ sub.tables) :
      Promised s tables t

/-- A call whose query has still to run was already there, or is made by this step. -/
theorem call_of_taken {engine : Engine γ} {c c' : Read.State γ} {a : Read.Action γ}
    (h : Read.Taken engine c a c') {id version : Nat} {call : Read.Call}
    (hcall : c'.calls id = some call) (hstage : call.stage.awaiting = some version) :
    (∃ old, c.calls id = some old ∧ old.stage.awaiting = some version ∧ old.query = call.query) ∨
      a = .materialize id call.query := by
  have hset : ∀ {id' : Nat} {q : CacheableQuery} {stage : Read.Stage},
      (c.setCall id' ⟨q, stage⟩).calls id = some call →
        c.calls id = some call ∨ (id = id' ∧ call = ⟨q, stage⟩) := by
    intro id' q stage hc
    rw [Read.State.setCall_calls] at hc
    split at hc
    · rename_i hid
      exact Or.inr ⟨hid, (Option.some.inj hc).symm⟩
    · exact Or.inl hc
  cases h with
  | materialize hfree =>
    rcases hset hcall with hold | ⟨rfl, rfl⟩
    · exact Or.inl ⟨call, hold, hstage, rfl⟩
    · exact Or.inr rfl
  | @miss id' v q hold hcache =>
    rcases hset hcall with hsame | ⟨rfl, rfl⟩
    · exact Or.inl ⟨call, hsame, hstage, rfl⟩
    · exact Or.inl ⟨_, hold, hstage, rfl⟩
  | hit _ _ | execute _ _ | fail _ _ | insert _ | reply _ | replyError _ =>
    rcases hset hcall with hsame | ⟨rfl, rfl⟩
    · exact Or.inl ⟨call, hsame, hstage, rfl⟩
    · exact absurd hstage nofun
  | cursor | evict | apply _ _ | advance _ _ _ => exact Or.inl ⟨call, hcall, hstage, rfl⟩

/-- A `subscribe` call that can still run as the owner could before, or is made by this step. -/
theorem request_of_taken {a : Action γ} (ht : Taken env s a s') {id : Nat} {read : PreparedRead}
    {request : Request} (hrequest : s'.requests id = some (read, request))
    (howner : request.owner read = true) :
    (∃ old, s.requests id = some (read, old) ∧ old.owner read = true) ∨
      (a = .subscribe id read ∧ ownerScope read.principal read.headers = true) := by
  have hset : ∀ {id' : Nat} {read' : PreparedRead} {new : Request},
      Function.update s.requests id' (some (read', new)) id = some (read, request) →
        s.requests id = some (read, request) ∨ (id = id' ∧ read = read' ∧ request = new) := by
    intro id' read' new hr
    rw [Function.update_apply] at hr
    split at hr
    · rename_i hid
      obtain ⟨h1, h2⟩ := Prod.mk.inj (Option.some.inj hr)
      exact Or.inr ⟨hid, h1.symm, h2.symm⟩
    · exact Or.inl hr
  cases ht with
  | subscribePublic hfree hscope hcore =>
    rcases hset hrequest with hsame | ⟨rfl, rfl, rfl⟩
    · exact Or.inl ⟨request, hsame, howner⟩
    · exact Or.inr ⟨rfl, hscope⟩
  | subscribeScoped hfree hscope =>
    rcases hset hrequest with hsame | ⟨rfl, rfl, rfl⟩
    · exact Or.inl ⟨request, hsame, howner⟩
    · exact absurd (hscope.symm.trans howner) nofun
  | fetch hold hrun =>
    rcases hset hrequest with hsame | ⟨rfl, rfl, rfl⟩
    · exact Or.inl ⟨request, hsame, howner⟩
    · exact Or.inl ⟨_, hold, howner⟩
  | fetchError _ | registerPublic _ _ | registerScoped _ | registerError _ =>
    rcases hset hrequest with hsame | ⟨rfl, rfl, rfl⟩
    · exact Or.inl ⟨request, hsame, howner⟩
    · exact absurd howner nofun
  | @emit m job jobs body txn prev next hbusy hlabel hprev hnext =>
    refine Or.inl ⟨request, ?_, howner⟩
    rw [← hrequest, ← emitDeltas_requests job txn.xid (diff prev next) next.toFinmap]
  | @discard m job jobs e hbusy =>
    refine Or.inl ⟨request, ?_, howner⟩
    rw [← hrequest, ← discardSub_requests job]
  | core _ _ | advance _ _ | broadcast _ _ | overflow _ _ | receive _ _ _ _ _ | resetAll _ _
  | requery _ | finish _ | drop _ | release _ _ => exact Or.inl ⟨request, hrequest, howner⟩

/-- A job was already there, or is made of a subscription by this step. -/
theorem job_of_taken {a : Action γ} (ht : Taken env s a s') {job : LiveJob}
    (hjob : job ∈ s'.worker.jobs) :
    job ∈ s.worker.jobs ∨ ∃ id sub, s.subs id = some sub ∧ sub.job id = job := by
  cases ht with
  | receive hidle hqueue hlabel hlagged horder =>
    obtain ⟨id, -, sub, hs, rfl⟩ := Hub.mem_selectJobs.mp hjob
    exact Or.inr ⟨id, sub, hs, rfl⟩
  | requery hbusy =>
    refine Or.inl ?_
    rw [hbusy]
    exact hjob
  | emit hbusy _ _ _ =>
    refine Or.inl ?_
    rw [hbusy]
    exact List.mem_cons_of_mem _ hjob
  | discard hbusy =>
    refine Or.inl ?_
    rw [hbusy]
    exact List.mem_cons_of_mem _ hjob
  | finish hbusy => exact absurd hjob List.not_mem_nil
  | core _ _ | advance _ _ | broadcast _ _ | overflow _ _ | resetAll _ _ | subscribePublic _ _ _
  | subscribeScoped _ _ | fetch _ _ | fetchError _ | registerPublic _ _ | registerScoped _
  | registerError _ | drop _ | release _ _ => exact Or.inl hjob

/-- What a subscription lists, and who it runs for. -/
structure SameRead (sub sub' : Subscription) : Prop where
  tables : sub'.tables = sub.tables
  principal : sub'.principal = sub.principal
  headers : sub'.headers = sub.headers

/-- The subscription a new stream gets lists the tables of its query. -/
theorem sub_of_hubSubscribe {query : CacheableQuery} (hash : String) (version : Nat)
    {body : String} {id : Nat} {principal : Option Principal} {headers : Option String}
    {sub' : Subscription}
    (hsub : (hubSubscribe env s query hash version body principal headers).subs id = some sub') :
    s.subs id = some sub' ∨ (id = s.nextId ∧ sub'.tables = query.tables ∧
      sub'.principal = principal ∧ sub'.headers = headers) := by
  simp only [hubSubscribe, Function.update_apply] at hsub
  split at hsub
  · rename_i hid
    obtain rfl := Option.some.inj hsub
    exact Or.inr ⟨hid, rfl, rfl, rfl⟩
  · exact Or.inl hsub

/-- A subscription was already there, or is registered by this step, for a `subscribe` call that
runs as the owner if the subscription does. -/
theorem sub_of_taken {a : Action γ} (hub : Hub env s) (ht : Taken env s a s') {id : Nat}
    {sub' : Subscription} (hsub : s'.subs id = some sub') :
    (∃ sub, s.subs id = some sub ∧ SameRead sub sub') ∨
      (id = s.nextId ∧ ∃ call read request, a = .register call ∧
        s.requests call = some (read, request) ∧ sub'.tables = read.query.tables ∧
        (ownerScope sub'.principal sub'.headers = true → request.owner read = true)) := by
  have hsame : s.subs id = some sub' → ∃ sub, s.subs id = some sub ∧ SameRead sub sub' :=
    fun hs => ⟨sub', hs, ⟨rfl, rfl, rfl⟩⟩
  cases ht with
  | @emit m job jobs body txn prev next hbusy hlabel hprev hnext =>
    cases hold : s.subs job.id with
    | none =>
      rw [emitDeltas_of_none hold] at hsub
      exact Or.inl (hsame hsub)
    | some sub =>
      rw [emitDeltas_of_sub hold (hub.ids job.id sub hold).2] at hsub
      simp only [Function.update_apply] at hsub
      split at hsub
      · rename_i hid
        obtain rfl := Option.some.inj hsub
        exact Or.inl ⟨sub, hid ▸ hold, ⟨rfl, rfl, rfl⟩⟩
      · exact Or.inl (hsame hsub)
  | @discard m job jobs e hbusy =>
    cases hold : s.subs job.id with
    | none =>
      rw [discardSub_of_none hold] at hsub
      exact Or.inl (hsame hsub)
    | some sub =>
      rw [discardSub_of_sub hold (hub.ids job.id sub hold).2] at hsub
      exact Or.inl (hsame (Caught.eq_of_update_none hsub))
  | resetAll hidle hlagged => cases hsub
  | finish hbusy =>
    simp only [retain] at hsub
    split at hsub
    · exact Or.inl (hsame hsub)
    · cases hsub
  | @registerPublic call version read q snapshot hrequest hcall =>
    rcases sub_of_hubSubscribe (lowerHex read.query.fingerprint) version hsub with
      hs | ⟨hid, htables, -, -⟩
    · exact Or.inl (hsame hs)
    · exact Or.inr ⟨hid, call, read, _, rfl, hrequest, htables, fun _ => rfl⟩
  | @registerScoped call version read body hrequest =>
    rcases sub_of_hubSubscribe "" version hsub with hs | ⟨hid, htables, hprincipal, hheaders⟩
    · exact Or.inl (hsame hs)
    · refine Or.inr ⟨hid, call, read, _, rfl, hrequest, htables, fun howner => ?_⟩
      rwa [hprincipal, hheaders] at howner
  | drop hid => exact Or.inl (hsame (Caught.eq_of_update_none hsub))
  | core _ _ | advance _ _ | broadcast _ _ | overflow _ _ | receive _ _ _ _ _ | requery _
  | subscribePublic _ _ _ | subscribeScoped _ _ | fetch _ _ | fetchError _ | registerError _
  | release _ _ => exact Or.inl (hsame hsub)

/-- The tables a call for a read, or a `subscribe`, would read as the owner. -/
def ownerTables : Action γ → List String
  | .core (.materialize _ query) => query.tables
  | .subscribe _ read => if ownerScope read.principal read.headers then read.query.tables else []
  | _ => []

/-- Each subscription lists the tables recorded for it. -/
def Recorded (s : State γ) (tables : Nat → List String) : Prop :=
  ∀ id sub, s.subs id = some sub → tables id = sub.tables

/-- A step of the hub is one of the core, which makes a call only for a handler, or none. -/
theorem core_of_taken {a : Action γ} (ht : Taken env s a s') :
    s'.core = s.core ∨ ∃ b, Read.Taken env.engine s.core b s'.core ∧
      ∀ id q, b = .materialize id q → ownerTables a = q.tables := by
  cases ht with
  | core hcore hne =>
    refine Or.inr ⟨_, Read.taken_of_step hcore, ?_⟩
    rintro id q rfl
    rfl
  | advance hsending hcore => exact Or.inr ⟨_, Read.taken_of_step hcore, nofun⟩
  | subscribePublic hfree hscope hcore =>
    refine Or.inr ⟨_, Read.taken_of_step hcore, ?_⟩
    rintro id q ⟨⟩
    exact if_pos hscope
  | emit _ _ _ _ => exact Or.inl (emitDeltas_core _ _ _ _)
  | discard _ => exact Or.inl (discardSub_core _)
  | broadcast _ _ | overflow _ _ | receive _ _ _ _ _ | resetAll _ _ | requery _ | finish _
  | subscribeScoped _ _ | fetch _ _ | fetchError _ | registerPublic _ _ | registerScoped _
  | registerError _ | drop _ | release _ _ => exact Or.inl rfl

/-- **Only a handler promises a table.** -/
theorem promised_of_taken {a : Action γ} {tables tables' : Nat → List String} {t : String}
    (hub : Hub env s) (hrecorded : Recorded s tables)
    (htables : ∀ id < s.nextId, tables' id = tables id) (ht : Taken env s a s')
    (h : Promised s' tables' t) : Promised s tables t ∨ t ∈ ownerTables a := by
  cases h with
  | @call id version c hcall hstage hmem =>
    rcases core_of_taken ht with hsame | ⟨b, hb, howner⟩
    · exact Or.inl (.call (hsame ▸ hcall) hstage hmem)
    · rcases call_of_taken hb hcall hstage with ⟨old, hold, hstage', hquery⟩ | rfl
      · exact Or.inl (.call hold hstage' (hquery ▸ hmem))
      · exact Or.inr (howner id c.query rfl ▸ hmem)
  | request hrequest howner hmem =>
    rcases request_of_taken ht hrequest howner with ⟨old, hold, howner'⟩ | ⟨rfl, hscope⟩
    · exact Or.inl (.request hold howner' hmem)
    · exact Or.inr (by rwa [ownerTables, if_pos hscope])
  | @job j hjob howner hmem =>
    rcases job_of_taken ht hjob with hold | ⟨id, sub, hsub, rfl⟩
    · rw [htables j.id (hub.known j hold)] at hmem
      exact Or.inl (.job hold howner hmem)
    · have hid : (sub.job id).id = id := rfl
      rw [hid, htables id (hub.ids id sub hsub).1, hrecorded id sub hsub] at hmem
      exact Or.inl (.sub hsub howner hmem)
  | @sub id sub' hsub howner hmem =>
    rcases sub_of_taken hub ht hsub with ⟨sub, hold, hsame⟩ |
      ⟨-, call, read, request, -, hrequest, hlist, himp⟩
    · rw [hsame.principal, hsame.headers] at howner
      exact Or.inl (.sub hold howner (hsame.tables ▸ hmem))
    · exact Or.inl (.request hrequest (himp howner) (hlist ▸ hmem))

/-- The record of the tables is kept when a new subscription's are added. -/
theorem recorded_of_taken {a : Action γ} {tables tables' : Nat → List String} (hub : Hub env s)
    (hrecorded : Recorded s tables) (htables : ∀ id < s.nextId, tables' id = tables id)
    (hnew : ∀ call read request, a = .register call → s.requests call = some (read, request) →
      tables' s.nextId = read.query.tables) (ht : Taken env s a s') : Recorded s' tables' := by
  intro id sub' hsub
  rcases sub_of_taken hub ht hsub with ⟨sub, hold, hsame⟩ |
    ⟨rfl, call, read, request, hregister, hrequest, hlist, -⟩
  · rw [htables id (hub.ids id sub hold).1, hrecorded id sub hold, hsame.tables]
  · rw [hnew call read request hregister hrequest, hlist]

end Live

/-! ## 2. Tables promised by the process -/

namespace Server

variable {env : Live.Env γ} {s s' : State γ}

/-- The tables a served read would read as the owner. -/
def Serving.ownerTables : Serving → List String
  | materialize query => query.tables
  | subscribe read => if ownerScope read.principal read.headers then read.query.tables else []
  | executePrivate => []

/-- What a `prepare` call has of a table that counts as public: what is cached for the version
it has read, the verdicts it was answered, or its own answer. -/
def Prepare.Promises (cache : Option (Nat × Verdicts)) (t : String) : Prepare → Prop
  | versioned version ask => ∃ verdicts, cache = some (version, verdicts) ∧
      t ∈ ask.query.tables ∧ verdicts t = some false
  | answered _ _ verdicts => verdicts t = some false
  | prepared ask priv => t ∈ (serving ask priv).ownerTables
  | classified _ | missed _ _ | closed => False

/-- **A table of a read that was found public and has still to run as the owner.** -/
inductive Promised (s : State γ) (t : String) : Prop
  | prepare {id : Nat} {p : Prepare} (hprepare : s.prepares id = some p)
      (hp : p.Promises s.securityCache t) : Promised s t
  | live (h : Live.Promised s.live s.tables t) : Promised s t

/-- `prepare` lets nothing through that is private and would run as the owner. -/
theorem promises_conclude {ask : Ask} {priv : Bool} {cache : Option (Nat × Verdicts)} {t : String}
    (h : (conclude ask priv).Promises cache t) : priv = false ∧ t ∈ ask.query.tables := by
  obtain ⟨binding, query, principal⟩ := ask
  cases priv with
  | false =>
    refine ⟨rfl, ?_⟩
    rcases binding with (_ | _) | headers
    · exact h
    · exact h
    · have hmem : t ∈ if ownerScope principal headers then query.tables else [] := h
      split at hmem
      · exact hmem
      · exact absurd hmem List.not_mem_nil
  | true =>
    -- whoever is let through with a private read has a principal or headers
    exfalso
    unfold conclude at h
    split at h
    · exact h
    · rename_i hlet
      rcases binding with (_ | _) | headers
      · exact absurd h List.not_mem_nil
      · have hmem : t ∈ if ownerScope principal none then query.tables else [] := h
        simp_all [ownerScope, Binding.headers]
      · have hmem : t ∈ if ownerScope principal headers then query.tables else [] := h
        simp_all [ownerScope, Binding.headers]

/-- A `prepare` call moves on. -/
theorem Promised.of_setPrepare {id : Nat} {p : Prepare} {t : String}
    (h : Promised (s.setPrepare id p) t) : Promised s t ∨ p.Promises s.securityCache t := by
  cases h with
  | @prepare id' p' hprepare hp =>
    simp only [State.setPrepare, Function.update_apply] at hprepare
    split at hprepare
    · obtain rfl := Option.some.inj hprepare
      exact Or.inr hp
    · exact Or.inl (.prepare hprepare hp)
  | live h => exact Or.inl (.live h)

/-- A verdict of `classify_security` is the catalog's. -/
theorem isPublic_of_classifySecurity {catalog : Catalog} {tables : List String} {t : String}
    (h : classifySecurity catalog tables t = some false) : catalog.isPublic t := by
  by_cases ht : t ∈ tables
  · rwa [classifySecurity_eq catalog tables ht] at h
  · rw [classifySecurity_of_notMem catalog tables ht] at h
    exact absurd h nofun

/-- The security version a `prepare` call has read and still needs. -/
def Prepare.version : Prepare → Option Nat
  | versioned version _ | missed version _ | answered version _ _ => some version
  | classified _ | prepared _ _ | closed => none

/-- **The invariant of the runs that keep what was promised.** -/
structure Sound (s : State γ) : Prop where
  promised : ∀ t, Promised s t → s.catalog.isPublic t
  recorded : Live.Recorded s.live s.tables
  /-- What is cached for the present version is right. -/
  cache : ∀ version verdicts, s.securityCache = some (version, verdicts) →
    version ≤ s.securityVersion ∧
      (version = s.securityVersion → ∀ t, verdicts t = some false → s.catalog.isPublic t)
  versions : ∀ id p version, s.prepares id = some p → p.version = some version →
    version ≤ s.securityVersion

namespace Sound

/-- A `prepare` call moves on. -/
theorem setPrepare (h : Sound s) {id : Nat} {p : Prepare}
    (hp : ∀ t, p.Promises s.securityCache t → Promised s t ∨ s.catalog.isPublic t)
    (hversion : ∀ version, p.version = some version → version ≤ s.securityVersion) :
    Sound (s.setPrepare id p) where
  promised t ht := by
    rcases ht.of_setPrepare with ht | ht
    · exact h.promised t ht
    · exact (hp t ht).elim (h.promised t) fun hpublic => hpublic
  recorded := h.recorded
  cache := h.cache
  versions id' p' version hprepare hv := by
    simp only [State.setPrepare, Function.update_apply] at hprepare
    split at hprepare
    · obtain rfl := Option.some.inj hprepare
      exact hversion version hv
    · exact h.versions id' p' version hprepare hv

/-- `prepare` is done with verdicts that are the catalog's for the public tables. -/
theorem conclude (h : Sound s) {id : Nat} {ask : Ask} {verdicts : Verdicts}
    (hv : ∀ t ∈ ask.query.tables, verdicts t = some false →
      Promised s t ∨ s.catalog.isPublic t) :
    Sound (s.setPrepare id (conclude ask (mergeVerdicts ask.query.tables verdicts))) := by
  refine h.setPrepare (fun t ht => ?_) fun version hversion => ?_
  · obtain ⟨hmerge, hmem⟩ := promises_conclude ht
    exact hv t hmem (mergeVerdicts_eq_false.mp hmerge t hmem)
  · unfold Server.conclude at hversion
    split at hversion <;> exact absurd hversion nofun

/-- New verdicts are stored, which the call that asked for them still has. -/
theorem store (h : Sound s) {id version : Nat} {ask : Ask} {verdicts : Verdicts}
    {cache : Nat × Verdicts} (hprepare : s.prepares id = some (.answered version ask verdicts))
    (hcache : s.securityCache = some cache) :
    Sound { s with securityCache := some (storeVerdicts cache version verdicts) } := by
  have hversion := h.versions id _ version hprepare rfl
  have hfresh : ∀ t, verdicts t = some false → s.catalog.isPublic t := fun t ht =>
    h.promised t (.prepare hprepare ht)
  -- a verdict of the new cache is one just answered, or an old one for the same version
  have hstored : ∀ t, (storeVerdicts cache version verdicts).2 t = some false →
      verdicts t = some false ∨ cache.1 = version ∧ cache.2 t = some false := by
    intro t ht
    simp only [storeVerdicts] at ht
    cases hv : verdicts t with
    | some b =>
      rw [hv] at ht
      exact Or.inl ht
    | none =>
      rw [hv, Option.none_or] at ht
      split at ht
      · exact Or.inr ⟨by assumption, ht⟩
      · exact absurd ht nofun
  refine ⟨fun t ht => ?_, h.recorded, fun version' verdicts' hnew => ?_, h.versions⟩
  · cases ht with
    | live ht => exact h.promised t (.live ht)
    | @prepare id' p' hprepare' hp =>
      cases p' with
      | versioned version' ask' =>
        obtain ⟨verdicts', hnew, hmem, hverdict⟩ := hp
        obtain ⟨rfl, rfl⟩ := Prod.mk.inj (Option.some.inj hnew)
        rcases hstored t hverdict with hv | ⟨hsame, hv⟩
        · exact hfresh t hv
        · exact h.promised t (.prepare hprepare' ⟨cache.2, by rw [hcache, ← hsame], hmem, hv⟩)
      | answered _ _ _ => exact h.promised t (.prepare hprepare' hp)
      | prepared _ _ => exact h.promised t (.prepare hprepare' hp)
      | classified _ | missed _ _ | closed => exact hp.elim
  · obtain ⟨rfl, rfl⟩ := Prod.mk.inj (Option.some.inj hnew)
    refine ⟨hversion, fun hpresent t ht => ?_⟩
    rcases hstored t ht with hv | ⟨hsame, hv⟩
    · exact hfresh t hv
    · exact (h.cache cache.1 cache.2 hcache).2 (hsame.trans hpresent) t hv

/-- A step of the hub or the core that promises nothing new. -/
theorem live (h : Sound s) (hub : Live.Hub env s.live) {a : Live.Action γ}
    {live : Live.State γ} {tables : Nat → List String}
    (hlive : Live.step env s.live a = some live)
    (htables : ∀ id < s.live.nextId, tables id = s.tables id)
    (hnew : ∀ call read request, a = .register call →
      s.live.requests call = some (read, request) → tables s.live.nextId = read.query.tables)
    (howner : ∀ t ∈ Live.ownerTables a, Promised s t) : Sound { s with live, tables } where
  promised t ht := by
    cases ht with
    | prepare hprepare hp => exact h.promised t (.prepare hprepare hp)
    | live ht =>
      rcases Live.promised_of_taken hub h.recorded htables (Live.taken_of_step hlive) ht with
        ht | ht
      · exact h.promised t (.live ht)
      · exact h.promised t (howner t ht)
  recorded := Live.recorded_of_taken hub h.recorded htables hnew (Live.taken_of_step hlive)
  cache := h.cache
  versions := h.versions

end Sound

/-- A subscription's tables are recorded under an id no other has. -/
theorem recordTables_of_lt {a : Live.Action γ} {id : Nat} (hid : id < s.live.nextId) :
    s.recordTables a id = s.tables id := by
  unfold State.recordTables
  split
  · cases s.live.requests _ with
    | none => rfl
    | some r => exact Function.update_of_ne (Nat.ne_of_lt hid) _ _
  · rfl

/-- Nothing runs as the owner that no handler has asked for. -/
theorem ownerTables_of_internal {a : Live.Action γ} (h : fromHandler a = false) :
    Live.ownerTables a = [] := by
  unfold fromHandler at h
  unfold Live.ownerTables
  split at h
  · exact absurd h nofun
  · exact absurd h nofun
  · rename_i hsubscribe hmaterialize
    split
    · exact absurd rfl (hmaterialize _ _)
    · exact absurd rfl (hsubscribe _ _)
    · rfl

/-- What a handler asks for reads as the owner what was promised. -/
theorem ownerTables_of_action {serving : Serving} {call : Nat} {a : Live.Action γ}
    (h : serving.action call = some a) : Live.ownerTables a = serving.ownerTables := by
  cases serving with
  | materialize query | subscribe read =>
    obtain rfl := Option.some.inj h
    rfl
  | executePrivate => exact absurd h nofun

/-- **The condition on a step**: a change of the catalog makes no promised table private. -/
def KeepsPromises (s : State γ) : Action γ → Prop
  | .changeCatalog catalog => ∀ t, Promised s t → catalog.isPublic t
  | _ => True

theorem Sound.taken {a : Action γ} (hub : Live.Hub env s.live) (h : Sound s)
    (hok : KeepsPromises s a) (ht : Taken env s a s') : Sound s' := by
  cases ht with
  | @live a live hinternal hlive =>
    refine h.live hub hlive (fun _ hid => recordTables_of_lt hid)
      (fun call read request ha hrequest => ?_) fun t ht => ?_
    · subst ha
      simp only [State.recordTables, hrequest, Function.update_self]
    · rw [ownerTables_of_internal hinternal] at ht
      exact absurd ht List.not_mem_nil
  | prepare hfree => exact h.setPrepare nofun nofun
  | decide hprepare hprimary =>
    exact h.conclude fun t _ hv => Or.inr (isPublic_of_classifySecurity hv)
  | version hprepare hcache =>
    refine h.setPrepare (fun t ht => ?_) fun version hversion => ?_
    · obtain ⟨verdicts, hpresent, hmem, hverdict⟩ := ht
      exact Or.inr ((h.cache _ verdicts hpresent).2 rfl t hverdict)
    · exact Nat.le_of_eq (Option.some.inj hversion).symm
  | @hit id version ask cache hprepare hcache hhit =>
    have hversion : cache.1 = version := by
      simp only [cached, Bool.and_eq_true, beq_iff_eq] at hhit
      exact hhit.1
    exact h.conclude fun t hmem hv =>
      Or.inl (.prepare hprepare ⟨cache.2, by rw [hcache, ← hversion], hmem, hv⟩)
  | miss hprepare =>
    exact h.setPrepare nofun fun version hversion => h.versions _ _ version hprepare hversion
  | classifySecurity hprepare =>
    exact h.setPrepare (fun t ht => Or.inr (isPublic_of_classifySecurity ht))
      fun version hversion => h.versions _ _ version hprepare hversion
  | store hprepare hcache =>
    have hstored := h.store hprepare hcache
    exact hstored.conclude fun t _ hv => Or.inl (.prepare hprepare hv)
  | abandon => exact h.setPrepare nofun nofun
  | @serve id call ask priv a live hprepare haction hlive =>
    have hregister : ∀ call read request, a = .register call →
        s.live.requests call = some (read, request) →
          s.tables s.live.nextId = read.query.tables := by
      rintro call' read request rfl -
      cases hserving : serving ask priv <;> rw [hserving] at haction <;> exact absurd haction nofun
    have hserved := h.live hub hlive (fun _ _ => rfl) hregister fun t ht => by
      rw [ownerTables_of_action haction] at ht
      exact .prepare hprepare ht
    exact hserved.setPrepare nofun nofun
  | executePrivate hprepare haction => exact h.setPrepare nofun nofun
  | @changeCatalog catalog =>
    refine ⟨fun t ht => hok t ?_, h.recorded, fun version verdicts hcache => ?_,
      fun id p version hprepare hv => Nat.le_succ_of_le (h.versions id p version hprepare hv)⟩
    · cases ht with
      | prepare hprepare hp => exact .prepare hprepare hp
      | live ht => exact .live ht
    · have hle := (h.cache version verdicts hcache).1
      exact ⟨Nat.le_succ_of_le hle, fun hpresent =>
        absurd hpresent (Nat.ne_of_lt (Nat.lt_succ_of_le hle))⟩

/-! ## 3. What runs as the owner -/

/-- The tables of the query a step runs as the owner of the database, if it runs one:
in `materialize`, in `subscribe` or in `on_commit`. -/
def ownerRun (s : State γ) : Action γ → Option (List String)
  | .live (.core (.execute id)) => match s.live.core.calls id with
    | some ⟨query, .missed _⟩ => some query.tables
    | _ => none
  | .live (.fetch id) => match s.live.requests id with
    | some (read, .versioned _) =>
      if ownerScope read.principal read.headers then some read.query.tables else none
    | _ => none
  | .live .requery => match s.live.worker with
    | .busy _ (job :: _) none =>
      if ownerScope job.principal job.headers then some (s.tables job.id) else none
    | _ => none
  | _ => none

/-- **Whatever runs as the owner lists only tables that are public at that moment.** -/
def OwnerRunsPublic (s : State γ) : Prop :=
  ∀ a tables, ownerRun s a = some tables → ∀ t ∈ tables, s.catalog.isPublic t

/-- What runs as the owner was promised. -/
theorem promised_of_ownerRun {a : Action γ} {tables : List String}
    (h : ownerRun s a = some tables) {t : String} (ht : t ∈ tables) :
    Live.Promised s.live s.tables t := by
  unfold ownerRun at h
  split at h
  · split at h
    · rename_i hcall
      obtain rfl := Option.some.inj h
      exact .call hcall rfl ht
    · exact absurd h nofun
  · split at h
    · rename_i hrequest
      split at h
      · rename_i howner
        obtain rfl := Option.some.inj h
        exact .request hrequest howner ht
      · exact absurd h nofun
    · exact absurd h nofun
  · split at h
    · rename_i hbusy
      split at h
      · rename_i howner
        obtain rfl := Option.some.inj h
        refine .job ?_ howner ht
        rw [hbusy]
        exact List.mem_cons_self
      · exact absurd h nofun
    · exact absurd h nofun
  · exact absurd h nofun

section Runs

variable {pk : List (String × String)} {full : List String}

/-- The hub of a reachable state is one it reaches by itself. -/
theorem live_reachable {ok : State γ → Action γ → Prop} (h : (system env pk full).Reachable ok s) :
    (Live.system env pk full).Reachable free s.live := by
  refine Reachable.induction (P := fun s => (Live.system env pk full).Reachable free s.live)
    (fun s h0 => ?_) (fun s a s' _ ih _ hs => ?_) h
  · have hlive : (Live.system env pk full).init s.live := Fresh.live h0
    exact Reachable.start hlive
  · cases taken_of_step hs with
    | live hinternal hlive => exact Reachable.next ih trivial hlive
    | serve hprepare haction hlive => exact Reachable.next ih trivial hlive
    | prepare _ | decide _ _ | version _ _ | hit _ _ _ | miss _ | classifySecurity _ | store _ _
    | abandon | executePrivate _ _ | changeCatalog => exact ih

/-- Nothing is promised at the start. -/
theorem not_promised_of_fresh (h0 : Fresh pk full s) {t : String} : ¬ Promised s t := by
  intro h
  cases h with
  | prepare hprepare hp => simp [h0.prepares] at hprepare
  | live h =>
    cases h with
    | call hcall hstage ht => simp [h0.live.core.calls] at hcall
    | request hrequest howner ht => simp [h0.live.requests] at hrequest
    | job hjob howner ht => simp [h0.live.worker, Live.Worker.jobs] at hjob
    | sub hsub howner ht => simp [h0.live.subs] at hsub

theorem sound_of_reachable (h : (system env pk full).Reachable KeepsPromises s) : Sound s := by
  refine Reachable.induction (P := Sound) (fun s h0 => ?_) (fun s a s' hr ih ha hs =>
    ih.taken (.of_reachable (live_reachable hr)) ha (taken_of_step hs)) h
  have h0 : Fresh pk full s := h0
  refine ⟨fun t ht => absurd ht (not_promised_of_fresh h0), fun id sub hs => ?_,
    fun version verdicts hcache => ?_, fun id p version hprepare => ?_⟩
  · simp [h0.live.subs] at hs
  · rcases h0.securityCache with hnone | hempty
    · exact absurd (hnone.symm.trans hcache) nofun
    · rw [hempty] at hcache
      obtain ⟨rfl, rfl⟩ := Prod.mk.inj (Option.some.inj hcache)
      exact ⟨Nat.zero_le _, fun _ _ => nofun⟩
  · simp [h0.prepares] at hprepare

/-- **Whatever runs as the owner lists public tables only, in every run in which no change of
the catalog makes private a table that a read found public has still to read as the owner.** -/
theorem owner_runs_public (h : (system env pk full).Reachable KeepsPromises s) :
    OwnerRunsPublic s := fun _ _ hrun t ht =>
  (sound_of_reachable h).promised t (.live (promised_of_ownerRun hrun ht))

end Runs

/-! ## 4. Two runs -/

/-- `users` is public. -/
def openCatalog : Catalog := [⟨"public", "users", 'r', false, true⟩]

/-- `users` has row security. -/
def lockedCatalog : Catalog := [⟨"public", "users", 'r', true, true⟩]

/-- An anonymous live query for `SELECT * FROM users` over HTTP, and its subscription. -/
def subscribeAnonymously : List (Action String) :=
  [.prepare 0 ⟨.http true, usersRead, none⟩, .isPrivate 0, .serve 0 0,
    .live (.core (.lookup 0)), .live (.core (.execute 0)), .live (.core (.insert 0)),
    .live (.core (.reply 0)), .live (.register 0)]

/-- The first row of `users` is committed, and the hub is about to run the query again. -/
def commitFirstUser : List (Action String) :=
  [.live (.core Live.firstUser), .live (.core (.advance 0)), .live .broadcast,
    .live (.receive [0])]

/-- `users` is opened to the public, and then read. -/
def readAfterUnlock : List (Action String) :=
  .changeCatalog openCatalog :: (subscribeAnonymously ++ commitFirstUser)

/-- A primary with the table `users`, empty. -/
def usersPrimary (catalog : Catalog) : State String :=
  .start [("users", "id")] [] (fun _ => "[]") catalog

theorem owner_runs_public_readAfterUnlock :
    ∃ s, (system Live.usersEnv [("users", "id")] []).run (usersPrimary lockedCatalog)
        readAfterUnlock = some s ∧
      ownerRun s (.live .requery) = some ["users"] ∧ OwnerRunsPublic s := by
  have hok : (system Live.usersEnv [("users", "id")] []).Along KeepsPromises
      (usersPrimary lockedCatalog) readAfterUnlock :=
    -- nothing is promised when the catalog changes, and it does not change again
    ⟨fun _ ht => absurd ht (not_promised_of_fresh (fresh_start _ _ _ _)), trivial, trivial, trivial,
      trivial, trivial, trivial, trivial, trivial, trivial, trivial, trivial, trivial, trivial⟩
  have hend : ((system Live.usersEnv [("users", "id")] []).run (usersPrimary lockedCatalog)
      readAfterUnlock).map (ownerRun · (.live .requery)) = some (some ["users"]) := by rfl
  obtain ⟨s, hs, hend⟩ := Option.map_eq_some_iff.mp hend
  exact ⟨s, hs, hend, owner_runs_public (reachable_of_run (fresh_start _ _ _ _) hok hs)⟩

/-- `users` becomes private after someone subscribed, and before a commit. -/
def lockAfterSubscribe : List (Action String) :=
  subscribeAnonymously ++ .changeCatalog lockedCatalog :: commitFirstUser

/-- **The owner reads a table that has become private**, and an anonymous subscriber receives
its row. -/
theorem revoked_table_is_read :
    ∃ s s', (system Live.usersEnv [("users", "id")] []).Reachable free s ∧
      s.catalog.verdict "users" = some true ∧ ownerRun s (.live .requery) = some ["users"] ∧
      ¬ OwnerRunsPublic s ∧
      (system Live.usersEnv [("users", "id")] []).run s [.live .requery,
        .live (.emit ∅ (AList.singleton "1" Live.userRow))] = some s' ∧
      s'.live.sent 0 = [.snapshotUrl (lowerHex usersRead.fingerprint) 0,
        .delta (.insert "1" Live.userRow) 7, .upToDate 7] := by
  have hend : (((system Live.usersEnv [("users", "id")] []).run (usersPrimary openCatalog)
      lockAfterSubscribe).bind fun s => ((system Live.usersEnv [("users", "id")] []).run s
        [.live .requery, .live (.emit ∅ (AList.singleton "1" Live.userRow))]).map fun s' =>
          (s.catalog.verdict "users", ownerRun s (.live .requery), s'.live.sent 0)) =
      some (some true, some ["users"], [.snapshotUrl (lowerHex usersRead.fingerprint) 0,
        .delta (.insert "1" Live.userRow) 7, .upToDate 7]) := by rfl
  obtain ⟨s, hs, hend⟩ := Option.bind_eq_some_iff.mp hend
  obtain ⟨s', hs', hend⟩ := Option.map_eq_some_iff.mp hend
  simp only [Prod.mk.injEq] at hend
  obtain ⟨hverdict, hrun, hsent⟩ := hend
  have hok : (system Live.usersEnv [("users", "id")] []).Along free (usersPrimary openCatalog)
      lockAfterSubscribe := along_of_forall fun _ _ _ => trivial
  refine ⟨s, s', reachable_of_run (fresh_start _ _ _ _) hok hs, hverdict, hrun, fun h => ?_, hs',
    hsent⟩
  have hpublic := h _ _ hrun "users" (by decide)
  rw [Catalog.isPublic, hverdict] at hpublic
  exact absurd hpublic (by decide)

end Server

end PgPaw
