/-
# A table that is never public is never read as the owner

A verdict can be out of date when the query it let through runs (`revoked_table_is_read`).  It was
the catalog's at some time, though: the process does not make up that a table is public, and its
cache of verdicts keeps none that was not the catalog's.

So a table that is private in every state of a run is read as the owner by nobody: no query that
lists it runs without a role, no body in the cache or replied for a cursor is of such a query, and
no stream goes to a subscriber without one (`never_public_never_read`).  Nothing is asked of the
catalog otherwise, which may change at any moment.
-/
import PgPaw.Capability.OwnerScope

namespace PgPaw.Server

open Transition

variable {γ : Type} {env : Live.Env γ} {s s' : State γ} {t : String}

/-! ## 1. Nothing counts the table as public -/

/-- **The condition on a state**: the table is not public. -/
def StaysPrivate (t : String) (s : State γ) (_ : Action γ) : Prop := ¬ s.catalog.isPublic t

/-- **The invariant**: no read, no verdict and no execution goes by the table being public. -/
structure Closed (t : String) (s : State γ) : Prop where
  promised : ¬ Promised s t
  cache : ∀ version verdicts, s.securityCache = some (version, verdicts) → verdicts t ≠ some false
  recorded : Live.Recorded s.live s.tables
  executions : ∀ e ∈ s.live.core.executions, t ∉ e.query.tables

/-- An execution is of a call that had still to run its query. -/
theorem execution_of_taken {engine : Engine γ} {c c' : Read.State γ} {a : Read.Action γ}
    (h : Read.Taken engine c a c') {e : Read.Execution} (he : e ∈ c'.executions) :
    e ∈ c.executions ∨ ∃ id call version, c.calls id = some call ∧
      call.stage.awaiting = some version ∧ call.query = e.query := by
  cases h with
  | @execute id v q body hcall hrun =>
    rcases List.mem_append.mp he with he | he
    · exact Or.inl he
    · obtain rfl := List.mem_singleton.mp he
      exact Or.inr ⟨id, _, v, hcall, rfl, rfl⟩
  | materialize _ | hit _ _ | miss _ _ | fail _ _ | insert _ | reply _ | replyError _ | cursor
  | evict | apply _ _ | advance _ _ _ => exact Or.inl he

namespace Closed

/-- A `prepare` call moves on to something that does not count the table as public. -/
theorem setPrepare (h : Closed t s) {id : Nat} {p : Prepare}
    (hp : ¬ p.Promises s.securityCache t) : Closed t (s.setPrepare id p) where
  promised ht := ht.of_setPrepare.elim h.promised hp
  cache := h.cache
  recorded := h.recorded
  executions := h.executions

/-- `prepare` is done with verdicts of which none has the table public. -/
theorem conclude (h : Closed t s) {id : Nat} {ask : Ask} {verdicts : Verdicts}
    (hv : verdicts t ≠ some false) :
    Closed t (s.setPrepare id (conclude ask (mergeVerdicts ask.query.tables verdicts))) := by
  refine h.setPrepare fun ht => ?_
  obtain ⟨hmerge, hmem⟩ := promises_conclude ht
  exact hv (mergeVerdicts_eq_false.mp hmerge t hmem)

/-- The verdicts that are stored are those just answered, or were there. -/
theorem store (h : Closed t s) {version : Nat} {verdicts : Verdicts} {cache : Nat × Verdicts}
    (hcache : s.securityCache = some cache) (hv : verdicts t ≠ some false) :
    Closed t { s with securityCache := some (storeVerdicts cache version verdicts) } := by
  have hstored : (storeVerdicts cache version verdicts).2 t ≠ some false := by
    have hold := h.cache cache.1 cache.2 hcache
    simp only [storeVerdicts]
    cases hanswered : verdicts t with
    | some b => rwa [hanswered] at hv
    | none =>
      rw [Option.none_or]
      split
      · exact hold
      · exact (Option.some_ne_none false).symm
  refine ⟨fun ht => ?_, fun version' verdicts' hnew => ?_, h.recorded, h.executions⟩
  · cases ht with
    | live ht => exact h.promised (.live ht)
    | @prepare id p hprepare hp =>
      cases p with
      | versioned version' ask =>
        obtain ⟨verdicts', hnew, -, hverdict⟩ := hp
        obtain ⟨-, rfl⟩ := Prod.mk.inj (Option.some.inj hnew)
        exact hstored hverdict
      | answered _ _ _ => exact h.promised (.prepare hprepare hp)
      | prepared _ _ => exact h.promised (.prepare hprepare hp)
      | classified _ | missed _ _ | closed => exact hp
  · obtain ⟨-, rfl⟩ := Prod.mk.inj (Option.some.inj hnew)
    exact hstored

/-- A step of the hub or the core that asks for nothing new. -/
theorem live (h : Closed t s) (hub : Live.Hub env s.live) {a : Live.Action γ}
    {live : Live.State γ} {tables : Nat → List String}
    (hlive : Live.step env s.live a = some live)
    (htables : ∀ id < s.live.nextId, tables id = s.tables id)
    (hnew : ∀ call read request, a = .register call →
      s.live.requests call = some (read, request) → tables s.live.nextId = read.query.tables)
    (howner : t ∉ Live.ownerTables a) : Closed t { s with live, tables } := by
  have htaken := Live.taken_of_step hlive
  refine ⟨fun ht => ?_, h.cache, Live.recorded_of_taken hub h.recorded htables hnew htaken,
    fun e he hmem => ?_⟩
  · cases ht with
    | prepare hprepare hp => exact h.promised (.prepare hprepare hp)
    | live ht =>
      rcases Live.promised_of_taken hub h.recorded htables htaken ht with ht | ht
      · exact h.promised (.live ht)
      · exact howner ht
  · rcases Live.core_of_taken htaken with hsame | ⟨b, hb, -⟩
    · have he : e ∈ live.core.executions := he
      rw [hsame] at he
      exact h.executions e he hmem
    · rcases execution_of_taken hb he with he | ⟨id, call, version, hcall, hstage, hquery⟩
      · exact h.executions e he hmem
      · exact h.promised (.live (.call hcall hstage (hquery ▸ hmem)))

theorem taken {a : Action γ} (hub : Live.Hub env s.live) (h : Closed t s)
    (hprivate : ¬ s.catalog.isPublic t) (ht : Taken env s a s') : Closed t s' := by
  cases ht with
  | @live a live hinternal hlive =>
    refine h.live hub hlive (fun _ hid => recordTables_of_lt hid)
      (fun call read request ha hrequest => ?_) ?_
    · subst ha
      simp only [State.recordTables, hrequest, Function.update_self]
    · rw [ownerTables_of_internal hinternal]
      exact List.not_mem_nil
  | prepare hfree => exact h.setPrepare id
  | decide hprepare hprimary =>
    exact h.conclude fun hv => hprivate (isPublic_of_classifySecurity hv)
  | version hprepare hcache =>
    refine h.setPrepare fun hp => ?_
    obtain ⟨verdicts, hcached, -, hverdict⟩ := hp
    exact h.cache _ verdicts hcached hverdict
  | @hit id version ask cache hprepare hcache hhit =>
    exact h.conclude (h.cache cache.1 cache.2 hcache)
  | miss hprepare => exact h.setPrepare id
  | classifySecurity hprepare =>
    exact h.setPrepare fun hp => hprivate (isPublic_of_classifySecurity hp)
  | @store id version ask verdicts cache hprepare hcache =>
    have hv : verdicts t ≠ some false := fun hv => h.promised (.prepare hprepare hv)
    exact (h.store hcache hv).conclude hv
  | abandon => exact h.setPrepare id
  | @serve id call ask priv a live hprepare haction hlive =>
    have hregister : ∀ call read request, a = .register call →
        s.live.requests call = some (read, request) →
          s.tables s.live.nextId = read.query.tables := by
      rintro call' read request rfl -
      cases hserving : serving ask priv <;> rw [hserving] at haction <;>
        exact absurd haction (by simp [Serving.action])
    have hserved := h.live hub hlive (fun _ _ => rfl) hregister fun ht => by
      rw [ownerTables_of_action haction] at ht
      exact h.promised (.prepare hprepare ht)
    exact hserved.setPrepare (fun hp => hp)
  | executePrivate hprepare haction => exact h.setPrepare (fun hp => hp)
  | changeCatalog =>
    refine ⟨fun ht => ?_, h.cache, h.recorded, h.executions⟩
    cases ht with
    | prepare hprepare hp => exact h.promised (.prepare hprepare hp)
    | live ht => exact h.promised (.live ht)

theorem start {pk : List (String × String)} {full : List String} (h0 : Fresh pk full s) :
    Closed t s where
  promised := not_promised_of_fresh h0
  cache version verdicts hcache := by
    rcases h0.securityCache with hnone | hempty
    · exact absurd (hnone.symm.trans hcache) (Option.some_ne_none _).symm
    · rw [hempty] at hcache
      obtain ⟨-, rfl⟩ := Prod.mk.inj (Option.some.inj hcache)
      exact (Option.some_ne_none false).symm
  recorded id sub hs := by simp [h0.live.subs] at hs
  executions e he := by simp [h0.live.core.executions] at he

theorem of_reachable {pk : List (String × String)} {full : List String}
    (h : (system env pk full).Reachable (StaysPrivate t) s) : Closed t s :=
  Reachable.induction (P := Closed t) (fun _ h0 => start h0)
    (fun _ _ _ hr ih ha hs => ih.taken (.of_reachable (live_reachable hr)) ha (taken_of_step hs)) h

end Closed

/-! ## 2. Nobody reads it as the owner -/

/-- The body is the result, as the owner, of a query that does not list the table. -/
def Elsewhere (env : Live.Env γ) (s : State γ) (t key body : String) : Prop :=
  ∃ e ∈ s.live.core.executions, e.key = key ∧ t ∉ e.query.tables ∧
    Read.run env.engine e.query (s.live.core.history.snapshot e.snapshot) = .ok body

/-- **The table is read as the owner by nobody.** -/
structure NeverRead (env : Live.Env γ) (t : String) (s : State γ) : Prop where
  owner : ∀ a tables, ownerRun s a = some tables → t ∉ tables
  cached : ∀ key r, s.live.core.cache key = some r → Elsewhere env s t key r.body
  /-- The bodies replied for cursors, which any cache may keep. -/
  served : ∀ key body, (key, body) ∈ s.live.core.served → Elsewhere env s t key body
  subs : ∀ id sub, s.live.subs id = some sub → t ∈ sub.tables →
    sub.principal.isSome = true ∨ sub.headers.isSome = true

/-- **A table that is private throughout a run is never read as the owner in it**, whatever else
happens to the catalog, and whichever verdicts are cached. -/
theorem never_public_never_read {pk : List (String × String)} {full : List String}
    (h : (system env pk full).Reachable (StaysPrivate t) s) : NeverRead env t s := by
  have hclosed : Closed t s := .of_reachable h
  have hprovenance := Read.Provenance.of_reachable (Live.core_reachable (live_reachable h))
  have helsewhere : ∀ key body, Read.Produced env.engine s.live.core key body →
      Elsewhere env s t key body := by
    rintro key body ⟨e, he, hkey, -, hrun⟩
    exact ⟨e, he, hkey, hclosed.executions e he, hrun⟩
  refine ⟨fun a tables hrun ht => hclosed.promised (.live (promised_of_ownerRun hrun ht)),
    fun key r hr => helsewhere key r.body (hprovenance.cache key r hr),
    fun key body hb => helsewhere key body (hprovenance.served key body hb),
    fun id sub hs ht => ?_⟩
  by_contra hscope
  have howner : ownerScope sub.principal sub.headers = true := by
    simp only [not_or, Bool.not_eq_true, Option.isSome_eq_false_iff] at hscope
    simp [ownerScope, hscope.1, hscope.2]
  exact hclosed.promised (.live (.sub hs howner ht))

/-- A subscriber with a token, and one without, to a table with row security. -/
def subscribeToLocked : List (Action String) :=
  [.prepare 0 ⟨.http true, usersRead, some ⟨"member", "\x7b\x7d"⟩⟩,
    .prepare 1 ⟨.http true, usersRead, none⟩, .isPrivate 0, .isPrivate 1, .serve 0 0,
    .live (.fetch 0), .live (.register 0)]

theorem never_read_subscribeToLocked :
    ∃ s, (system Live.usersEnv [("users", "id")] []).run (usersPrimary lockedCatalog)
        subscribeToLocked = some s ∧ (s.live.subs 0).isSome = true ∧ s.prepares 1 = some .closed ∧
      NeverRead Live.usersEnv "users" s := by
  have hok : (system Live.usersEnv [("users", "id")] []).Along (StaysPrivate "users")
      (usersPrimary lockedCatalog) subscribeToLocked := by
    have hlocked : ¬ lockedCatalog.isPublic "users" := by decide
    exact ⟨hlocked, hlocked, hlocked, hlocked, hlocked, hlocked, hlocked, trivial⟩
  have hend : ((system Live.usersEnv [("users", "id")] []).run (usersPrimary lockedCatalog)
      subscribeToLocked).map (fun s => ((s.live.subs 0).isSome, s.prepares 1)) =
      some (true, some .closed) := by rfl
  obtain ⟨s, hs, hend⟩ := Option.map_eq_some_iff.mp hend
  obtain ⟨hsub, hclosed⟩ := Prod.mk.inj hend
  exact ⟨s, hs, hsub, hclosed,
    never_public_never_read (reachable_of_run (fresh_start _ _ _ _) hok hs)⟩

end PgPaw.Server
