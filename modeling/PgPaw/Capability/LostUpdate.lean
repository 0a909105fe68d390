/-
# No update is lost

A subscriber that was sent no reset has, once everything applied has gone through the hub, the
current result.  The worker keeps this up for a subscription it knows: a commit that changes
its result touches one of its tables, so the query runs again after it.  The gap is before
that.  `subscribe` obtains the snapshot body first and registers the subscription later, and a
commit the worker takes in between concerns nobody: it is in the database the next query runs
on, but no next query is asked for.

`no_lost_update` is about every run in which no registration comes too late in this sense
(`InTime`).  In `late_registration_loses_update` one does, and the subscriber keeps an empty
table.
-/
import PgPaw.Capability.LiveStream

namespace PgPaw.Live

open Transition MapDiff

variable {γ : Type} {env : Env γ} {s s' : State γ}

/-! ## 1. Commits on their way to the hub -/

/-- A commit the worker has still to take, or to make up for with a reset. -/
def Undelivered (s : State γ) (m : Nat) : Prop :=
  m ∈ s.core.pending ∨ s.sending = some m ∨ m ∈ s.queue ∨ s.lagged = true

/-- A body a subscriber can start from, or stay at: the result on some state, and every commit
after it that changed the result is still on its way. -/
def UpToDate (s : State γ) (result : Database γ → Except CacheError String) (body : String) :
    Prop :=
  ∃ n ≤ s.core.history.length, result (s.core.history.snapshot n) = .ok body ∧
    ∀ m, n ≤ m → m < s.core.history.length → s.core.history.Keeps result m ∨ Undelivered s m

/-- The later state has the earlier one's commits, on their way unless they are through. -/
structure Moves (s s' : State γ) : Prop where
  later : Read.Extends s.core s'.core
  applied : ∀ m, s.core.history.length ≤ m → m < s'.core.history.length → Undelivered s' m
  undelivered : ∀ m < s.core.history.length, Undelivered s m → Undelivered s' m

theorem Moves.of_eq (hcore : s'.core = s.core) (hsending : s'.sending = s.sending)
    (hqueue : s'.queue = s.queue) (hlagged : s'.lagged = s.lagged) : Moves s s' where
  later := hcore ▸ .refl _
  applied m hle hlt := by
    rw [hcore] at hlt
    exact absurd hlt (Nat.not_lt.mpr hle)
  undelivered m _ hm := by rwa [Undelivered, hcore, hsending, hqueue, hlagged]

/-- A later state keeps what the earlier commits kept. -/
theorem keeps_of_extends {c c' : Read.State γ} {ρ : Type*} {f : Database γ → ρ}
    (hx : Read.Extends c c') {m : Nat} (hm : m < c.history.length) (hk : c.history.Keeps f m) :
    c'.history.Keeps f m := by
  rw [History.Keeps, hx.snapshot (m + 1) hm, hx.snapshot m (Nat.le_of_lt hm)]
  exact hk

theorem UpToDate.mono {result : Database γ → Except CacheError String} {body : String}
    (h : UpToDate s result body) (hx : Read.Extends s.core s'.core)
    (happlied : ∀ m, s.core.history.length ≤ m → m < s'.core.history.length → Undelivered s' m)
    (hold : ∀ m < s.core.history.length, Undelivered s m →
      s'.core.history.Keeps result m ∨ Undelivered s' m) : UpToDate s' result body := by
  obtain ⟨n, hn, hrun, hsince⟩ := h
  refine ⟨n, hn.trans hx.length, by rw [hx.snapshot n hn, hrun], fun m hle hlt => ?_⟩
  by_cases hm : m < s.core.history.length
  · rcases hsince m hle hm with hk | hu
    · exact Or.inl (keeps_of_extends hx hm hk)
    · exact hold m hm hu
  · exact Or.inr (happlied m (Nat.le_of_not_lt hm) hlt)

theorem UpToDate.moves {result : Database γ → Except CacheError String} {body : String}
    (h : UpToDate s result body) (hmoves : Moves s s') : UpToDate s' result body :=
  h.mono hmoves.later hmoves.applied fun m hm hu => Or.inr (hmoves.undelivered m hm hu)

/-- What the read core does to the pending commits. -/
theorem pending_of_taken {engine : Engine γ} {c c' : Read.State γ} {a : Read.Action γ}
    (h : Read.Taken engine c a c') :
    (∀ m, c.history.length ≤ m → m < c'.history.length → m ∈ c'.pending) ∧
      ∀ m ∈ c.pending, m ∈ c'.pending ∨ a = .advance m := by
  cases h with
  | apply hlsn hwrites =>
    refine ⟨fun m hle hlt => ?_, fun m hm => Or.inl (List.mem_append_left _ hm)⟩
    rw [History.length_commit] at hlt
    obtain rfl : m = c.history.length := by omega
    exact List.mem_append_right _ (List.mem_singleton.mpr rfl)
  | @advance m txn hm horder hlabel =>
    refine ⟨fun m' hle hlt => absurd hlt (Nat.not_lt.mpr hle), fun m' hm' => ?_⟩
    by_cases he : m' = m
    · exact Or.inr (he ▸ rfl)
    · exact Or.inl (List.mem_filter.mpr ⟨hm', by simpa using he⟩)
  | materialize _ | hit _ _ | miss _ _ | execute _ _ | fail _ _ | insert _ | reply _ | replyError _
  | cursor | evict =>
    exact ⟨fun m hle hlt => absurd hlt (Nat.not_lt.mpr hle), fun m hm => Or.inl hm⟩

/-- A step of the core that is not `advance`, whatever it does to the requests. -/
theorem Moves.core {a : Read.Action γ} (hcore : Read.step env.engine s.core a = some s'.core)
    (hne : ∀ m, a ≠ .advance m) (hsending : s'.sending = s.sending) (hqueue : s'.queue = s.queue)
    (hlagged : s'.lagged = s.lagged) : Moves s s' := by
  have ht := Read.taken_of_step hcore
  obtain ⟨happlied, hpending⟩ := pending_of_taken ht
  refine ⟨ht.extends, fun m hle hlt => Or.inl (happlied m hle hlt), fun m _ hm => ?_⟩
  rcases hm with hm | hm
  · exact Or.inl ((hpending m hm).resolve_right (hne m))
  · exact Or.inr (by rwa [hsending, hqueue, hlagged])

/-- The bridge: advance, then send. -/
theorem Moves.advance {m : Nat} {core : Read.State γ} (hsending : s.sending = none)
    (hcore : Read.step env.engine s.core (.advance m) = some core) :
    Moves s { s with core, sending := some m } := by
  have ht := Read.taken_of_step hcore
  obtain ⟨happlied, hpending⟩ := pending_of_taken ht
  refine ⟨ht.extends, fun m' hle hlt => Or.inl (happlied m' hle hlt), fun m' _ hm => ?_⟩
  rcases hm with hm | hm | hm
  · rcases hpending m' hm with hm | he
    · exact Or.inl hm
    · exact Or.inr (Or.inl (congrArg some (Read.Action.advance.inj he)))
  · rw [hsending] at hm
    exact absurd hm nofun
  · exact Or.inr (Or.inr hm)

theorem Moves.broadcast {m : Nat} (hsending : s.sending = some m) :
    Moves s { s with sending := none, queue := s.queue ++ [m] } := by
  refine ⟨.refl _, fun m' hle hlt => absurd hlt (Nat.not_lt.mpr hle), fun m' _ hm => ?_⟩
  rcases hm with hm | hm | hm | hm
  · exact Or.inl hm
  · obtain rfl : m = m' := Option.some.inj (hsending.symm.trans hm)
    exact Or.inr (Or.inr (Or.inl (List.mem_append_right _ (List.mem_singleton.mpr rfl))))
  · exact Or.inr (Or.inr (Or.inl (List.mem_append_left _ hm)))
  · exact Or.inr (Or.inr (Or.inr hm))

/-- What the channel drops is made up for. -/
theorem Moves.overflow {queue : List Nat} :
    Moves s { s with sending := none, queue, lagged := true } :=
  ⟨.refl _, fun _ hle hlt => absurd hlt (Nat.not_lt.mpr hle), fun _ _ _ =>
    Or.inr (Or.inr (Or.inr rfl))⟩

/-! ## 2. Subscriptions that are up to date -/

/-- A result that depends only on the tables of a list. -/
def DependsOn {ρ : Type*} (tables : List String) (f : Database γ → ρ) : Prop :=
  ∀ db db' : Database γ, (∀ t ∈ tables, db (toAsciiLowercase t) = db' (toAsciiLowercase t)) →
    f db = f db'

/-- A transaction that touched no table of the list keeps the result. -/
theorem DependsOn.keeps {ρ : Type*} {pk : List (String × String)} {full : List String}
    {c : Read.State γ} {tables : List String} {f : Database γ → ρ} (h : DependsOn tables f)
    (ho : Read.Ordered pk full c) {m : Nat} {txn : CommittedTransaction}
    (hlabel : c.history.label m = some txn)
    (huntouched : ∀ t ∈ tables, toAsciiLowercase t ∉ txn.touched) : c.history.Keeps f m := by
  obtain ⟨ws, hws, hsnapshot⟩ := ho.writes m txn hlabel
  rw [History.Keeps, hsnapshot]
  refine h _ _ fun t ht => Database.write_of_notMem fun hmem => ?_
  obtain ⟨w, hw, hname⟩ := List.mem_map.mp hmem
  exact huntouched t ht (hname ▸ hws w hw)

/-- A subscription has a job waiting, or what it stores is up to date. -/
def Current (env : Env γ) (s : State γ) (id : Nat) (sub : Subscription) : Prop :=
  (∃ job ∈ s.worker.jobs, job.id = id) ∨
    ∃ body, UpToDate s (sub.result env.engine) body ∧ sub.last = keyedMap env.serde body sub.pk

/-- **The invariant of the runs in which every registration is in time.** -/
structure Caught (env : Env γ) (s : State γ) : Prop where
  depends : ∀ id sub, s.subs id = some sub → DependsOn sub.tables (sub.result env.engine)
  current : ∀ id sub, s.subs id = some sub → Current env s id sub
  fetched : ∀ m job jobs body, s.worker = .busy m (job :: jobs) (some (.ok body)) →
    UpToDate s (job.result env.engine) body

theorem Current.moves {id : Nat} {sub : Subscription} (h : Current env s id sub)
    (hmoves : Moves s s') (hjobs : ∀ job ∈ s.worker.jobs, job.id = id → job ∈ s'.worker.jobs) :
    Current env s' id sub := by
  rcases h with ⟨job, hj, hid⟩ | ⟨body, hbody, hlast⟩
  · exact Or.inl ⟨job, hjobs job hj hid, hid⟩
  · exact Or.inr ⟨body, hbody.moves hmoves, hlast⟩

namespace Caught

/-- Steps that register nothing and fetch nothing. -/
theorem moves (h : Caught env s) (hmoves : Moves s s')
    (hsubs : ∀ id sub, s'.subs id = some sub → s.subs id = some sub)
    (hjobs : ∀ id sub, s'.subs id = some sub → ∀ job ∈ s.worker.jobs, job.id = id →
      job ∈ s'.worker.jobs)
    (hfetched : ∀ m jobs body, s'.worker = .busy m jobs (some (.ok body)) →
      s.worker = .busy m jobs (some (.ok body))) : Caught env s' where
  depends id sub hs := h.depends id sub (hsubs id sub hs)
  current id sub hs := (h.current id sub (hsubs id sub hs)).moves hmoves (hjobs id sub hs)
  fetched m job jobs body hb := (h.fetched m job jobs body (hfetched _ _ _ hb)).moves hmoves

/-- Steps that leave the hub alone. -/
theorem of_eq (h : Caught env s) (hmoves : Moves s s') (hsubs : s'.subs = s.subs)
    (hworker : s'.worker = s.worker) : Caught env s' :=
  h.moves hmoves (fun _ _ hs => hsubs ▸ hs) (fun _ _ _ _ hj _ => hworker ▸ hj)
    fun _ _ _ hb => hworker ▸ hb

/-- `on_commit` starts: whoever the commit concerns has a job. -/
theorem receive {pk : List (String × String)} {full : List String} (h : Caught env s)
    (ho : Read.Ordered pk full s.core) (hub : Hub env s) {m : Nat} {queue order : List Nat}
    {txn : CommittedTransaction} (hidle : s.worker = .idle) (hqueue : s.queue = m :: queue)
    (hlabel : s.core.history.label m = some txn)
    (horder : order.Perm (s.matching txn.touched)) :
    Caught env { s with
      queue
      worker := .busy m (selectJobs s order) none
      delivered := s.delivered ++ [m] } where
  depends := h.depends
  fetched m' job jobs body hb := by
    simp only [Worker.busy.injEq] at hb
    cases hb.2.2
  current id sub hs := by
    have hs : s.subs id = some sub := hs
    by_cases hmatched : sub.matched txn.touched = true
    · -- the commit concerns the subscription, which is one of the jobs
      refine Or.inl ⟨sub.job id, Hub.mem_selectJobs.mpr ⟨id, ?_, sub, hs, rfl⟩, rfl⟩
      rw [horder.mem_iff, State.matching, List.mem_filter, List.mem_range]
      exact ⟨(hub.ids id sub hs).1, by simpa [hs] using hmatched⟩
    · -- the commit does not concern it, and keeps its result
      have huntouched : ∀ t ∈ sub.tables, toAsciiLowercase t ∉ txn.touched := by
        intro t ht htouched
        exact hmatched (List.any_eq_true.mpr ⟨t, ht, by simpa using htouched⟩)
      have hkeeps := (h.depends id sub hs).keeps ho hlabel huntouched
      rcases h.current id sub hs with ⟨job, hj, -⟩ | ⟨body, hbody, hlast⟩
      · simp [hidle, Worker.jobs] at hj
      refine Or.inr ⟨body, hbody.mono (.refl _)
        (fun _ hle hlt => absurd hlt (Nat.not_lt.mpr hle)) fun m' hm' hu => ?_, hlast⟩
      rcases hu with hu | hu | hu | hu
      · exact Or.inr (Or.inl hu)
      · exact Or.inr (Or.inr (Or.inl hu))
      · rcases List.mem_cons.mp (hqueue ▸ hu) with rfl | hu
        · exact Or.inl hkeeps
        · exact Or.inr (Or.inr (Or.inr (Or.inl hu)))
      · exact Or.inr (Or.inr (Or.inr (Or.inr hu)))

/-- The query of the head job runs on the newest state. -/
theorem requery (h : Caught env s) {m : Nat} {job : LiveJob} {jobs : List LiveJob}
    (hbusy : s.worker = .busy m (job :: jobs) none) :
    Caught env { s with
      worker := .busy m (job :: jobs) (some (job.result env.engine s.core.history.current)) } where
  depends := h.depends
  current id sub hs := (h.current id sub hs).moves (.of_eq rfl rfl rfl rfl) fun j hj _ => by
    rw [hbusy] at hj
    exact hj
  fetched m' job' jobs' body hb := by
    simp only [Worker.busy.injEq, List.cons.injEq, Option.some.injEq] at hb
    obtain ⟨rfl, ⟨rfl, rfl⟩, hrun⟩ := hb
    exact ⟨s.core.history.length, Nat.le_refl _, hrun,
      fun m hle hlt => absurd hlt (Nat.not_lt.mpr hle)⟩

/-- The jobs of the others stay when the head job ends. -/
theorem mem_jobs_of_ne {m : Nat} {job j : LiveJob} {jobs : List LiveJob}
    {fresh : Option (Except CacheError String)} (hbusy : s.worker = .busy m (job :: jobs) fresh)
    (hj : j ∈ s.worker.jobs) (hne : j.id ≠ job.id) : j ∈ jobs := by
  rw [hbusy] at hj
  exact (List.mem_cons.mp hj).resolve_left fun he => hne (he ▸ rfl)

/-- The head job ends without a subscription. -/
theorem endJob (h : Caught env s) {m : Nat} {job : LiveJob} {jobs : List LiveJob}
    {fresh : Option (Except CacheError String)} (hbusy : s.worker = .busy m (job :: jobs) fresh)
    (hsub : s.subs job.id = none) : Caught env { s with worker := .busy m jobs none } := by
  refine h.moves (.of_eq rfl rfl rfl rfl) (fun _ _ hs => hs) (fun id sub hs j hj hid => ?_)
    fun _ _ _ hb => ?_
  · refine mem_jobs_of_ne hbusy hj ?_
    intro he
    rw [← hid, he, hsub] at hs
    exact absurd hs nofun
  · simp only [Worker.busy.injEq] at hb
    exact absurd hb.2.2 nofun

/-- The head job's result is sent and stored. -/
theorem emit (h : Caught env s) (hub : Hub env s) {m : Nat} {job : LiveJob} {jobs : List LiveJob}
    {body : String} {txid : Nat} {deltas : List Delta} {next : RowMap}
    (hbusy : s.worker = .busy m (job :: jobs) (some (.ok body)))
    (hnext : next = keyedMap env.serde body job.pk) :
    Caught env { emitDeltas s job txid deltas next with worker := .busy m jobs none } := by
  cases hsub : s.subs job.id with
  | none =>
    rw [emitDeltas_of_none hsub]
    exact h.endJob hbusy hsub
  | some sub =>
    rw [emitDeltas_of_sub hsub (hub.ids job.id sub hsub).2]
    have hjob : sub.job job.id = job :=
      hub.job job (by rw [hbusy]; exact List.mem_cons_self) sub hsub
    refine ⟨fun id sub' hs => ?_, fun id sub' hs => ?_, fun _ _ _ _ hb => ?_⟩
    · simp only [Function.update_apply] at hs
      split at hs
      · obtain rfl := Option.some.inj hs
        exact h.depends job.id sub hsub
      · exact h.depends id sub' hs
    · simp only [Function.update_apply] at hs
      split at hs
      · -- the subscription of the job
        obtain rfl := Option.some.inj hs
        have hbody := h.fetched m job jobs body hbusy
        rw [← hjob] at hbody hnext
        exact Or.inr ⟨body, hbody.moves (.of_eq rfl rfl rfl rfl), hnext⟩
      · rename_i hne
        exact (h.current id sub' hs).moves (.of_eq rfl rfl rfl rfl) fun j hj hid =>
          mem_jobs_of_ne hbusy hj (hid ▸ hne)
    · simp only [Worker.busy.injEq] at hb
      exact absurd hb.2.2 nofun

/-- Subscriptions go. -/
theorem removeSubs (h : Caught env s) {subs : Nat → Option Subscription} {sent : Nat → List Event}
    (hsubs : ∀ id sub, subs id = some sub → s.subs id = some sub) :
    Caught env { s with subs, sent } :=
  h.moves (.of_eq rfl rfl rfl rfl) hsubs (fun _ _ _ _ hj _ => hj) fun _ _ _ hb => hb

/-- One subscription goes. -/
theorem eq_of_update_none {id id' : Nat} {sub : Subscription}
    (hs : Function.update s.subs id none id' = some sub) : s.subs id' = some sub := by
  rw [Function.update_apply] at hs
  split at hs
  · exact absurd hs nofun
  · exact hs

/-- The query of the head job fails, and its subscription goes. -/
theorem discard (h : Caught env s) (hub : Hub env s) {m : Nat} {job : LiveJob}
    {jobs : List LiveJob} {e : CacheError}
    (hbusy : s.worker = .busy m (job :: jobs) (some (.error e))) :
    Caught env { discardSub s job with worker := .busy m jobs none } := by
  cases hsub : s.subs job.id with
  | none =>
    rw [discardSub_of_none hsub]
    exact h.endJob hbusy hsub
  | some sub =>
    rw [discardSub_of_sub hsub (hub.ids job.id sub hsub).2]
    exact (h.removeSubs fun _ _ hs => eq_of_update_none hs).endJob hbusy (Function.update_self ..)

/-- A subscription is registered with a body that is up to date. -/
theorem register (h : Caught env s) (query : CacheableQuery) (hash : String) (version : Nat)
    {body : String} {principal : Option Principal} {headers : Option String}
    (hdep : DependsOn query.tables
      (queryJsonScoped env.engine principal headers query.sql query.params))
    (hbody : UpToDate s (queryJsonScoped env.engine principal headers query.sql query.params)
      body) : Caught env (hubSubscribe env s query hash version body principal headers) where
  depends id sub hs := by
    simp only [hubSubscribe, Function.update_apply] at hs
    split at hs
    · obtain rfl := Option.some.inj hs
      exact hdep
    · exact h.depends id sub hs
  current id sub hs := by
    have hmoves : Moves s (hubSubscribe env s query hash version body principal headers) :=
      .of_eq rfl rfl rfl rfl
    simp only [hubSubscribe, Function.update_apply] at hs
    split at hs
    · obtain rfl := Option.some.inj hs
      exact Or.inr ⟨body, hbody.moves hmoves, rfl⟩
    · exact (h.current id sub hs).moves hmoves fun _ hj _ => hj
  fetched m job jobs body' hb := (h.fetched m job jobs body' hb).moves (.of_eq rfl rfl rfl rfl)

end Caught

/-! ## 3. Registrations in time -/

/-- The read and the body of a `subscribe` call that is about to register. -/
def State.opening (s : State γ) (id : Nat) : Option (PreparedRead × String) :=
  match s.requests id with
  | some (read, .materializing) => match s.core.calls id with
    | some ⟨_, .returned (.ok (_, snapshot))⟩ => some (read, snapshot.body)
    | _ => none
  | some (read, .fetched _ body) => some (read, body)
  | _ => none

/-- The reads of the `subscribe` calls of a run come from a given set. -/
def Asks (issued : PreparedRead → Prop) (_ : State γ) : Action γ → Prop
  | .subscribe _ read => issued read
  | _ => True

/-- **The condition on a step**: when a subscription is registered, the hub's worker has not
yet taken any commit that changed the result since the snapshot body. -/
def InTime (env : Env γ) (s : State γ) : Action γ → Prop
  | .register id => ∀ read body, s.opening id = some (read, body) →
      UpToDate s (read.result env.engine) body
  | _ => True

/-- What happens in a run whose registrations are all in time. -/
def InTimeRun (env : Env γ) (issued : PreparedRead → Prop) (s : State γ) (a : Action γ) : Prop :=
  Asks issued s a ∧ InTime env s a

/-- The requests are for reads that were asked; one that waits for `materialize` has neither a
principal nor headers. -/
structure Requested (issued : PreparedRead → Prop) (s : State γ) : Prop where
  issued : ∀ id read request, s.requests id = some (read, request) → issued read
  anonymous : ∀ id read, s.requests id = some (read, .materializing) →
    read.principal = none ∧ read.headers = none

namespace Requested

variable {issued : PreparedRead → Prop}

theorem of_eq (h : Requested issued s) (hrequests : s'.requests = s.requests) :
    Requested issued s' where
  issued := hrequests ▸ h.issued
  anonymous := hrequests ▸ h.anonymous

/-- A request is made, or moves on. -/
theorem setRequest (h : Requested issued s) (id : Nat) {read : PreparedRead} {request : Request}
    (hrequests : s'.requests = Function.update s.requests id (some (read, request)))
    (hread : issued read)
    (hanonymous : request = .materializing → read.principal = none ∧ read.headers = none) :
    Requested issued s' where
  issued id' read' request' hr := by
    rw [hrequests, Function.update_apply] at hr
    split at hr
    · obtain ⟨rfl, rfl⟩ := Prod.mk.inj (Option.some.inj hr)
      exact hread
    · exact h.issued id' read' request' hr
  anonymous id' read' hr := by
    rw [hrequests, Function.update_apply] at hr
    split at hr
    · obtain ⟨rfl, rfl⟩ := Prod.mk.inj (Option.some.inj hr)
      exact hanonymous rfl
    · exact h.anonymous id' read' hr

theorem taken {a : Action γ} (h : Requested issued s) (hok : Asks issued s a)
    (ht : Taken env s a s') : Requested issued s' := by
  cases ht with
  | @subscribePublic id read core hfree hscope hcore =>
    refine h.setRequest id rfl hok ?_
    intro _
    simpa [ownerScope] using hscope
  | @subscribeScoped id read hfree hscope => exact h.setRequest id rfl hok nofun
  | @fetch id version read body hrequest hrun =>
    exact h.setRequest id rfl (h.issued id read _ hrequest) nofun
  | @fetchError id version read hrequest =>
    exact h.setRequest id rfl (h.issued id read _ hrequest) nofun
  | @registerPublic id version read q snapshot hrequest hcall =>
    exact h.setRequest id rfl (h.issued id read _ hrequest) nofun
  | @registerScoped id version read body hrequest =>
    exact h.setRequest id rfl (h.issued id read _ hrequest) nofun
  | @registerError id read hrequest =>
    exact h.setRequest id rfl (h.issued id read _ hrequest) nofun
  | emit hbusy hlabel hprev hnext => exact h.of_eq (emitDeltas_requests _ _ _ _)
  | discard hbusy => exact h.of_eq (discardSub_requests _)
  | core _ _ | advance _ _ | broadcast _ _ | overflow _ _ | receive _ _ _ _ _ | resetAll _ _
  | requery _ | finish _ | drop _ | release _ _ => exact h.of_eq rfl

end Requested

/-! ## 4. Every step keeps it -/

section Runs

variable {pk : List (String × String)} {full : List String} {issued : PreparedRead → Prop}

theorem Caught.taken {a : Action γ}
    (hdep : ∀ read, issued read → DependsOn read.query.tables (read.result env.engine))
    (ho : Read.Ordered pk full s.core) (hub : Hub env s) (hr : Requested issued s)
    (h : Caught env s) (hok : InTime env s a) (ht : Taken env s a s') : Caught env s' := by
  cases ht with
  | core hcore hne => exact h.of_eq (.core hcore hne rfl rfl rfl) rfl rfl
  | advance hsending hcore => exact h.of_eq (.advance hsending hcore) rfl rfl
  | broadcast hsending hroom => exact h.of_eq (.broadcast hsending) rfl rfl
  | overflow hsending hfull => exact h.of_eq .overflow rfl rfl
  | receive hidle hqueue hlabel hlagged horder =>
    exact h.receive ho hub hidle hqueue hlabel horder
  | resetAll hidle hlagged =>
    refine ⟨fun id sub hs => ?_, fun id sub hs => ?_, fun m job jobs body hb => ?_⟩
    · cases hs
    · cases hs
    · cases hidle.symm.trans hb
  | requery hbusy => exact h.requery hbusy
  | emit hbusy hlabel hprev hnext => exact h.emit hub hbusy hnext
  | discard hbusy => exact h.discard hub hbusy
  | @finish m fresh hbusy =>
    refine h.moves (.of_eq rfl rfl rfl rfl) (fun id sub hs => ?_) (fun id sub hs j hj _ => ?_)
      fun _ _ _ hb => ?_
    · simp only [retain] at hs
      split at hs
      · exact hs
      · cases hs
    · rw [hbusy] at hj
      exact absurd hj List.not_mem_nil
    · cases hb
  | @subscribePublic id read core hfree hscope hcore =>
    have hmoves : Moves s { s.setRequest id read .materializing with core } :=
      .core hcore (by simp) rfl rfl rfl
    exact h.of_eq hmoves rfl rfl
  | subscribeScoped _ _ | fetch _ _ | fetchError _ | registerError _ =>
    exact h.of_eq (.of_eq rfl rfl rfl rfl) rfl rfl
  | @registerPublic id version read q snapshot hrequest hcall =>
    obtain ⟨hprincipal, hheaders⟩ := hr.anonymous id read hrequest
    have hresult : read.result env.engine =
        queryJsonScoped env.engine none none read.query.sql read.query.params := by
      funext db
      rw [PreparedRead.result, hprincipal, hheaders]
    have hbody := hok read snapshot.body (by simp only [State.opening, hrequest, hcall])
    have hread := hdep read (hr.issued id read _ hrequest)
    rw [hresult] at hbody hread
    have hnew := h.register read.query (lowerHex read.query.fingerprint) version hread hbody
    exact hnew.of_eq (.of_eq rfl rfl rfl rfl) rfl rfl
  | @registerScoped id version read body hrequest =>
    have hbody := hok read body (by simp only [State.opening, hrequest])
    have hread := hdep read (hr.issued id read _ hrequest)
    exact (h.register read.query "" version hread hbody).of_eq (.of_eq rfl rfl rfl rfl) rfl rfl
  | @drop id hid =>
    have hgone : ∀ id' sub, (s.setSub id none).subs id' = some sub → s.subs id' = some sub :=
      fun _ _ hs => eq_of_update_none hs
    exact h.moves (.of_eq rfl rfl rfl rfl) hgone (fun _ _ _ _ hj _ => hj) fun _ _ _ hb => hb
  | release hid hgone => exact h.of_eq (.of_eq rfl rfl rfl rfl) rfl rfl

theorem requested_of_reachable {ok : State γ → Action γ → Prop}
    (hok : ∀ s a, ok s a → Asks issued s a) (h : (system env pk full).Reachable ok s) :
    Requested issued s := by
  refine Reachable.induction (P := Requested issued) (fun s h0 => ?_)
    (fun s a _ _ ih ha hs => ih.taken (hok s a ha) (taken_of_step hs)) h
  have h0 : Fresh pk full s := h0
  refine ⟨?_, ?_⟩ <;> simp [h0.requests]

theorem caught_of_reachable
    (hdep : ∀ read, issued read → DependsOn read.query.tables (read.result env.engine))
    (h : (system env pk full).Reachable (InTimeRun env issued) s) : Caught env s := by
  refine Reachable.induction (P := Caught env) (fun s h0 => ?_) (fun s a s' hr ih ha hs => ?_) h
  · have h0 : Fresh pk full s := h0
    refine ⟨?_, ?_, ?_⟩ <;> simp [h0.subs, h0.worker]
  · exact ih.taken hdep (.of_reachable (core_reachable hr)) (.of_reachable hr)
      (requested_of_reachable (fun _ _ ha => ha.1) hr) ha.2 (taken_of_step hs)

/-- Everything applied has gone through the hub. -/
structure Processed (s : State γ) : Prop where
  pending : s.core.pending = []
  sending : s.sending = none
  queue : s.queue = []
  lagged : s.lagged = false
  worker : s.worker = .idle

/-- **Every subscriber has the current result.** -/
def NoLostUpdate (env : Env γ) (s : State γ) : Prop :=
  ∀ id sub, s.subs id = some sub → ∃ body,
    sub.result env.engine s.core.history.current = .ok body ∧
      replayed env s id sub = keyedMap env.serde body sub.pk

/-- **No update is lost, in every run whose registrations are all in time.** -/
theorem no_lost_update
    (hdep : ∀ read, issued read → DependsOn read.query.tables (read.result env.engine))
    (h : (system env pk full).Reachable (InTimeRun env issued) s) (hdone : Processed s) :
    NoLostUpdate env s := by
  intro id sub hs
  have hub : Hub env s := .of_reachable h
  have caught := caught_of_reachable hdep h
  rcases caught.current id sub hs with ⟨job, hj, -⟩ | ⟨body, ⟨n, hn, hrun, hsince⟩, hlast⟩
  · rw [hdone.worker] at hj
    exact absurd hj List.not_mem_nil
  have hkeeps : ∀ m, n ≤ m → m < s.core.history.length →
      s.core.history.Keeps (sub.result env.engine) m := by
    intro m hle hlt
    refine (hsince m hle hlt).resolve_right ?_
    simp [Undelivered, hdone.pending, hdone.sending, hdone.queue, hdone.lagged]
  refine ⟨body, ?_, by rw [hub.stream id sub hs, hlast]⟩
  rw [History.current_eq_of_keeps hn hkeeps, hrun]

end Runs

/-! ## 5. Two runs -/

/-- `SELECT * FROM users` depends on `users`. -/
theorem usersPublic_dependsOn (read : PreparedRead) (hread : read = usersPublic) :
    DependsOn read.query.tables (read.result usersEnv.engine) := by
  subst hread
  intro db other hsame
  have hlower : toAsciiLowercase "users" = "users" := by decide
  have husers := hsame "users" (by decide)
  rw [hlower] at husers
  change Except.ok (db "users") = Except.ok (other "users")
  rw [husers]

/-- `subscribeThenCommit`, to the end of `on_commit`. -/
def followCommit : List (Action String) :=
  subscribeThenCommit ++ [.emit ∅ (AList.singleton "1" userRow), .finish]

theorem no_lost_update_followCommit :
    ∃ s, (system usersEnv [("users", "id")] []).run usersStart followCommit = some s ∧
      s.sent 0 = [.snapshotUrl (lowerHex usersRead.fingerprint) 0,
        .delta (.insert "1" userRow) 7, .upToDate 7] ∧ NoLostUpdate usersEnv s := by
  have hok : (system usersEnv [("users", "id")] []).Along
      (InTimeRun usersEnv (· = usersPublic)) usersStart followCommit := by
    refine ⟨⟨rfl, trivial⟩, ⟨trivial, trivial⟩, ⟨trivial, trivial⟩, ⟨trivial, trivial⟩,
      ⟨trivial, trivial⟩, ⟨trivial, fun read body hopening => ?_⟩, ⟨trivial, trivial⟩,
      ⟨trivial, trivial⟩, ⟨trivial, trivial⟩, ⟨trivial, trivial⟩, ⟨trivial, trivial⟩,
      ⟨trivial, trivial⟩, ⟨trivial, trivial⟩, trivial⟩
    -- nothing has been committed when the subscription is registered
    have hbody : some (usersPublic, "[]") = some (read, body) := hopening
    cases hbody
    exact ⟨0, Nat.le_refl _, rfl, fun m _ hlt => absurd hlt (Nat.not_lt_zero m)⟩
  have hend : ((system usersEnv [("users", "id")] []).run usersStart followCommit).map
      (fun s => (s.core.pending, s.sending, s.queue, s.lagged, s.worker, s.sent 0)) =
      some ([], none, [], false, .idle, [.snapshotUrl (lowerHex usersRead.fingerprint) 0,
        .delta (.insert "1" userRow) 7, .upToDate 7]) := by rfl
  obtain ⟨s, hs, hend⟩ := Option.map_eq_some_iff.mp hend
  simp only [Prod.mk.injEq] at hend
  obtain ⟨h1, h2, h3, h4, h5, hsent⟩ := hend
  exact ⟨s, hs, hsent, no_lost_update usersPublic_dependsOn
    (reachable_of_run (fresh_start _ _ _) hok hs) ⟨h1, h2, h3, h4, h5⟩⟩

/-- The body is computed on the empty table; the worker takes the commit of the first row
while nobody is registered; then the subscription is. -/
def registerLate : List (Action String) :=
  [.subscribe 0 usersPublic, .core (.lookup 0), .core (.execute 0), .core (.insert 0),
    .core (.reply 0), .core firstUser, .core (.advance 0), .broadcast, .receive [], .finish,
    .register 0]

/-- What is stored for the subscriber after it. -/
def lateSubscription : Subscription where
  tables := ["users"]
  pk := some "id"
  sql := "SELECT * FROM users"
  last := keyedMap usersSerde "[]" (some "id")
  principal := none
  headers := none
  params := []

/-- **A subscriber that keeps an empty table**, with everything processed. -/
theorem late_registration_loses_update :
    (∀ read, read = usersPublic → DependsOn read.query.tables (read.result usersEnv.engine)) ∧
      ∃ s, (system usersEnv [("users", "id")] []).Reachable (Asks (· = usersPublic)) s ∧
        Processed s ∧ s.sent 0 = [.snapshotUrl (lowerHex usersRead.fingerprint) 0] ∧
        ¬ NoLostUpdate usersEnv s := by
  have hok : (system usersEnv [("users", "id")] []).Along (Asks (· = usersPublic)) usersStart
      registerLate :=
    ⟨rfl, trivial, trivial, trivial, trivial, trivial, trivial, trivial, trivial, trivial,
      trivial, trivial⟩
  have hend : ((system usersEnv [("users", "id")] []).run usersStart registerLate).map
      (fun s => (s.core.pending, s.sending, s.queue, s.lagged, s.worker, s.sent 0, s.subs 0,
        s.core.history.current "users")) =
      some ([], none, [], false, .idle, [.snapshotUrl (lowerHex usersRead.fingerprint) 0],
        some lateSubscription, Read.oneRow) := by rfl
  obtain ⟨s, hs, hend⟩ := Option.map_eq_some_iff.mp hend
  simp only [Prod.mk.injEq] at hend
  obtain ⟨h1, h2, h3, h4, h5, hsent, hsub, hcurrent⟩ := hend
  have hreach := reachable_of_run (fresh_start _ _ _) hok hs
  refine ⟨usersPublic_dependsOn, s, hreach, ⟨h1, h2, h3, h4, h5⟩, hsent, fun h => ?_⟩
  obtain ⟨body, hrun, hreplayed⟩ := h 0 lateSubscription hsub
  have hbody : Except.ok (s.core.history.current "users") = Except.ok body := hrun
  rw [hcurrent] at hbody
  obtain rfl := Except.ok.inj hbody
  rw [(Hub.of_reachable hreach).stream 0 lateSubscription hsub] at hreplayed
  exact absurd hreplayed (by decide)

end PgPaw.Live
