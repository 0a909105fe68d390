/-
# What a subscriber is told

The stream of a subscription tells results of its query, one after the other: the snapshot is
the first, and a batch, on top of the result before it, the next (`Told`).  They are results on
states that came after each other, since the worker runs the query on the state of the moment.

This holds of every subscription, however late it was registered and whatever it missed
(`account_of_reachable`): an update can be lost, but nothing is told that was never the result,
and no result after a later one.
-/
import PgPaw.Capability.Frame
import PgPaw.Capability.LostUpdate
import PgPaw.Capability.RowIdentity

namespace PgPaw.Live

open Transition MapDiff

variable {γ : Type} {env : Env γ} {s s' : State γ}

/-! ## 1. Results told -/

/-- The body is the result on the state that the first `n` commits made. -/
def ResultAt (s : State γ) (result : Database γ → Except CacheError String) (n : Nat)
    (body : String) : Prop :=
  n ≤ s.core.history.length ∧ result (s.core.history.snapshot n) = .ok body

section ResultAt

variable {result : Database γ → Except CacheError String} {n : Nat} {body body' : String}

theorem ResultAt.extends (h : ResultAt s result n body) (hx : Read.Extends s.core s'.core) :
    ResultAt s' result n body :=
  ⟨h.1.trans hx.length, by rw [hx.snapshot n h.1, h.2]⟩

theorem ResultAt.unique (h : ResultAt s result n body) (h' : ResultAt s result n body') :
    body = body' := Except.ok.inj (h.2.symm.trans h'.2)

end ResultAt

/-- The first event of a subscription that was opened with a body. -/
def Event.Opens (serde : Serde) (body : String) : Event → Prop
  | .snapshotRows rows _ => rows = (serde.fromStr body).getD (.array [])
  | .snapshotUrl _ _ => True
  | .delta _ _ | .upToDate _ | .reset => False

/-- **The results a stream tells**: the one it was opened with, and with every batch the result
that differs from the one before by its changes.  `tells n body` is what is told at most: that
the body is the result on the `n`-th state. -/
inductive Told (serde : Serde) (pk : Option String) (tells : Nat → String → Prop)
    (opened : String) : Event → List Event → Nat → String → Prop
  | opened {first : Event} {n : Nat} (hfirst : first.Opens serde opened) (htells : tells n opened) :
      Told serde pk tells opened first [] n opened
  | batch {first : Event} {events : List Event} {n n' txid : Nat} {body body' : String}
      {prev next : RowIter} (h : Told serde pk tells opened first events n body) (hle : n ≤ n')
      (htells : tells n' body') (hprev : prev.toFinmap = keyedMap serde body pk)
      (hnext : next.toFinmap = keyedMap serde body' pk) :
      Told serde pk tells opened first (events ++ Live.batch (diff prev next) txid) n' body'

section Told

variable {serde : Serde} {pk : Option String} {tells tells' : Nat → String → Prop}
  {opened body : String} {first : Event} {events : List Event} {n : Nat}

theorem Told.mono (h : Told serde pk tells opened first events n body)
    (hle : ∀ n body, tells n body → tells' n body) :
    Told serde pk tells' opened first events n body := by
  induction h with
  | opened hfirst htells => exact .opened hfirst (hle _ _ htells)
  | batch _ hn htells hprev hnext ih => exact .batch ih hn (hle _ _ htells) hprev hnext

/-- The last result is one that may be told. -/
theorem Told.last_tells (h : Told serde pk tells opened first events n body) : tells n body := by
  cases h with
  | opened _ htells => exact htells
  | batch _ _ htells _ _ => exact htells

end Told

/-! ## 2. The account of a subscription -/

/-- The subscription is for a read. -/
structure Subscription.For (env : Env γ) (sub : Subscription) (read : PreparedRead) : Prop where
  pk : sub.pk = keyColumn env.pk read.query.tables
  result : sub.result env.engine = read.result env.engine

/-- The worker holds a body for a subscription. -/
def Holding (s : State γ) (id : Nat) (body : String) : Prop :=
  ∃ m job jobs, s.worker = .busy m (job :: jobs) (some (.ok body)) ∧ job.id = id

/-- What some events tell the subscriber of a read. -/
def Tells (env : Env γ) (s : State γ) (read : PreparedRead) (id : Nat) : Event → List Event → Nat →
    String → Prop :=
  Told env.serde (keyColumn env.pk read.query.tables) (ResultAt s (read.result env.engine))
    (s.bodies id)

/-- **What a subscriber of a read was told so far**, by what has become of its subscription. -/
inductive Account (env : Env γ) (s : State γ) (read : PreparedRead) (id : Nat) : Prop
  /-- What is stored is what was told last, and a body the worker holds is not older. -/
  | registered {sub : Subscription} {first : Event} {events : List Event} {n : Nat} {body : String}
      (hsub : s.subs id = some sub) (hfor : sub.For env read)
      (hsent : s.sent id = first :: events) (htold : Tells env s read id first events n body)
      (hlast : sub.last = keyedMap env.serde body sub.pk)
      (hholding : ∀ body', Holding s id body' →
        ∃ n', n ≤ n' ∧ ResultAt s (read.result env.engine) n' body')
  | gone {first : Event} {events : List Event} {n : Nat} {body : String} (hsub : s.subs id = none)
      (hsent : s.sent id = first :: events) (htold : Tells env s read id first events n body)
  | reset {first : Event} {events : List Event} {n : Nat} {body : String} (hsub : s.subs id = none)
      (hsent : s.sent id = first :: events ++ [.reset])
      (htold : Tells env s read id first events n body)

section Account

variable {read : PreparedRead} {id : Nat}

theorem Tells.extends {first : Event} {events : List Event} {n : Nat} {body : String}
    (h : Tells env s read id first events n body) (hx : Read.Extends s.core s'.core)
    (hbodies : s'.bodies id = s.bodies id) : Tells env s' read id first events n body := by
  rw [Tells, hbodies]
  exact h.mono fun _ _ hat => hat.extends hx

/-- A later state with the same subscription. -/
theorem Account.of_same (h : Account env s read id) (hx : Read.Extends s.core s'.core)
    (hsubs : s'.subs id = s.subs id) (hsent : s'.sent id = s.sent id)
    (hbodies : s'.bodies id = s.bodies id)
    (hholding : ∀ body, s.subs id ≠ none → Holding s' id body → Holding s id body) :
    Account env s' read id := by
  cases h with
  | registered hsub hfor hsent' htold hlast hold =>
    refine .registered (hsubs.trans hsub) hfor (hsent.trans hsent') (htold.extends hx hbodies) hlast
      fun body' hb => ?_
    obtain ⟨n', hle, hat⟩ := hold body' (hholding body' (by simp [hsub]) hb)
    exact ⟨n', hle, hat.extends hx⟩
  | gone hsub hsent' htold =>
    exact .gone (hsubs.trans hsub) (hsent.trans hsent') (htold.extends hx hbodies)
  | reset hsub hsent' htold =>
    exact .reset (hsubs.trans hsub) (hsent.trans hsent') (htold.extends hx hbodies)

/-- Steps that leave the hub alone. -/
theorem Account.of_eq (h : Account env s read id) (hx : Read.Extends s.core s'.core)
    (hsubs : s'.subs = s.subs) (hsent : s'.sent = s.sent) (hbodies : s'.bodies = s.bodies)
    (hworker : s'.worker = s.worker) : Account env s' read id :=
  h.of_same hx (by rw [hsubs]) (by rw [hsent]) (by rw [hbodies]) fun body _ hb => by
    rwa [Holding, hworker] at hb

/-- The subscription goes, and nothing is sent. -/
theorem Account.leave (h : Account env s read id) (hcore : s'.core = s.core)
    (hsubs : s'.subs id = none) (hsent : s'.sent id = s.sent id)
    (hbodies : s'.bodies id = s.bodies id) : Account env s' read id := by
  have hx : Read.Extends s.core s'.core := hcore ▸ .refl _
  cases h with
  | registered hsub hfor hsent' htold hlast hold =>
    exact .gone hsubs (hsent.trans hsent') (htold.extends hx hbodies)
  | gone hsub hsent' htold => exact .gone hsubs (hsent.trans hsent') (htold.extends hx hbodies)
  | reset hsub hsent' htold => exact .reset hsubs (hsent.trans hsent') (htold.extends hx hbodies)

/-- The subscription goes with a reset. -/
theorem Account.close (h : Account env s read id) {sub : Subscription} (hsub : s.subs id = some sub)
    (hcore : s'.core = s.core) (hsubs : s'.subs id = none)
    (hsent : s'.sent id = s.sent id ++ [.reset]) (hbodies : s'.bodies id = s.bodies id) :
    Account env s' read id := by
  have hx : Read.Extends s.core s'.core := hcore ▸ .refl _
  cases h with
  | registered hsub' hfor hsent' htold hlast hold =>
    exact .reset hsubs (by rw [hsent, hsent']) (htold.extends hx hbodies)
  | gone hsub' hsent' htold => exact absurd (hsub.symm.trans hsub') nofun
  | reset hsub' hsent' htold => exact absurd (hsub.symm.trans hsub') nofun

/-- A job is done, and the worker holds nothing. -/
theorem not_holding_of_waiting {m : Nat} {jobs : List LiveJob} {body : String}
    (hworker : s.worker = .busy m jobs none) : ¬ Holding s id body := by
  rintro ⟨m', job, jobs', hb, -⟩
  exact absurd (hworker.symm.trans hb) (by simp)

/-- The query of the head job runs on the newest state. -/
theorem Account.requery (h : Account env s read id) (hub : Hub env s) {m : Nat} {job : LiveJob}
    {jobs : List LiveJob} (hbusy : s.worker = .busy m (job :: jobs) none) :
    Account env { s with
      worker := .busy m (job :: jobs) (some (job.result env.engine s.core.history.current)) }
      read id := by
  cases h with
  | @registered sub first events n body hsub hfor hsent htold hlast hold =>
    refine .registered hsub hfor hsent htold hlast ?_
    rintro body' ⟨m', job', jobs', hb, hid⟩
    simp only [Worker.busy.injEq, List.cons.injEq, Option.some.injEq] at hb
    obtain ⟨rfl, ⟨rfl, rfl⟩, hrun⟩ := hb
    -- the job is the subscription as it still is
    have hsub' : s.subs job.id = some sub := hid ▸ hsub
    have hjob : sub.job job.id = job :=
      hub.job job (by rw [hbusy]; exact List.mem_cons_self) sub hsub'
    have hresult : job.result env.engine = read.result env.engine := by
      rw [← hfor.result, ← hjob]
      rfl
    exact ⟨s.core.history.length, htold.last_tells.1, Nat.le_refl _, hresult ▸ hrun⟩
  | gone hsub hsent htold => exact .gone hsub hsent htold
  | reset hsub hsent htold => exact .reset hsub hsent htold

/-- The batch of the head job is sent: the result the worker held is told. -/
theorem Account.emit (h : Account env s read id) (hub : Hub env s) {m txid : Nat} {job : LiveJob}
    {jobs : List LiveJob} {body : String} {prev next : RowIter}
    (hbusy : s.worker = .busy m (job :: jobs) (some (.ok body)))
    (hprev : prev.toFinmap = job.last) (hnext : next.toFinmap = keyedMap env.serde body job.pk) :
    Account env { emitDeltas s job txid (diff prev next) next.toFinmap with
      worker := .busy m jobs none } read id := by
  cases hsub : s.subs job.id with
  | none =>
    rw [emitDeltas_of_none hsub]
    exact h.of_same (.refl _) rfl rfl rfl fun _ _ hb => absurd hb (not_holding_of_waiting rfl)
  | some sub =>
    rw [emitDeltas_of_sub hsub (hub.ids job.id sub hsub).2]
    by_cases hid : id = job.id
    · subst hid
      have hjob : sub.job job.id = job :=
        hub.job job (by rw [hbusy]; exact List.mem_cons_self) sub hsub
      cases h with
      | @registered sub' first events n body₀ hsub' hfor hsent htold hlast hold =>
        obtain rfl : sub = sub' := Option.some.inj (hsub.symm.trans hsub')
        obtain ⟨n', hle, hat⟩ := hold body ⟨m, job, jobs, hbusy, rfl⟩
        have hpk : job.pk = keyColumn env.pk read.query.tables := by
          rw [← hfor.pk, ← hjob]
          rfl
        have hstored : job.last = sub.last := by
          rw [← hjob]
          rfl
        rw [hpk] at hnext
        rw [hstored, hlast, hfor.pk] at hprev
        have hnew : Tells env s read job.id first
            (events ++ Live.batch (diff prev next) txid) n' body :=
          .batch htold hle hat hprev hnext
        refine .registered (Function.update_self ..) ⟨hfor.pk, hfor.result⟩ ?_ hnew ?_
          fun _ hb => absurd hb (not_holding_of_waiting rfl)
        · simp only [Function.update_self, hsent]
          rfl
        · rw [hnext, ← hfor.pk]
      | gone hsub' hsent htold => exact absurd (hsub.symm.trans hsub') nofun
      | reset hsub' hsent htold => exact absurd (hsub.symm.trans hsub') nofun
    · exact h.of_same (.refl _) (Function.update_of_ne hid _ _) (Function.update_of_ne hid _ _) rfl
        fun _ _ hb => absurd hb (not_holding_of_waiting rfl)

/-- The subscription of the head job is removed with a reset. -/
theorem Account.discard (h : Account env s read id) (hub : Hub env s) {m : Nat} {job : LiveJob}
    {jobs : List LiveJob} : Account env { discardSub s job with worker := .busy m jobs none }
      read id := by
  cases hsub : s.subs job.id with
  | none =>
    rw [discardSub_of_none hsub]
    exact h.of_same (.refl _) rfl rfl rfl fun _ _ hb => absurd hb (not_holding_of_waiting rfl)
  | some sub =>
    rw [discardSub_of_sub hsub (hub.ids job.id sub hsub).2]
    by_cases hid : id = job.id
    · subst hid
      exact h.close hsub rfl (Function.update_self ..) (Function.update_self ..) rfl
    · exact h.of_same (.refl _) (Function.update_of_ne hid _ _) (Function.update_of_ne hid _ _) rfl
        fun _ _ hb => absurd hb (not_holding_of_waiting rfl)

/-- Everybody is removed with a reset. -/
theorem Account.resetAll (h : Account env s read id) (hub : Hub env s) (hidle : s.worker = .idle) :
    Account env { Live.resetAll s with lagged := false } read id := by
  have hnone : ∀ body, ¬ Holding { Live.resetAll s with lagged := false } id body := by
    rintro body ⟨m, job, jobs, hb, -⟩
    have hb : s.worker = _ := hb
    exact absurd (hidle.symm.trans hb) nofun
  cases hsub : s.subs id with
  | none =>
    have hsent : (Live.resetAll s).sent id = s.sent id := by simp [Live.resetAll, hsub]
    exact h.of_same (.refl _) hsub.symm hsent rfl fun body _ hb => absurd hb (hnone body)
  | some sub =>
    have hsent : (Live.resetAll s).sent id = s.sent id ++ [.reset] := by
      simp [Live.resetAll, hsub, (hub.ids id sub hsub).2]
    exact h.close hsub rfl rfl hsent rfl

/-- And the others are as they were. -/
theorem Account.hubSubscribe (h : Account env s read id) (hid : id < s.nextId)
    (query : CacheableQuery) (hash : String) (version : Nat) (body : String)
    (principal : Option Principal) (headers : Option String) :
    Account env (hubSubscribe env s query hash version body principal headers) read id := by
  have hne := Nat.ne_of_lt hid
  exact h.of_same (.refl _) (Function.update_of_ne hne _ _) (Function.update_of_ne hne _ _)
    (Function.update_of_ne hne _ _) fun _ _ hb => hb

/-- Leaving the hub: a receiver that is gone, or a dropped subscription. -/
theorem Account.of_subs (h : Account env s read id) (hcore : s'.core = s.core)
    (hsubs : s'.subs id = s.subs id ∨ s'.subs id = none) (hsent : s'.sent = s.sent)
    (hbodies : s'.bodies = s.bodies) (hholding : ∀ body, Holding s' id body → Holding s id body) :
    Account env s' read id := by
  rcases hsubs with hsame | hnone
  · exact h.of_same (hcore ▸ .refl _) hsame (by rw [hsent]) (by rw [hbodies])
      fun body _ hb => hholding body hb
  · exact h.leave hcore hnone (by rw [hsent]) (by rw [hbodies])

/-- **A step keeps the accounts.** -/
theorem Account.taken {a : Action γ} (h : Account env s read id) (hid : id < s.nextId)
    (hub : Hub env s) (ht : Taken env s a s') : Account env s' read id := by
  have hx := ht.extends
  cases ht with
  | core _ _ | advance _ _ | broadcast _ _ | overflow _ _ | subscribePublic _ _ _
  | subscribeScoped _ _ | fetch _ _ | fetchError _ | registerError _ =>
    exact h.of_eq hx rfl rfl rfl rfl
  | receive hidle hqueue hlabel hlagged horder =>
    refine h.of_same hx rfl rfl rfl fun body _ hb => ?_
    obtain ⟨m, job, jobs, hb, -⟩ := hb
    simp only [Worker.busy.injEq, reduceCtorEq, and_false] at hb
  | resetAll hidle hlagged => exact h.resetAll hub hidle
  | requery hbusy => exact h.requery hub hbusy
  | emit hbusy hlabel hprev hnext => exact h.emit hub hbusy hprev hnext
  | discard hbusy => exact h.discard hub
  | finish hbusy =>
    refine h.of_subs rfl ?_ rfl rfl ?_
    · simp only [retain]
      split
      · exact Or.inl rfl
      · exact Or.inr rfl
    · rintro body ⟨m, job, jobs, hb, -⟩
      exact absurd hb (by simp)
  | registerPublic _ _ => exact (h.hubSubscribe hid _ _ _ _ _ _).of_eq (.refl _) rfl rfl rfl rfl
  | registerScoped _ => exact (h.hubSubscribe hid _ _ _ _ _ _).of_eq (.refl _) rfl rfl rfl rfl
  | @drop gone _ =>
    refine h.of_subs rfl ?_ rfl rfl fun _ hb => hb
    by_cases hgone : id = gone
    · exact Or.inr (hgone ▸ Function.update_self ..)
    · exact Or.inl (Function.update_of_ne hgone _ _)
  | release _ _ => exact h.of_eq hx rfl rfl rfl rfl

end Account

/-! ## 3. Every run -/

section Runs

variable {pk : List (String × String)} {full : List String} {issued : PreparedRead → Prop}

/-- What is asked in a run, of the hub and of the read core, comes from the given reads. -/
def AsksOnly (issued : PreparedRead → Prop) (s : State γ) : Action γ → Prop
  | .core (.materialize _ q) => ∃ read, issued read ∧ read.query = q
  | a => Asks issued s a

theorem AsksOnly.asks {a : Action γ} (h : AsksOnly issued s a) : Asks issued s a := by
  cases a with
  | core a => trivial
  | _ => exact h

/-- The queries of some reads. -/
def QueryOf (issued : PreparedRead → Prop) (q : CacheableQuery) : Prop :=
  ∃ read, issued read ∧ read.query = q

/-- A call keeps its query. -/
theorem query_of_taken {engine : Engine γ} {c c' : Read.State γ} {a : Read.Action γ}
    (ht : Read.Taken engine c a c') {id : Nat} {q : CacheableQuery} {stage : Read.Stage}
    (hcall : c.calls id = some ⟨q, stage⟩) : ∃ stage', c'.calls id = some ⟨q, stage'⟩ := by
  have hset : ∀ {id' : Nat} {q' : CacheableQuery} {stage' : Read.Stage},
      (id = id' → q' = q) →
        ∃ stage'', (c.setCall id' ⟨q', stage'⟩).calls id = some ⟨q, stage''⟩ := by
    intro id' q' stage' hsame
    rw [Read.State.setCall_calls]
    by_cases hid : id = id'
    · exact ⟨stage', by rw [if_pos hid, hsame hid]⟩
    · exact ⟨stage, by rw [if_neg hid, hcall]⟩
  have hquery : ∀ {id' : Nat} {q' : CacheableQuery} {stage' : Read.Stage},
      c.calls id' = some ⟨q', stage'⟩ → id = id' → q' = q := by
    rintro id' q' stage' hcall' rfl
    rw [hcall] at hcall'
    cases hcall'
    rfl
  cases ht with
  | @materialize id' q' hfree =>
    refine hset fun hid => ?_
    rw [← hid, hcall] at hfree
    cases hfree
  | hit hcall' _ | miss hcall' _ | execute hcall' _ | fail hcall' _ | insert hcall' | reply hcall'
  | replyError hcall' => exact hset (hquery hcall')
  | cursor | evict | apply _ _ | advance _ _ _ => exact ⟨stage, hcall⟩

/-- What is known of the bodies `subscribe` calls have obtained. -/
structure Obtained (env : Env γ) (issued : PreparedRead → Prop) (s : State γ) : Prop where
  asked : Read.Asked (QueryOf issued) s.core
  materializing : ∀ id read, s.requests id = some (read, .materializing) →
    ∃ stage, s.core.calls id = some ⟨read.query, stage⟩
  fetched : ∀ id read version body, s.requests id = some (read, .fetched version body) →
    ∃ n, ResultAt s (read.result env.engine) n body

namespace Obtained

/-- The core moves, and the requests stay. -/
theorem core (h : Obtained env issued s) {a : Read.Action γ}
    (hcore : Read.step env.engine s.core a = some s'.core)
    (hissues : Read.Issues (QueryOf issued) s.core a) (hrequests : s'.requests = s.requests) :
    Obtained env issued s' where
  asked := h.asked.taken hissues (Read.taken_of_step hcore)
  materializing id read hr := by
    obtain ⟨stage, hcall⟩ := h.materializing id read (hrequests ▸ hr)
    exact query_of_taken (Read.taken_of_step hcore) hcall
  fetched id read version body hr := by
    obtain ⟨n, hat⟩ := h.fetched id read version body (hrequests ▸ hr)
    exact ⟨n, hat.extends (Read.taken_of_step hcore).extends⟩

theorem of_eq (h : Obtained env issued s) (hcore : s'.core = s.core)
    (hrequests : s'.requests = s.requests) : Obtained env issued s' where
  asked := hcore ▸ h.asked
  materializing := by rw [hcore, hrequests]; exact h.materializing
  fetched := by
    simp only [ResultAt, hcore, hrequests]
    exact h.fetched

/-- A request moves on without the core. -/
theorem setRequest (h : Obtained env issued s) (hcore : s'.core = s.core) (id : Nat)
    {read : PreparedRead} {request : Request}
    (hrequests : s'.requests = Function.update s.requests id (some (read, request)))
    (hmaterializing : request ≠ .materializing)
    (hfetched : ∀ version body, request = .fetched version body →
      ∃ n, ResultAt s (read.result env.engine) n body) : Obtained env issued s' where
  asked := hcore ▸ h.asked
  materializing id' read' hr := by
    rw [hrequests, Function.update_apply] at hr
    split at hr
    · exact absurd (Prod.mk.inj (Option.some.inj hr)).2 hmaterializing
    · exact hcore ▸ h.materializing id' read' hr
  fetched id' read' version body hr := by
    rw [hrequests, Function.update_apply] at hr
    simp only [ResultAt, hcore]
    split at hr
    · obtain ⟨rfl, rfl⟩ := Prod.mk.inj (Option.some.inj hr)
      exact hfetched version body rfl
    · exact h.fetched id' read' version body hr

theorem taken {a : Action γ} (h : Obtained env issued s) (hok : AsksOnly issued s a)
    (ht : Taken env s a s') : Obtained env issued s' := by
  cases ht with
  | @core a core hcore hne =>
    refine h.core hcore ?_ rfl
    cases a with
    | materialize id q => exact hok
    | _ => trivial
  | advance hsending hcore => exact h.core hcore trivial rfl
  | @subscribePublic id read core hfree hscope hcore =>
    have hstart : core.calls id = some ⟨read.query, .keyed (s.core.version read.query)⟩ := by
      cases Read.taken_of_step hcore with
      | materialize _ => simp [Read.State.setCall_calls]
    have hnew : Obtained env issued { s with core } := h.core hcore ⟨read, hok, rfl⟩ rfl
    refine ⟨hnew.asked, fun id' read' hr => ?_, fun id' read' version body hr => ?_⟩
    · simp only [State.setRequest, Function.update_apply] at hr
      split at hr
      · rename_i hid
        obtain ⟨rfl, -⟩ := Prod.mk.inj (Option.some.inj hr)
        exact ⟨_, hid ▸ hstart⟩
      · exact hnew.materializing id' read' hr
    · simp only [State.setRequest, Function.update_apply] at hr
      split at hr
      · cases hr
      · exact hnew.fetched id' read' version body hr
  | @fetch id version read body hrequest hrun =>
    refine h.setRequest rfl id rfl nofun ?_
    rintro version' body' ⟨⟩
    refine ⟨s.core.history.length, Nat.le_refl _, ?_⟩
    exact hrun
  | subscribeScoped _ _ | fetchError _ | registerError _ =>
    exact h.setRequest rfl _ rfl nofun nofun
  | registerPublic _ _ | registerScoped _ => exact h.setRequest rfl _ rfl nofun nofun
  | emit _ _ _ _ => exact h.of_eq (emitDeltas_core _ _ _ _) (emitDeltas_requests _ _ _ _)
  | discard _ => exact h.of_eq (discardSub_core _) (discardSub_requests _)
  | broadcast _ _ | overflow _ _ | receive _ _ _ _ _ | resetAll _ _ | requery _ | finish _
  | drop _ | release _ _ => exact h.of_eq rfl rfl

theorem of_reachable {ok : State γ → Action γ → Prop} (hok : ∀ s a, ok s a → AsksOnly issued s a)
    (h : (system env pk full).Reachable ok s) : Obtained env issued s := by
  refine Reachable.induction (P := Obtained env issued) (fun s h0 => ⟨⟨?_, ?_⟩, ?_, ?_⟩)
    (fun s a _ _ ih ha hs => ih.taken (hok s a ha) (taken_of_step hs)) h
  · have h0 : Fresh pk full s := h0
    simp [h0.core.calls]
  · have h0 : Fresh pk full s := h0
    simp [h0.core.executions]
  · have h0 : Fresh pk full s := h0
    simp [h0.requests]
  · have h0 : Fresh pk full s := h0
    simp [h0.requests]

end Obtained

end Runs

end PgPaw.Live
