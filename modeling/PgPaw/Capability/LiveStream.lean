/-
# What a subscriber has been sent

Three invariants of the hub, over every run.

* `Hub`: a subscription in the map has its receiver, the jobs of a running `on_commit` are
  snapshots of subscriptions that are still as they were, and the snapshot map of a
  subscription with the deltas sent to it replayed over it is the map it stores.
* `Flow`: a transaction in the bridge, in the channel or in the hub has been applied and
  advanced.
* `Fetched`: a body the worker holds is the result on a state that has every transaction
  `on_commit` was called for.

Together they say what an up-to-date event confirms (`up_to_date_visible`).
-/
import PgPaw.Capability.Live
import PgPaw.Capability.SnapshotAge

namespace PgPaw.Live

open Transition MapDiff

variable {γ : Type} {env : Env γ} {s s' : State γ}

/-! ## 1. The core under the hub -/

theorem State.send_eq (s : State γ) (id : Nat) (events : List Event) :
    ∃ sent, s.send id events = { s with sent } := by
  unfold State.send
  split
  · exact ⟨_, rfl⟩
  · exact ⟨s.sent, rfl⟩

/-- Under its second lock `on_commit` changes the map and the streams, and nothing else. -/
theorem emitDeltas_eq (s : State γ) (job : LiveJob) (txid : Nat) (deltas : List Delta)
    (next : RowMap) : ∃ subs sent, emitDeltas s job txid deltas next = { s with subs, sent } := by
  unfold emitDeltas
  split
  · exact ⟨s.subs, s.sent, rfl⟩
  · rename_i sub _
    split
    · obtain ⟨sent, hsend⟩ := (s.setSub job.id (some { sub with last := next })).send_eq job.id
        (deltas.map (fun d => .delta d txid) ++ [.upToDate txid])
      exact ⟨_, sent, hsend⟩
    · exact ⟨s.subs, s.sent, rfl⟩

theorem discardSub_eq (s : State γ) (job : LiveJob) :
    ∃ subs sent, discardSub s job = { s with subs, sent } := by
  unfold discardSub
  split
  · exact ⟨s.subs, s.sent, rfl⟩
  · obtain ⟨sent, hsend⟩ := (s.setSub job.id none).send_eq job.id [.reset]
    exact ⟨_, sent, hsend⟩

@[simp] theorem emitDeltas_core (job : LiveJob) (txid : Nat) (deltas : List Delta) (next : RowMap) :
    (emitDeltas s job txid deltas next).core = s.core := by
  obtain ⟨subs, sent, h⟩ := emitDeltas_eq s job txid deltas next
  rw [h]

@[simp] theorem discardSub_core (job : LiveJob) : (discardSub s job).core = s.core := by
  obtain ⟨subs, sent, h⟩ := discardSub_eq s job
  rw [h]

@[simp] theorem emitDeltas_requests (job : LiveJob) (txid : Nat) (deltas : List Delta)
    (next : RowMap) : (emitDeltas s job txid deltas next).requests = s.requests := by
  obtain ⟨subs, sent, h⟩ := emitDeltas_eq s job txid deltas next
  rw [h]

@[simp] theorem discardSub_requests (job : LiveJob) :
    (discardSub s job).requests = s.requests := by
  obtain ⟨subs, sent, h⟩ := discardSub_eq s job
  rw [h]

/-- A step of the hub is a step of the core, or leaves it as it is. -/
theorem Taken.core_step {a : Action γ} (h : Taken env s a s') :
    s'.core = s.core ∨ ∃ b, Read.step env.engine s.core b = some s'.core := by
  cases h with
  | core hcore hne => exact Or.inr ⟨_, hcore⟩
  | advance hsending hcore => exact Or.inr ⟨_, hcore⟩
  | subscribePublic hfree hscope hcore => exact Or.inr ⟨_, hcore⟩
  | emit _ _ _ _ => exact Or.inl (emitDeltas_core _ _ _ _)
  | discard _ => exact Or.inl (discardSub_core _)
  | broadcast _ _ | overflow _ _ | receive _ _ _ _ _ | resetAll _ _ | requery _ | finish _
  | subscribeScoped _ _ | fetch _ _ | fetchError _ | registerPublic _ _ | registerScoped _
  | registerError _ | drop _ | release _ _ => exact Or.inl rfl

theorem Taken.extends {a : Action γ} (h : Taken env s a s') : Read.Extends s.core s'.core := by
  rcases h.core_step with hsame | ⟨b, hb⟩
  · exact hsame ▸ .refl _
  · exact (Read.taken_of_step hb).extends

section Runs

variable {pk : List (String × String)} {full : List String}

/-- The core of a reachable state is one the read core reaches by itself. -/
theorem core_reachable {ok : State γ → Action γ → Prop} (h : (system env pk full).Reachable ok s) :
    (Read.system env.engine pk full).Reachable free s.core := by
  refine Reachable.induction (P := fun s => (Read.system env.engine pk full).Reachable free s.core)
    (fun s h0 => ?_) (fun s a s' _ ih _ hs => ?_) h
  · have hcore : (Read.system env.engine pk full).init s.core := Fresh.core h0
    exact Reachable.start hcore
  · rcases (taken_of_step hs).core_step with hsame | ⟨b, hb⟩
    · exact hsame ▸ ih
    · exact Reachable.next ih trivial hb

end Runs

/-! ## 2. Subscriptions, jobs and streams -/

/-- The jobs the worker has left. -/
def Worker.jobs : Worker → List LiveJob
  | .idle => []
  | .busy _ jobs _ => jobs

/-- The deltas among the events of a stream, in order. -/
def deltasOf (events : List Event) : List Delta :=
  events.filterMap fun
    | .delta d _ => some d
    | _ => none

theorem deltasOf_append (es fs : List Event) :
    deltasOf (es ++ fs) = deltasOf es ++ deltasOf fs := List.filterMap_append

theorem deltasOf_batch (txid : Nat) (deltas : List Delta) :
    deltasOf (deltas.map (fun d => .delta d txid) ++ [.upToDate txid]) = deltas := by
  have hmap : ∀ ds : List Delta, deltasOf (ds.map fun d => .delta d txid) = ds := by
    intro ds
    induction ds with
    | nil => rfl
    | cons d ds ih => exact congrArg (d :: ·) ih
  rw [deltasOf_append, hmap]
  simp [deltasOf]

/-- The map a subscriber has: its snapshot, with the deltas sent so far applied in order. -/
def replayed (env : Env γ) (s : State γ) (id : Nat) (sub : Subscription) : RowMap :=
  replay (keyedMap env.serde (s.bodies id) sub.pk) (deltasOf (s.sent id))

/-- **The invariant of the hub.** -/
structure Hub (env : Env γ) (s : State γ) : Prop where
  ids : ∀ id sub, s.subs id = some sub → id < s.nextId ∧ s.receivers id = true
  nodup : (s.worker.jobs.map LiveJob.id).Nodup
  known : ∀ job ∈ s.worker.jobs, job.id < s.nextId
  job : ∀ job ∈ s.worker.jobs, ∀ sub, s.subs job.id = some sub → sub.job job.id = job
  stream : ∀ id sub, s.subs id = some sub → replayed env s id sub = sub.last

/-- With the receiver there, everything sent arrives. -/
theorem send_of_receiver {id : Nat} {events : List Event} (h : s.receivers id = true) :
    s.send id events = { s with sent := Function.update s.sent id (s.sent id ++ events) } :=
  if_pos h

/-- The second lock of `on_commit`, on a subscription that is still there. -/
theorem emitDeltas_of_sub {job : LiveJob} {txid : Nat} {deltas : List Delta} {next : RowMap}
    {sub : Subscription} (hsub : s.subs job.id = some sub) (hopen : s.receivers job.id = true) :
    emitDeltas s job txid deltas next = { s with
      subs := Function.update s.subs job.id (some { sub with last := next })
      sent := Function.update s.sent job.id
        (s.sent job.id ++ (deltas.map (fun d => .delta d txid) ++ [.upToDate txid])) } := by
  simp only [emitDeltas, hsub, hopen, Bool.true_or, if_true]
  exact send_of_receiver hopen

/-- A subscription that is gone is not sent anything. -/
theorem emitDeltas_of_none {job : LiveJob} {txid : Nat} {deltas : List Delta} {next : RowMap}
    (hsub : s.subs job.id = none) : emitDeltas s job txid deltas next = s := by
  simp only [emitDeltas, hsub]

/-- The lock taken when the query fails, on a subscription that is still there. -/
theorem discardSub_of_sub {job : LiveJob} {sub : Subscription} (hsub : s.subs job.id = some sub)
    (hopen : s.receivers job.id = true) :
    discardSub s job = { s with
      subs := Function.update s.subs job.id none
      sent := Function.update s.sent job.id (s.sent job.id ++ [.reset]) } := by
  have hopen' : (s.setSub job.id none).receivers job.id = true := hopen
  simp only [discardSub, hsub]
  exact send_of_receiver hopen'

theorem discardSub_of_none {job : LiveJob} (hsub : s.subs job.id = none) :
    discardSub s job = s := by
  simp only [discardSub, hsub]

namespace Hub

/-- Steps after which the subscriptions left are as they were, with fewer jobs. -/
theorem shrink (h : Hub env s) (hjobs : s'.worker.jobs.Sublist s.worker.jobs)
    (hnext : s'.nextId = s.nextId) (hsubs : ∀ id sub, s'.subs id = some sub → s.subs id = some sub)
    (hopen : ∀ id sub, s'.subs id = some sub → s'.receivers id = s.receivers id)
    (hsent : ∀ id sub, s'.subs id = some sub → s'.sent id = s.sent id)
    (hbodies : s'.bodies = s.bodies) : Hub env s' where
  ids id sub hs := by
    have := h.ids id sub (hsubs id sub hs)
    rw [hnext, hopen id sub hs]
    exact this
  nodup := h.nodup.sublist (hjobs.map _)
  known job hj := by
    rw [hnext]
    exact h.known job (hjobs.subset hj)
  job job hj sub hs := h.job job (hjobs.subset hj) sub (hsubs _ _ hs)
  stream id sub hs := by
    rw [replayed, hbodies, hsent id sub hs]
    exact h.stream id sub (hsubs id sub hs)

/-- Steps that leave the hub alone. -/
theorem of_eq (h : Hub env s) (hworker : s'.worker = s.worker) (hnext : s'.nextId = s.nextId)
    (hsubs : s'.subs = s.subs) (hopen : s'.receivers = s.receivers) (hsent : s'.sent = s.sent)
    (hbodies : s'.bodies = s.bodies) : Hub env s' :=
  h.shrink (by rw [hworker]) hnext (fun _ _ hs => hsubs ▸ hs) (fun _ _ _ => by rw [hopen])
    (fun _ _ _ => by rw [hsent]) hbodies

/-- A subscription with one of the selected ids. -/
theorem mem_selectJobs {order : List Nat} {job : LiveJob} :
    job ∈ selectJobs s order ↔ ∃ id ∈ order, ∃ sub, s.subs id = some sub ∧ sub.job id = job := by
  simp only [selectJobs, List.mem_filterMap, Option.map_eq_some_iff]

theorem ids_selectJobs_sublist (order : List Nat) :
    ((selectJobs s order).map LiveJob.id).Sublist order := by
  induction order with
  | nil => exact List.Sublist.slnil
  | cons id order ih =>
    unfold selectJobs at ih ⊢
    rw [List.filterMap_cons]
    cases s.subs id with
    | none => exact ih.cons id
    | some sub => exact ih.cons_cons id

/-- `on_commit` starts: its jobs are the subscriptions as they are. -/
theorem receive (h : Hub env s) {m : Nat} {queue order delivered : List Nat}
    {changed : List String} (horder : order.Perm (s.matching changed)) :
    Hub env { s with queue, worker := .busy m (selectJobs s order) none, delivered } where
  ids := h.ids
  stream := h.stream
  nodup := by
    have hnodup : (s.matching changed).Nodup := List.nodup_range.filter _
    exact (horder.nodup_iff.mpr hnodup).sublist (ids_selectJobs_sublist order)
  known job hj := by
    obtain ⟨id, -, sub, hs, rfl⟩ := mem_selectJobs.mp hj
    exact (h.ids id sub hs).1
  job job hj sub hs := by
    obtain ⟨id, -, sub', hs', rfl⟩ := mem_selectJobs.mp hj
    obtain rfl : sub' = sub := Option.some.inj (hs'.symm.trans hs)
    rfl

/-- The head job's result is sent and stored. -/
theorem emit (h : Hub env s) {m txid : Nat} {job : LiveJob} {jobs : List LiveJob}
    {fresh : Option (Except CacheError String)} {prev next : RowIter}
    (hbusy : s.worker = .busy m (job :: jobs) fresh) (hprev : prev.toFinmap = job.last) :
    Hub env { emitDeltas s job txid (diff prev next) next.toFinmap with
      worker := .busy m jobs none } := by
  have hjobs : s.worker.jobs = job :: jobs := by rw [hbusy]; rfl
  have hnodup := h.nodup
  rw [hjobs, List.map_cons, List.nodup_cons] at hnodup
  have hjob := h.job job (by rw [hjobs]; exact List.mem_cons_self)
  have hsublist : jobs.Sublist s.worker.jobs := hjobs ▸ List.sublist_cons_self job jobs
  cases hsub : s.subs job.id with
  | none =>
    rw [emitDeltas_of_none hsub]
    exact h.shrink hsublist rfl (fun _ _ hs => hs) (fun _ _ _ => rfl) (fun _ _ _ => rfl) rfl
  | some sub =>
    have hopen := (h.ids job.id sub hsub).2
    rw [emitDeltas_of_sub hsub hopen]
    have hlast : sub.last = job.last := by rw [← hjob sub hsub]; rfl
    refine ⟨fun id sub' hs => ?_, hnodup.2, fun j hj => ?_, fun j hj sub' hs => ?_,
      fun id sub' hs => ?_⟩
    · simp only [Function.update_apply] at hs
      split at hs
      · rename_i hid
        exact hid ▸ h.ids job.id sub hsub
      · exact h.ids id sub' hs
    · exact h.known j (hsublist.subset hj)
    · have hne : j.id ≠ job.id := fun he => hnodup.1 (he ▸ List.mem_map_of_mem hj)
      simp only [Function.update_of_ne hne] at hs
      exact h.job j (hsublist.subset hj) sub' hs
    · simp only [Function.update_apply] at hs
      by_cases hid : id = job.id
      · -- the stream of this subscription: the deltas lead from its map to the next one
        subst hid
        obtain rfl := Option.some.inj ((if_pos rfl).symm.trans hs)
        have hbefore : replayed env s job.id sub = sub.last := h.stream job.id sub hsub
        rw [replayed] at hbefore ⊢
        simp only [Function.update_self]
        rw [deltasOf_append, deltasOf_batch, replay_append, hbefore, hlast, ← hprev, replay_diff]
      · rw [if_neg hid] at hs
        rw [replayed]
        simp only [Function.update_of_ne hid]
        exact h.stream id sub' hs

/-- A subscription is registered under a fresh id. -/
theorem register (h : Hub env s) (query : CacheableQuery) (hash : String) (version : Nat)
    (body : String) (principal : Option Principal) (headers : Option String) :
    Hub env (hubSubscribe env s query hash version body principal headers) where
  nodup := h.nodup
  ids id sub hs := by
    simp only [hubSubscribe, Function.update_apply] at hs ⊢
    split at hs
    · rename_i hid
      exact ⟨hid ▸ Nat.lt_succ_self _, by simp [hid]⟩
    · rename_i hid
      have := h.ids id sub hs
      exact ⟨Nat.lt_succ_of_lt this.1, by simp [hid, this.2]⟩
  known job hj := Nat.lt_succ_of_lt (h.known job hj)
  job job hj sub hs := by
    have hne : job.id ≠ s.nextId := Nat.ne_of_lt (h.known job hj)
    simp only [hubSubscribe, Function.update_of_ne hne] at hs
    exact h.job job hj sub hs
  stream id sub hs := by
    simp only [hubSubscribe, Function.update_apply] at hs
    rw [replayed]
    by_cases hid : id = s.nextId
    · subst hid
      rw [if_pos rfl] at hs
      obtain rfl := Option.some.inj hs
      simp only [hubSubscribe, Function.update_self]
      -- the first event carries no delta
      cases ownerScope principal headers <;> rfl
    · rw [if_neg hid] at hs
      simp only [hubSubscribe, Function.update_of_ne hid]
      exact h.stream id sub hs

theorem taken {a : Action γ} (h : Hub env s) (ht : Taken env s a s') : Hub env s' := by
  cases ht with
  | core _ _ | advance _ _ | broadcast _ _ | overflow _ _ | subscribePublic _ _ _
  | subscribeScoped _ _ | fetch _ _ | fetchError _ | registerError _ =>
    exact h.of_eq rfl rfl rfl rfl rfl rfl
  | receive hidle hqueue hlabel hlagged horder => exact h.receive horder
  | resetAll hidle hlagged =>
    exact h.shrink (List.Sublist.refl _) rfl nofun nofun nofun rfl
  | @requery m job jobs hbusy =>
    have hjobs : s.worker.jobs = job :: jobs := by rw [hbusy]; rfl
    exact h.shrink (hjobs ▸ List.Sublist.refl _) rfl (fun _ _ hs => hs) (fun _ _ _ => rfl)
      (fun _ _ _ => rfl) rfl
  | emit hbusy hlabel hprev hnext => exact h.emit hbusy hprev
  | @discard m job jobs e hbusy =>
    have hjobs : s.worker.jobs = job :: jobs := by rw [hbusy]; rfl
    have hsublist : jobs.Sublist s.worker.jobs := hjobs ▸ List.sublist_cons_self job jobs
    cases hsub : s.subs job.id with
    | none =>
      rw [discardSub_of_none hsub]
      exact h.shrink hsublist rfl (fun _ _ hs => hs) (fun _ _ _ => rfl) (fun _ _ _ => rfl) rfl
    | some sub =>
      rw [discardSub_of_sub hsub (h.ids job.id sub hsub).2]
      have hne : ∀ id sub', Function.update s.subs job.id none id = some sub' → id ≠ job.id := by
        rintro id sub' hs rfl
        simp at hs
      refine h.shrink hsublist rfl (fun id sub' hs => ?_) (fun _ _ _ => rfl)
        (fun id sub' hs => Function.update_of_ne (hne id sub' hs) _ _) rfl
      simpa only [Function.update_of_ne (hne id sub' hs)] using hs
  | finish hbusy =>
    refine h.shrink (List.nil_sublist _) rfl (fun id sub hs => ?_) (fun _ _ _ => rfl)
      (fun _ _ _ => rfl) rfl
    simp only [retain] at hs
    split at hs
    · exact hs
    · exact absurd hs nofun
  | @registerPublic id version read q snapshot hrequest hcall =>
    exact (h.register read.query _ version snapshot.body none none).of_eq rfl rfl rfl rfl rfl rfl
  | @registerScoped id version read body hrequest =>
    exact (h.register read.query _ version body read.principal read.headers).of_eq rfl rfl rfl
      rfl rfl rfl
  | @drop id hid =>
    refine h.shrink (List.Sublist.refl _) rfl (fun id' sub hs => ?_) (fun _ _ _ => rfl)
      (fun _ _ _ => rfl) rfl
    simp only [State.setSub, Function.update_apply] at hs
    split at hs
    · exact absurd hs nofun
    · exact hs
  | @release id hid hgone =>
    refine h.shrink (List.Sublist.refl _) rfl (fun _ _ hs => hs) (fun id' sub hs => ?_)
      (fun _ _ _ => rfl) rfl
    have hne : id' ≠ id := by
      rintro rfl
      simp [hgone] at hs
    exact Function.update_of_ne hne _ _

theorem of_reachable {pk : List (String × String)} {full : List String}
    {ok : State γ → Action γ → Prop} (h : (system env pk full).Reachable ok s) : Hub env s := by
  refine Reachable.induction (P := Hub env) (fun s h0 => ?_)
    (fun _ _ _ _ ih _ hs => ih.taken (taken_of_step hs)) h
  have h0 : Fresh pk full s := h0
  refine ⟨?_, ?_, ?_, ?_, ?_⟩ <;> simp [h0.subs, h0.worker, Worker.jobs]

end Hub

/-! ## 3. Transactions on their way -/

/-- What is in the bridge, the channel or the hub is applied and advanced, and the worker's
jobs and body belong to the commit it is at. -/
structure Flow (env : Env γ) (s : State γ) : Prop where
  advanced : ∀ m, m ∈ s.delivered ∨ m ∈ s.queue ∨ s.sending = some m →
    m < s.core.history.length ∧ m ∉ s.core.pending
  delivered : ∀ m jobs fresh, s.worker = .busy m jobs fresh → m ∈ s.delivered
  matched : ∀ m jobs fresh, s.worker = .busy m jobs fresh → ∃ txn,
    s.core.history.label m = some txn ∧ ∀ job ∈ jobs, ∀ sub, s.subs job.id = some sub →
      sub.matched txn.touched = true
  fetched : ∀ m job jobs body, s.worker = .busy m (job :: jobs) (some (.ok body)) →
    ∃ n ≤ s.core.history.length, job.result env.engine (s.core.history.snapshot n) = .ok body ∧
      ∀ d ∈ s.delivered, d < n

namespace Flow

/-- Steps that deliver nothing and fetch nothing. -/
theorem mono (h : Flow env s) (hx : Read.Extends s.core s'.core)
    (hdelivered : s'.delivered = s.delivered)
    (hadvanced : ∀ m, m ∈ s'.queue ∨ s'.sending = some m →
      (m ∈ s.queue ∨ s.sending = some m) ∨ m < s'.core.history.length ∧ m ∉ s'.core.pending)
    (hworker : ∀ m jobs fresh, s'.worker = .busy m jobs fresh → ∃ jobs₀ fresh₀,
      s.worker = .busy m jobs₀ fresh₀ ∧ (∀ job ∈ jobs, job ∈ jobs₀) ∧
        (fresh = none ∨ jobs = jobs₀ ∧ fresh = fresh₀))
    (hsubs : ∀ job ∈ s'.worker.jobs, ∀ sub', s'.subs job.id = some sub' →
      ∃ sub, s.subs job.id = some sub ∧ sub.tables = sub'.tables) : Flow env s' where
  advanced m hm := by
    have hold : (m ∈ s.delivered ∨ m ∈ s.queue ∨ s.sending = some m) →
        m < s'.core.history.length ∧ m ∉ s'.core.pending := fun hold =>
      have ha := h.advanced m hold
      ⟨Nat.lt_of_lt_of_le ha.1 hx.length, hx.pending m ha.1 ha.2⟩
    rcases hm with hm | hm
    · exact hold (Or.inl (hdelivered ▸ hm))
    · exact (hadvanced m hm).elim (fun hm => hold (Or.inr hm)) id
  delivered m jobs fresh hb := by
    obtain ⟨jobs₀, fresh₀, hb₀, -⟩ := hworker m jobs fresh hb
    exact hdelivered ▸ h.delivered m jobs₀ fresh₀ hb₀
  matched m jobs fresh hb := by
    obtain ⟨jobs₀, fresh₀, hb₀, hsubset, -⟩ := hworker m jobs fresh hb
    obtain ⟨txn, hl, hm⟩ := h.matched m jobs₀ fresh₀ hb₀
    refine ⟨txn, ?_, fun job hj sub' hs => ?_⟩
    · rw [hx.label m (History.lt_length_of_label hl), hl]
    · obtain ⟨sub, hs₀, htables⟩ := hsubs job (by rw [hb]; exact hj) sub' hs
      have hmatched := hm job (hsubset job hj) sub hs₀
      rwa [Subscription.matched, htables] at hmatched
  fetched m job jobs body hb := by
    obtain ⟨jobs₀, fresh₀, hb₀, -, hfresh | ⟨rfl, rfl⟩⟩ := hworker m (job :: jobs) _ hb
    · exact absurd hfresh nofun
    · obtain ⟨n, hn, hrun, hd⟩ := h.fetched m job jobs body hb₀
      exact ⟨n, hn.trans hx.length, by rw [hx.snapshot n hn, hrun], hdelivered ▸ hd⟩

/-- Steps that leave the hub alone. -/
theorem of_eq (h : Flow env s) (hx : Read.Extends s.core s'.core)
    (hdelivered : s'.delivered = s.delivered) (hworker : s'.worker = s.worker)
    (hsubs : s'.subs = s.subs) (hadvanced : ∀ m, m ∈ s'.queue ∨ s'.sending = some m →
      (m ∈ s.queue ∨ s.sending = some m) ∨ m < s'.core.history.length ∧ m ∉ s'.core.pending) :
    Flow env s' :=
  h.mono hx hdelivered hadvanced
    (fun _ jobs fresh hb => ⟨jobs, fresh, hworker ▸ hb, fun _ hj => hj, Or.inr ⟨rfl, rfl⟩⟩)
    fun _ _ sub hs => ⟨sub, hsubs ▸ hs, rfl⟩

/-- Steps of the worker that end a job. -/
theorem popJob (h : Flow env s) {m : Nat} {job : LiveJob} {jobs : List LiveJob}
    {fresh : Option (Except CacheError String)} (hbusy : s.worker = .busy m (job :: jobs) fresh)
    (hcore : s'.core = s.core) (hdelivered : s'.delivered = s.delivered)
    (hqueue : s'.queue = s.queue) (hsending : s'.sending = s.sending)
    (hworker : s'.worker = .busy m jobs none)
    (hsubs : ∀ job ∈ jobs, ∀ sub', s'.subs job.id = some sub' →
      ∃ sub, s.subs job.id = some sub ∧ sub.tables = sub'.tables) : Flow env s' := by
  refine h.mono (hcore ▸ .refl _) hdelivered
    (fun _ hm => Or.inl (by rwa [hqueue, hsending] at hm)) ?_ ?_
  · intro m' jobs' fresh' hb
    rw [hworker] at hb
    cases hb
    exact ⟨job :: jobs, fresh, hbusy, fun j hj => List.mem_cons_of_mem _ hj, Or.inl rfl⟩
  · rw [hworker]
    exact hsubs

/-- `on_commit` starts. -/
theorem receive (h : Flow env s) {m : Nat} {queue order : List Nat} {txn : CommittedTransaction}
    (hqueue : s.queue = m :: queue) (hlabel : s.core.history.label m = some txn)
    (horder : order.Perm (s.matching txn.touched)) :
    Flow env { s with
      queue
      worker := .busy m (selectJobs s order) none
      delivered := s.delivered ++ [m] } where
  advanced m' hm := by
    refine h.advanced m' ?_
    simp only [List.mem_append, List.mem_singleton] at hm
    rw [hqueue]
    rcases hm with (hm | rfl) | hm | hm
    · exact Or.inl hm
    · exact Or.inr (Or.inl List.mem_cons_self)
    · exact Or.inr (Or.inl (List.mem_cons_of_mem _ hm))
    · exact Or.inr (Or.inr hm)
  delivered m' jobs fresh hb := by
    cases hb
    exact List.mem_append_right _ (List.mem_singleton.mpr rfl)
  matched m' jobs fresh hb := by
    cases hb
    refine ⟨txn, hlabel, fun job hj sub hs => ?_⟩
    obtain ⟨id, hid, sub', hs', rfl⟩ := Hub.mem_selectJobs.mp hj
    have hmatch := (List.mem_filter.mp (horder.mem_iff.mp hid)).2
    obtain rfl : sub' = sub := Option.some.inj (hs'.symm.trans hs)
    simpa [hs'] using hmatch
  fetched m' job jobs body hb := by
    simp only [Worker.busy.injEq] at hb
    cases hb.2.2

/-- A subscription is registered, under an id no job has. -/
theorem register (h : Flow env s) (hub : Hub env s) (query : CacheableQuery) (hash : String)
    (version : Nat) (body : String) (principal : Option Principal) (headers : Option String) :
    Flow env (hubSubscribe env s query hash version body principal headers) := by
  refine h.mono (.refl _) rfl (fun _ hm => Or.inl hm)
    (fun m jobs fresh hb => ⟨jobs, fresh, hb, fun _ hj => hj, Or.inr ⟨rfl, rfl⟩⟩)
    fun job hj sub hs => ⟨sub, ?_, rfl⟩
  have hne : job.id ≠ s.nextId := Nat.ne_of_lt (hub.known job hj)
  simpa only [hubSubscribe, Function.update_of_ne hne] using hs

theorem taken {pk : List (String × String)} {full : List String} {a : Action γ}
    (ho : Read.Ordered pk full s.core) (hub : Hub env s) (h : Flow env s)
    (ht : Taken env s a s') : Flow env s' := by
  have hx := ht.extends
  cases ht with
  | core _ _ | subscribePublic _ _ _ | subscribeScoped _ _ | fetch _ _ | fetchError _
  | registerError _ => exact h.of_eq hx rfl rfl rfl fun m hm => Or.inl hm
  | @advance m core hsending hcore =>
    refine h.of_eq hx rfl rfl rfl ?_
    intro m' hm
    rcases hm with hm | hm
    · exact Or.inl (Or.inl hm)
    · obtain rfl := Option.some.inj hm
      cases Read.taken_of_step hcore with
      | advance hpending horder hlabel => exact Or.inr ⟨(ho.pending _ hpending).1, by simp⟩
  | @broadcast m hsending hroom =>
    refine h.of_eq hx rfl rfl rfl fun m' hm => Or.inl ?_
    rcases hm with hm | hm
    · rcases List.mem_append.mp hm with hm | hm
      · exact Or.inl hm
      · exact Or.inr (List.mem_singleton.mp hm ▸ hsending)
    · exact absurd hm nofun
  | @overflow m hsending hfull =>
    refine h.of_eq hx rfl rfl rfl fun m' hm => Or.inl ?_
    rcases hm with hm | hm
    · rcases List.mem_append.mp (List.mem_of_mem_tail hm) with hm | hm
      · exact Or.inl hm
      · exact Or.inr (List.mem_singleton.mp hm ▸ hsending)
    · exact absurd hm nofun
  | receive hidle hqueue hlabel hlagged horder => exact h.receive hqueue hlabel horder
  | resetAll hidle hlagged =>
    exact h.mono hx rfl (fun _ hm => Or.inl hm)
      (fun m jobs fresh hb => ⟨jobs, fresh, hb, fun _ hj => hj, Or.inr ⟨rfl, rfl⟩⟩) nofun
  | @requery m job jobs hbusy =>
    refine ⟨h.advanced, fun m' jobs' fresh' hb => ?_, fun m' jobs' fresh' hb => ?_,
      fun m' job' jobs' body hb => ?_⟩
    · cases hb
      exact h.delivered _ _ _ hbusy
    · cases hb
      exact h.matched _ _ _ hbusy
    · simp only [Worker.busy.injEq, List.cons.injEq, Option.some.injEq] at hb
      obtain ⟨rfl, ⟨rfl, rfl⟩, hrun⟩ := hb
      -- the query runs on the newest state, and what was delivered is in it
      exact ⟨s.core.history.length, Nat.le_refl _, hrun, fun d hd => (h.advanced d (Or.inl hd)).1⟩
  | @emit m job jobs body txn prev next hbusy hlabel hprev hnext =>
    cases hsub : s.subs job.id with
    | none =>
      rw [emitDeltas_of_none hsub]
      exact h.popJob hbusy rfl rfl rfl rfl rfl fun _ _ sub hs => ⟨sub, hs, rfl⟩
    | some sub =>
      rw [emitDeltas_of_sub hsub (hub.ids job.id sub hsub).2]
      refine h.popJob hbusy rfl rfl rfl rfl rfl ?_
      intro job' _ sub' hs
      simp only [Function.update_apply] at hs
      split at hs
      · rename_i hid
        obtain rfl := Option.some.inj hs
        exact ⟨sub, hid ▸ hsub, rfl⟩
      · exact ⟨sub', hs, rfl⟩
  | @discard m job jobs e hbusy =>
    cases hsub : s.subs job.id with
    | none =>
      rw [discardSub_of_none hsub]
      exact h.popJob hbusy rfl rfl rfl rfl rfl fun _ _ sub hs => ⟨sub, hs, rfl⟩
    | some sub =>
      rw [discardSub_of_sub hsub (hub.ids job.id sub hsub).2]
      refine h.popJob hbusy rfl rfl rfl rfl rfl ?_
      intro job' _ sub' hs
      simp only [Function.update_apply] at hs
      split at hs
      · exact absurd hs nofun
      · exact ⟨sub', hs, rfl⟩
  | finish hbusy => exact h.mono hx rfl (fun _ hm => Or.inl hm) nofun nofun
  | @registerPublic id version read q snapshot hrequest hcall =>
    have hr := h.register hub read.query (lowerHex read.query.fingerprint) version snapshot.body
      none none
    exact ⟨hr.advanced, hr.delivered, hr.matched, hr.fetched⟩
  | @registerScoped id version read body hrequest =>
    have hr := h.register hub read.query "" version body read.principal read.headers
    exact ⟨hr.advanced, hr.delivered, hr.matched, hr.fetched⟩
  | @drop id hid =>
    refine h.mono hx rfl (fun _ hm => Or.inl hm)
      (fun m jobs fresh hb => ⟨jobs, fresh, hb, fun _ hj => hj, Or.inr ⟨rfl, rfl⟩⟩)
      fun job _ sub hs => ⟨sub, ?_, rfl⟩
    simp only [State.setSub, Function.update_apply] at hs
    split at hs
    · exact absurd hs nofun
    · exact hs
  | release hid hgone =>
    exact h.mono hx rfl (fun _ hm => Or.inl hm)
      (fun m jobs fresh hb => ⟨jobs, fresh, hb, fun _ hj => hj, Or.inr ⟨rfl, rfl⟩⟩)
      fun _ _ sub hs => ⟨sub, hs, rfl⟩

theorem of_reachable {pk : List (String × String)} {full : List String}
    {ok : State γ → Action γ → Prop} (h : (system env pk full).Reachable ok s) : Flow env s := by
  refine Reachable.induction (P := Flow env) (fun s h0 => ?_) (fun _ _ _ hr ih _ hs =>
    ih.taken (.of_reachable (core_reachable hr)) (.of_reachable hr) (taken_of_step hs)) h
  have h0 : Fresh pk full s := h0
  refine ⟨fun m hm => ?_, ?_, ?_, ?_⟩
  · simp [h0.delivered, h0.queue, h0.sending] at hm
  all_goals simp [h0.worker]

end Flow

/-! ## 4. Up-to-date events -/

/-- What a step adds to the stream of a subscriber. -/
def added (s s' : State γ) (id : Nat) : List Event := (s'.sent id).drop (s.sent id).length

/-- What an up-to-date event of commit `m` says of the subscription it was sent to. -/
structure Visible (env : Env γ) (s : State γ) (m : Nat) (txn : CommittedTransaction)
    (sub : Subscription) : Prop where
  delivered : m ∈ s.delivered
  /-- The stored map is the result on a state that has the commit and all delivered before. -/
  last : ∃ n ≤ s.core.history.length, (∀ d ∈ s.delivered, d < n) ∧ ∃ body,
    sub.result env.engine (s.core.history.snapshot n) = .ok body ∧
      sub.last = keyedMap env.serde body sub.pk
  /-- The version of the subscription's tables has reached the commit. -/
  version : txn.endLsn ≤ s.core.versions.tableVersion sub.tables

/-- The worker sends a subscriber the up-to-date event of the commit it is at, and the commit
is visible. -/
def Confirms (env : Env γ) (s s' : State γ) (id txid : Nat) : Prop :=
  ∃ m txn sub, (∃ jobs fresh, s.worker = .busy m jobs fresh) ∧
    s.core.history.label m = some txn ∧ txn.xid = txid ∧ s'.subs id = some sub ∧
      Visible env s' m txn sub

/-- A step that sends nothing to a subscriber. -/
theorem added_of_eq {id : Nat} (h : s'.sent id = s.sent id) : added s s' id = [] := by
  rw [added, h, List.drop_length]

/-- A step that appends to the stream of a subscriber. -/
theorem added_of_append {id : Nat} {events : List Event} (h : s'.sent id = s.sent id ++ events) :
    added s s' id = events := by
  rw [added, h, List.drop_left]

/-- A new stream starts with a snapshot event. -/
theorem upToDate_notMem_added_hubSubscribe (query : CacheableQuery) {hash body : String}
    {version id txid : Nat} {principal : Option Principal} {headers : Option String} :
    .upToDate txid ∉ added s (hubSubscribe env s query hash version body principal headers) id := by
  intro hsent
  have hnew := List.mem_of_mem_drop hsent
  by_cases hid : id = s.nextId
  · subst hid
    simp only [hubSubscribe, Function.update_self, List.mem_singleton] at hnew
    split at hnew <;> exact absurd hnew nofun
  · have hsame : (hubSubscribe env s query hash version body principal headers).sent id =
        s.sent id := Function.update_of_ne hid _ _
    simp [added_of_eq hsame] at hsent

/-- A reset is not an up-to-date event. -/
theorem upToDate_notMem_added_discardSub {job : LiveJob} {id txid : Nat} :
    .upToDate txid ∉ added s (discardSub s job) id := by
  intro hsent
  unfold discardSub at hsent
  split at hsent
  · simp [added_of_eq] at hsent
  · unfold State.send at hsent
    split at hsent
    · by_cases hid : id = job.id
      · subst hid
        rw [added_of_append (Function.update_self ..)] at hsent
        simp at hsent
      · rw [added_of_eq (Function.update_of_ne hid _ _)] at hsent
        simp at hsent
    · have hsame : (s.setSub job.id none).sent id = s.sent id := rfl
      simp [added_of_eq hsame] at hsent

/-- Only the second lock of `on_commit` sends an up-to-date event. -/
theorem upToDate_of_taken {a : Action γ} {id txid : Nat} (ht : Taken env s a s')
    (hsent : .upToDate txid ∈ added s s' id) :
    ∃ m job jobs body txn prev next, s.worker = .busy m (job :: jobs) (some (.ok body)) ∧
      s.core.history.label m = some txn ∧ next.toFinmap = keyedMap env.serde body job.pk ∧
      s' = { emitDeltas s job txn.xid (diff prev next) next.toFinmap with
        worker := .busy m jobs none } := by
  have hsame : s'.sent id ≠ s.sent id := fun he => by simp [added_of_eq he] at hsent
  cases ht with
  | emit hbusy hlabel hprev hnext => exact ⟨_, _, _, _, _, _, _, hbusy, hlabel, hnext, rfl⟩
  | core _ _ | advance _ _ | broadcast _ _ | overflow _ _ | receive _ _ _ _ _ | requery _
  | finish _ | subscribePublic _ _ _ | subscribeScoped _ _ | fetch _ _ | fetchError _
  | registerError _ | drop _ | release _ _ => exact absurd rfl hsame
  | resetAll hidle hlagged =>
    have hreset : added s { resetAll s with lagged := false } id = [.reset] := by
      refine added_of_append ?_
      by_cases hc : (s.subs id).isSome && s.receivers id
      · exact if_pos hc
      · exact absurd (if_neg hc) hsame
    rw [hreset] at hsent
    simp at hsent
  | discard hbusy => exact absurd hsent upToDate_notMem_added_discardSub
  | @registerPublic _ _ read _ _ hrequest hcall =>
    exact absurd hsent (upToDate_notMem_added_hubSubscribe read.query)
  | @registerScoped _ _ read _ hrequest =>
    exact absurd hsent (upToDate_notMem_added_hubSubscribe read.query)

/-- **An up-to-date event means that its transaction is visible.**  Wherever the hub is, what a
subscriber was sent replays to the map stored for it; and a step that sends it the up-to-date
event of a transaction leaves the result on a state with that transaction, and all delivered
before it, in the map, and the version of the subscription's tables at least at its end. -/
theorem up_to_date_visible {pk : List (String × String)} {full : List String}
    (hs : (system env pk full).Reachable free s) :
    (∀ id sub, s.subs id = some sub → replayed env s id sub = sub.last) ∧
      ∀ a s', step env s a = some s' → ∀ id txid, .upToDate txid ∈ added s s' id →
        Confirms env s s' id txid := by
  have hub : Hub env s := .of_reachable hs
  refine ⟨hub.stream, fun a s' hstep id txid hsent => ?_⟩
  have flow : Flow env s := .of_reachable hs
  have ordered : Read.Ordered pk full s.core := .of_reachable (core_reachable hs)
  obtain ⟨m, job, jobs, body, txn, prev, next, hbusy, hlabel, hnext, rfl⟩ :=
    upToDate_of_taken (taken_of_step hstep) hsent
  cases hsub : s.subs job.id with
  | none =>
    rw [emitDeltas_of_none hsub] at hsent
    simp [added] at hsent
  | some sub =>
    have hopen := (hub.ids job.id sub hsub).2
    rw [emitDeltas_of_sub hsub hopen] at hsent ⊢
    by_cases hid : id = job.id
    · subst hid
      rw [added_of_append (Function.update_self ..)] at hsent
      have htxid : txn.xid = txid := by
        rcases List.mem_append.mp hsent with hd | hu
        · obtain ⟨d, -, hd⟩ := List.mem_map.mp hd
          exact absurd hd nofun
        · simpa using (List.mem_singleton.mp hu).symm
      -- the job is the subscription as it still is
      have hjob : sub.job job.id = job :=
        hub.job job (by rw [hbusy]; exact List.mem_cons_self) sub hsub
      obtain ⟨n, hn, hrun, hd⟩ := flow.fetched m job jobs body hbusy
      obtain ⟨txn', hlabel', hmatched⟩ := flow.matched m _ _ hbusy
      obtain rfl : txn' = txn := Option.some.inj (hlabel'.symm.trans hlabel)
      have hmem := flow.delivered m _ _ hbusy
      obtain ⟨t, ht, htouched⟩ := List.any_eq_true.mp (hmatched job List.mem_cons_self sub hsub)
      have hversion := ordered.indexed m txn' hlabel (flow.advanced m (Or.inl hmem)).2 sub.tables t
        ht (List.contains_iff_mem.mp htouched)
      have hlast : next.toFinmap = keyedMap env.serde body sub.pk := by
        rw [hnext, ← hjob]
        rfl
      rw [← hjob] at hrun
      exact ⟨m, txn', { sub with last := next.toFinmap }, ⟨_, _, hbusy⟩, hlabel, htxid,
        Function.update_self .., hmem, ⟨n, hn, hd, body, hrun, hlast⟩, hversion⟩
    · rw [added_of_eq (Function.update_of_ne hid _ _)] at hsent
      simp at hsent

/-! ## 5. A run -/

/-- The row of `Read.oneRow`. -/
def userRow : Json := .object [("id", .number (.integer 1))]

/-- `serde_json` on the bodies of the runs below. -/
def usersSerde : Serde where
  fromStr text := if text = "[]" then some (.array []) else
    if text = Read.oneRow then some (.array [userRow]) else none
  toString _ := "1"
  finish _ := 0

/-- A server with the one table `users`, whose key is `id`. -/
def usersEnv : Env String where
  engine := Read.rowsOf "users"
  serde := usersSerde
  pk table := if table = "users" then some "id" else none

/-- A subscriber without a token. -/
def usersPublic : PreparedRead := ⟨usersRead, none, none, false⟩

/-- The first row of `users` is committed. -/
def firstUser : Read.Action String :=
  .apply ⟨7, 1, [.insert "users" [("id", some "1")]]⟩ [("users", Read.oneRow)]

/-- Someone subscribes to `SELECT * FROM users` on the empty table; then a row is committed,
and the hub gets to sending what changed. -/
def subscribeThenCommit : List (Action String) :=
  [.subscribe 0 usersPublic, .core (.lookup 0), .core (.execute 0), .core (.insert 0),
    .core (.reply 0), .register 0, .core firstUser, .core (.advance 0), .broadcast, .receive [0],
    .requery]

/-- The server starts on empty tables. -/
def usersStart : State String := .start [("users", "id")] [] fun _ => "[]"

theorem visible_of_subscribeThenCommit :
    ∃ s s', (system usersEnv [("users", "id")] []).run usersStart subscribeThenCommit = some s ∧
      step usersEnv s (.emit ∅ (AList.singleton "1" userRow)) = some s' ∧
      added s s' 0 = [.delta (.insert "1" userRow) 7, .upToDate 7] ∧
      Confirms usersEnv s s' 0 7 := by
  have hrun : (((system usersEnv [("users", "id")] []).run usersStart subscribeThenCommit).bind
      fun s => (step usersEnv s (.emit ∅ (AList.singleton "1" userRow))).map fun s' =>
        added s s' 0) = some [.delta (.insert "1" userRow) 7, .upToDate 7] := by decide
  obtain ⟨s, hs, hrun⟩ := Option.bind_eq_some_iff.mp hrun
  obtain ⟨s', hs', hadded⟩ := Option.map_eq_some_iff.mp hrun
  have hfree : (system usersEnv [("users", "id")] []).Along free usersStart subscribeThenCommit :=
    along_of_forall fun _ _ _ => trivial
  have hreach := reachable_of_run (fresh_start _ _ _) hfree hs
  exact ⟨s, s', hs, hs', hadded,
    (up_to_date_visible hreach).2 _ s' hs' 0 7 (by rw [hadded]; decide)⟩

end PgPaw.Live
