/-
# A subscriber is served as if it were the only one

The hub serves all subscribers with one worker, one after the other.  Still, what happens to a
subscriber could have happened if every other one had left as soon as it was registered: there is
a run from the same start, in which the worker never runs the query of another, after which the
subscriber has been sent the same events and its subscription is the same, and the database, the
index, the cache and the channel are as they are (`served_as_if_alone`).  A query of another that
fails or is slow, and a receiver that is gone, change nothing for it but the times.
-/
import PgPaw.Capability.LiveStream
import PgPaw.Lib.Simulation

namespace PgPaw.Live

open Transition

variable {γ : Type} {env : Env γ} {s s' t : State γ} {k : Nat}

/-! ## 1. Without the others -/

/-- A table with one entry. -/
def only {α : Type} (k : Nat) (table : Nat → Option α) (id : Nat) : Option α :=
  if id = k then table id else none

/-- The worker, with the jobs of one subscriber. -/
def Worker.only (k : Nat) : Worker → Worker
  | .idle => .idle
  | .busy m jobs fresh => .busy m (jobs.filter (·.id = k))
      (if jobs.head?.any (·.id = k) then fresh else none)

/-- A state, with the subscribers and the worker of another. -/
def State.withHub (s t : State γ) : State γ :=
  { s with worker := t.worker, subs := t.subs, receivers := t.receivers, sent := t.sent,
           bodies := t.bodies }

/-- **The others are left out**, and what is known of them. -/
structure Alone (k : Nat) (s t : State γ) : Prop where
  same : t = s.withHub t
  worker : t.worker = s.worker.only k
  subs : t.subs = only k s.subs
  receivers : t.receivers k = s.receivers k
  sent : t.sent k = s.sent k
  bodies : t.bodies k = s.bodies k

/-- The steps of a run in which nobody else is served: where another has a subscription, it drops
it. -/
def ServesOnly (k : Nat) (t : State γ) (a : Action γ) : Prop :=
  ∀ id ≠ k, (t.subs id).isSome → a = .drop id

/-- A state with the subscribers as in a fresh one. -/
theorem alone_self (hworker : s.worker = .idle) (hsubs : s.subs = fun _ => none) :
    Alone k s s where
  same := rfl
  worker := by rw [hworker]; rfl
  subs := by
    rw [hsubs]
    funext id
    exact (ite_self none).symm
  receivers := rfl
  sent := rfl
  bodies := rfl

namespace Alone

/-- Where the others are left out, nobody else has a subscription. -/
theorem servesOnly (h : Alone k s t) (a : Action γ) : ServesOnly k t a := by
  intro id hid hsome
  rw [h.subs, only, if_neg hid] at hsome
  cases hsome

/-- A step that does not look at the hub, and leaves it. -/
theorem frame (h : Alone k s t) (hhub : s' = s'.withHub s) : Alone k s' (s'.withHub t) where
  same := rfl
  worker := by rw [hhub]; exact h.worker
  subs := by rw [hhub]; exact h.subs
  receivers := by rw [hhub]; exact h.receivers
  sent := by rw [hhub]; exact h.sent
  bodies := by rw [hhub]; exact h.bodies

end Alone

/-! ## 2. Steps beside the hub -/

/-- The steps that do not look at the hub. -/
def Action.beside : Action γ → Bool
  | .core _ | .broadcast | .subscribe _ _ | .fetch _ => true
  | _ => false

/-- **A step beside the hub** does the same whatever the hub is, and leaves it. -/
theorem step_beside {a : Action γ} (ha : a.beside = true) (h : step env s a = some s') :
    s' = s'.withHub s ∧ step env (s.withHub t) a = some (s'.withHub t) := by
  cases a with
  | core a =>
    by_cases hadvance : ∃ m, a = .advance m
    · obtain ⟨m, rfl⟩ := hadvance
      simp only [step, State.withHub] at h ⊢
      split at h
      · obtain ⟨core, hcore, rfl⟩ := Option.map_eq_some_iff.mp h
        exact ⟨rfl, by rw [hcore]; rfl⟩
      · cases h
    · have hne : ∀ m, a ≠ .advance m := fun m hm => hadvance ⟨m, hm⟩
      rw [step_core hne] at h
      obtain ⟨core, hcore, rfl⟩ := Option.map_eq_some_iff.mp h
      refine ⟨rfl, ?_⟩
      rw [step_core hne]
      exact Option.map_eq_some_iff.mpr ⟨core, hcore, rfl⟩
  | broadcast =>
    obtain ⟨m, hsending, rfl⟩ := Option.map_eq_some_iff.mp h
    exact ⟨rfl, Option.map_eq_some_iff.mpr ⟨m, hsending, rfl⟩⟩
  | subscribe id read =>
    simp only [step, State.withHub] at h ⊢
    split at h
    · split at h
      next hscope =>
        obtain ⟨core, hcore, rfl⟩ := Option.map_eq_some_iff.mp h
        exact ⟨rfl, by rw [if_pos hscope, hcore]; rfl⟩
      next hscope =>
        cases h
        exact ⟨rfl, by rw [if_neg hscope]; rfl⟩
    · cases h
  | fetch id =>
    simp only [step, State.withHub] at h ⊢
    split at h
    · split at h <;> cases h <;> exact ⟨rfl, rfl⟩
    · cases h
  | _ => cases ha

/-! ## 3. Steps of the hub -/

/-- Those who are concerned, of the one. -/
theorem matching_only (h : Alone k s t) (changed : List String) :
    t.matching changed = (s.matching changed).filter (· = k) := by
  rw [h.same]
  simp only [State.matching, State.withHub, h.subs, only, List.filter_filter]
  refine List.filter_congr fun id _ => ?_
  by_cases hid : id = k <;> simp [hid]

/-- And its jobs. -/
theorem selectJobs_only (h : Alone k s t) (order : List Nat) :
    selectJobs t (order.filter (· = k)) = (selectJobs s order).filter (·.id = k) := by
  induction order with
  | nil => rfl
  | cons id order ih =>
    simp only [selectJobs] at ih ⊢
    by_cases hid : id = k
    · subst hid
      have hsub : t.subs id = s.subs id := by rw [h.subs, only, if_pos rfl]
      rw [List.filter_cons_of_pos (by simp), List.filterMap_cons, List.filterMap_cons, hsub]
      cases s.subs id with
      | none => exact ih
      | some sub =>
        rw [Option.map_some]
        dsimp only
        rw [List.filter_cons_of_pos (by simp [Subscription.job]), ih]
    · rw [List.filter_cons_of_neg (by simpa using hid), List.filterMap_cons]
      cases s.subs id with
      | none => exact ih
      | some sub =>
        rw [Option.map_some]
        dsimp only
        rw [List.filter_cons_of_neg (by simp [Subscription.job, hid]), ih]

/-- What is done to a subscriber: its subscription, and its stream. -/
def State.setStream (s : State γ) (id : Nat) (sub : Option Subscription) (events : List Event)
    (worker : Worker) : State γ :=
  { s with
    subs := Function.update s.subs id sub
    sent := Function.update s.sent id (s.sent id ++ events)
    worker }

/-- The subscription and the events that the second lock of `on_commit` leaves and sends. -/
def emitted (sub : Option Subscription) (receiver : Bool) (txid : Nat) (deltas : List Delta)
    (next : RowMap) : Option Subscription × List Event :=
  match sub, receiver with
  | none, _ => (none, [])
  | some sub, true => (some { sub with last := next },
      deltas.map (fun d => .delta d txid) ++ [.upToDate txid])
  | some sub, false => (some (if deltas.isEmpty then { sub with last := next } else sub), [])

/-- And the lock taken when the query fails. -/
def discarded (sub : Option Subscription) (receiver : Bool) : Option Subscription × List Event :=
  (none, if sub.isSome && receiver then [.reset] else [])

theorem emitDeltas_worker (s : State γ) (job : LiveJob) (txid : Nat) (deltas : List Delta)
    (next : RowMap) (worker : Worker) :
    { emitDeltas s job txid deltas next with worker } =
      s.setStream job.id (emitted (s.subs job.id) (s.receivers job.id) txid deltas next).1
        (emitted (s.subs job.id) (s.receivers job.id) txid deltas next).2 worker := by
  unfold emitDeltas State.setStream
  cases hsub : s.subs job.id with
  | none => simp [emitted, ← hsub]
  | some sub =>
    cases hopen : s.receivers job.id with
    | true => simp [emitted, State.send, State.setSub, hopen]
    | false =>
      by_cases hempty : deltas.isEmpty
      · simp [emitted, State.send, State.setSub, hopen, hempty]
      · simp [emitted, hempty, ← hsub]

theorem discardSub_worker (s : State γ) (job : LiveJob) (worker : Worker) :
    { discardSub s job with worker } =
      s.setStream job.id (discarded (s.subs job.id) (s.receivers job.id)).1
        (discarded (s.subs job.id) (s.receivers job.id)).2 worker := by
  unfold discardSub State.setStream
  cases hsub : s.subs job.id with
  | none => simp [discarded, ← hsub]
  | some sub =>
    cases hopen : s.receivers job.id <;> simp [discarded, State.send, State.setSub, hopen]

namespace Alone

/-- What is done to another is not done. -/
theorem other (h : Alone k s t) {id : Nat} (hid : id ≠ k) {sub : Option Subscription}
    {events : List Event} {worker : Worker} (hworker : worker.only k = s.worker.only k) :
    Alone k (s.setStream id sub events worker) t where
  same := h.same
  worker := h.worker.trans hworker.symm
  subs := by
    rw [h.subs]
    funext id'
    by_cases hk : id' = k
    · subst hk
      simp [only, State.setStream, Function.update_of_ne (Ne.symm hid)]
    · simp [only, hk]
  receivers := h.receivers
  sent := by
    rw [h.sent]
    exact (Function.update_of_ne (Ne.symm hid) _ _).symm
  bodies := h.bodies

/-- What is done to the one is done to it. -/
theorem self (h : Alone k s t) {sub : Option Subscription} {events : List Event}
    {worker : Worker} :
    Alone k (s.setStream k sub events worker) (t.setStream k sub events (worker.only k)) where
  same := by
    conv_lhs => rw [h.same]
    rfl
  worker := rfl
  subs := by
    funext id
    by_cases hk : id = k
    · subst hk
      simp [only, State.setStream]
    · simp [only, State.setStream, hk, h.subs]
  receivers := h.receivers
  sent := by simp [State.setStream, h.sent]
  bodies := h.bodies

end Alone

/-! ## 4. The simulation -/

section Simulation

variable {pk : List (String × String)} {full : List String} {a : Action γ}

/-- What a step is matched by. -/
def Matched (env : Env γ) (pk : List (String × String)) (full : List String) (k : Nat)
    (s' t : State γ) : Prop :=
  ∃ t', (system env pk full).Leads (ServesOnly k) t t' ∧ Alone k s' t'

/-- By the same step, without the others. -/
theorem Alone.step (h : Alone k s t) {b : Action γ} {t' : State γ}
    (hstep : step env t b = some t') (h' : Alone k s' t') : Matched env pk full k s' t :=
  matched_step (h.servesOnly b) (b := b) hstep h'

theorem matched_beside (h : Alone k s t) (ha : a.beside = true)
    (hstep : step env s a = some s') : Matched env pk full k s' t := by
  obtain ⟨hhub, hstep'⟩ := step_beside ha hstep
  have ht : step env t a = some (s'.withHub t) := by
    rw [h.same]
    exact hstep'
  exact h.step ht (h.frame hhub)

theorem matched_receive (h : Alone k s t) {m : Nat} {queue order : List Nat}
    {txn : CommittedTransaction} (hidle : s.worker = .idle) (hqueue : s.queue = m :: queue)
    (hlabel : s.core.history.label m = some txn) (hlagged : s.lagged = false)
    (horder : order.Perm (s.matching txn.touched)) :
    Matched env pk full k { s with
      queue
      worker := .busy m (selectJobs s order) none
      delivered := s.delivered ++ [m] } t := by
  have hidle' : t.worker = .idle := by
    rw [h.worker, hidle]
    rfl
  have hqueue' : t.queue = m :: queue := by
    rw [h.same]
    exact hqueue
  have hlabel' : t.core.history.label m = some txn := by
    rw [h.same]
    exact hlabel
  have hlagged' : t.lagged = false := by
    rw [h.same]
    exact hlagged
  have horder' : (order.filter (· = k)).Perm (t.matching txn.touched) := by
    rw [matching_only h]
    exact horder.filter _
  have hstep : step env t (.receive (order.filter (· = k))) = some { t with
      queue
      worker := .busy m (selectJobs t (order.filter (· = k))) none
      delivered := t.delivered ++ [m] } := by
    simp only [step, hidle', hqueue', hlabel', Option.bind_some]
    rw [if_pos ⟨hlagged', horder'⟩]
  refine h.step hstep ?_
  have hdelivered : t.delivered = s.delivered := by
    rw [h.same]
    rfl
  exact { h with
    same := by
      rw [hdelivered]
      conv_lhs => rw [h.same]
      rfl
    worker := by
      simp only [Worker.only, selectJobs_only h]
      split <;> rfl }

theorem matched_resetAll (h : Alone k s t) (hidle : s.worker = .idle) (hlagged : s.lagged = true) :
    Matched env pk full k { resetAll s with lagged := false } t := by
  have hidle' : t.worker = .idle := by
    rw [h.worker, hidle]
    rfl
  have hlagged' : t.lagged = true := by
    rw [h.same]
    exact hlagged
  have hstep : step env t .resetAll = some { resetAll t with lagged := false } := by
    simp only [step, hidle', hlagged', if_true]
  refine h.step hstep ?_
  exact {
    same := by
      conv_lhs => rw [h.same]
      rfl
    worker := h.worker
    subs := funext fun id => (ite_self none).symm
    receivers := h.receivers
    sent := by simp only [resetAll, h.subs, only, h.receivers, h.sent, if_true]
    bodies := h.bodies }

theorem matched_requery (h : Alone k s t) {m : Nat} {job : LiveJob} {jobs : List LiveJob}
    (hbusy : s.worker = .busy m (job :: jobs) none) :
    Matched env pk full k
      { s with
        worker := .busy m (job :: jobs) (some (job.result env.engine s.core.history.current)) }
      t := by
  have hworker := h.worker
  rw [hbusy, Worker.only] at hworker
  by_cases hjob : job.id = k
  · rw [List.filter_cons_of_pos (by simpa using hjob)] at hworker
    have hcore : t.core = s.core := by
      rw [h.same]
      rfl
    have hstep : step env t .requery = some { t with
        worker := .busy m (job :: jobs.filter (·.id = k))
          (some (job.result env.engine s.core.history.current)) } := by
      simp [step, hworker, hcore]
    refine h.step hstep ?_
    exact { h with
      same := by
        conv_lhs => rw [h.same]
        rfl
      worker := by simp [Worker.only, hjob] }
  · refine matched_stay ?_
    exact { h with worker := by simp [hworker, Worker.only, hjob] }

/-- The end of a job: what is done to its subscriber, and the jobs left. -/
theorem matched_job (h : Alone k s t) {m : Nat} {job : LiveJob} {jobs : List LiveJob}
    {body : Except CacheError String} (hbusy : s.worker = .busy m (job :: jobs) (some body))
    {sub : Option Subscription} {events : List Event}
    (hstep : job.id = k → t.worker = .busy m (job :: jobs.filter (·.id = k)) (some body) →
      step env t a = some (t.setStream k sub events (.busy m (jobs.filter (·.id = k)) none))) :
    Matched env pk full k (s.setStream job.id sub events (.busy m jobs none)) t := by
  have hworker := h.worker
  rw [hbusy] at hworker
  by_cases hjob : job.id = k
  · have hself : Alone k (s.setStream k sub events (.busy m jobs none))
        (t.setStream k sub events ((Worker.busy m jobs none).only k)) := h.self
    have hnone : (Worker.busy m jobs none).only k = .busy m (jobs.filter (·.id = k)) none := by
      simp [Worker.only]
    rw [hnone] at hself
    rw [hjob]
    exact h.step (hstep hjob (by simpa [Worker.only, hjob] using hworker)) hself
  · refine matched_stay (h.other hjob ?_)
    rw [hbusy]
    simp [Worker.only, hjob]

/-- What the one has, and whether it listens, is the same. -/
theorem Alone.at_self (h : Alone k s t) {id : Nat} (hid : id = k) :
    t.subs id = s.subs id ∧ t.receivers id = s.receivers id := by
  subst hid
  exact ⟨by rw [h.subs, only, if_pos rfl], h.receivers⟩

theorem matched_emit (h : Alone k s t) {m : Nat} {job : LiveJob} {jobs : List LiveJob}
    {body : String} {txn : CommittedTransaction} {prev next : RowIter}
    (hbusy : s.worker = .busy m (job :: jobs) (some (.ok body)))
    (hlabel : s.core.history.label m = some txn) (hprev : prev.toFinmap = job.last)
    (hnext : next.toFinmap = keyedMap env.serde body job.pk) :
    Matched env pk full k { emitDeltas s job txn.xid (diff prev next) next.toFinmap with
      worker := .busy m jobs none } t := by
  rw [emitDeltas_worker]
  refine matched_job (a := .emit prev next) h hbusy fun hjob hworker => ?_
  obtain ⟨hsub, hopen⟩ := h.at_self hjob
  have hlabel' : t.core.history.label m = some txn := by
    rw [h.same]
    exact hlabel
  simp only [step, hworker, hlabel', Option.bind_some]
  rw [if_pos ⟨hprev, hnext⟩, emitDeltas_worker, hsub, hopen, hjob]

theorem matched_discard (h : Alone k s t) {m : Nat} {job : LiveJob} {jobs : List LiveJob}
    {e : CacheError} (hbusy : s.worker = .busy m (job :: jobs) (some (.error e))) :
    Matched env pk full k { discardSub s job with worker := .busy m jobs none } t := by
  rw [discardSub_worker]
  refine matched_job (a := .discard) h hbusy fun hjob hworker => ?_
  obtain ⟨hsub, hopen⟩ := h.at_self hjob
  simp only [step, hworker]
  rw [discardSub_worker, hsub, hopen, hjob]

theorem matched_finish (h : Alone k s t) {m : Nat} {fresh : Option (Except CacheError String)}
    (hbusy : s.worker = .busy m [] fresh) :
    Matched env pk full k { retain s with worker := .idle } t := by
  have hworker : t.worker = .busy m [] none := by
    rw [h.worker, hbusy]
    rfl
  have hstep : step env t .finish = some { retain t with worker := .idle } := by
    simp only [step, hworker]
  refine h.step hstep ?_
  exact {
    same := by
      conv_lhs => rw [h.same]
      rfl
    worker := rfl
    subs := by
      funext id
      by_cases hid : id = k
      · obtain ⟨hsub, hopen⟩ := h.at_self hid
        simp [retain, only, hid ▸ hsub, hid ▸ hopen, hid]
      · simp [retain, only, h.subs, hid]
    receivers := h.receivers
    sent := h.sent
    bodies := h.bodies }

theorem matched_drop (h : Alone k s t) {id : Nat} (hid : id < s.nextId) :
    Matched env pk full k (s.setSub id none) t := by
  by_cases hk : id = k
  · have hid' : id < t.nextId := by
      rw [h.same]
      exact hid
    have hstep : step env t (.drop id) = some (t.setSub id none) := if_pos hid'
    refine h.step hstep ?_
    exact { h with
      same := by
        conv_lhs => rw [h.same]
        rfl
      subs := by
        funext id'
        by_cases hid' : id' = k
        · simp [State.setSub, only, hid', hk]
        · simp [State.setSub, only, hid', hk, h.subs] }
  · refine matched_stay ?_
    exact { h with
      subs := by
        rw [h.subs]
        funext id'
        by_cases hid' : id' = k
        · simp [State.setSub, only, hid', Function.update_of_ne (Ne.symm hk)]
        · simp [only, hid'] }

theorem matched_release (h : Alone k s t) {id : Nat} (hid : id < s.nextId)
    (hgone : s.subs id = none) :
    Matched env pk full k { s with receivers := Function.update s.receivers id false } t := by
  by_cases hk : id = k
  · have hid' : id < t.nextId := by
      rw [h.same]
      exact hid
    have hgone' : (t.subs id).isNone := by
      rw [(h.at_self hk).1, hgone]
      rfl
    have hstep : step env t (.release id) =
        some { t with receivers := Function.update t.receivers id false } := if_pos ⟨hid', hgone'⟩
    refine h.step hstep ?_
    exact { h with
      same := by
        conv_lhs => rw [h.same]
        rfl
      receivers := by simp [hk] }
  · refine matched_stay ?_
    exact { h with
      receivers := by
        rw [h.receivers]
        exact (Function.update_of_ne (Ne.symm hk) _ _).symm }

/-- A subscriber more. -/
def State.open (s : State γ) (first : Event) (sub : Subscription) (body : String) (id : Nat)
    (read : PreparedRead) : State γ :=
  State.setRequest { s with
    nextId := s.nextId + 1
    receivers := Function.update s.receivers s.nextId true
    bodies := Function.update s.bodies s.nextId body
    sent := Function.update s.sent s.nextId [first]
    subs := Function.update s.subs s.nextId (some sub) } id read .done

/-- What is registered does not depend on who else is. -/
theorem hubSubscribe_open (env : Env γ) (query : CacheableQuery) (hash : String) (version : Nat)
    (body : String) (principal : Option Principal) (headers : Option String) (id : Nat)
    (read : PreparedRead) : ∃ first sub, ∀ s : State γ,
      (hubSubscribe env s query hash version body principal headers).setRequest id read .done =
        s.open first sub body id read :=
  ⟨_, _, fun _ => rfl⟩

/-- **A registration**: that of another is followed by its drop. -/
theorem matched_open (h : Alone k s t) {first : Event} {sub : Subscription} {body : String}
    {id : Nat} {read : PreparedRead}
    (hstep : step env t (.register id) = some (t.open first sub body id read)) :
    Matched env pk full k (s.open first sub body id read) t := by
  have hnext : t.nextId = s.nextId := by
    rw [h.same]
    rfl
  have hsame (subs : Nat → Option Subscription) :
      { t.open first sub body id read with subs } =
        (s.open first sub body id read).withHub { t.open first sub body id read with subs } := by
    conv_lhs => rw [h.same]
    simp only [State.open, State.setRequest, State.withHub, hnext]
  by_cases hk : s.nextId = k
  · refine h.step hstep ?_
    exact {
      same := hsame _
      worker := h.worker
      subs := by
        funext id'
        by_cases hid : id' = k
        · simp [State.open, State.setRequest, only, hnext, hid, hk]
        · simp [State.open, State.setRequest, only, hnext, hid, hk, h.subs]
      receivers := by simp [State.open, State.setRequest, hnext, hk]
      sent := by simp [State.open, State.setRequest, hnext, hk]
      bodies := by simp [State.open, State.setRequest, hnext, hk] }
  · have hdrop : step env (t.open first sub body id read) (.drop t.nextId) =
        some ((t.open first sub body id read).setSub t.nextId none) :=
      if_pos (Nat.lt_succ_self t.nextId)
    have hserves : ServesOnly k (t.open first sub body id read) (.drop t.nextId : Action γ) := by
      intro id' hid' hsome
      by_cases hnew : id' = t.nextId
      · rw [hnew]
      · have hold : (t.open first sub body id read).subs id' = t.subs id' :=
          Function.update_of_ne hnew _ _
        rw [hold, h.subs, only, if_neg hid'] at hsome
        cases hsome
    refine ⟨_, Relation.ReflTransGen.tail
      (Relation.ReflTransGen.single ⟨.register id, h.servesOnly _, hstep⟩)
      ⟨.drop t.nextId, hserves, hdrop⟩, ?_⟩
    exact {
      same := hsame _
      worker := h.worker
      subs := by
        funext id'
        by_cases hid : id' = k
        · have hne : k ≠ s.nextId := Ne.symm hk
          simp [State.open, State.setRequest, State.setSub, only, hnext, hid, hne, h.subs]
        · have hnone : Function.update (only k s.subs) s.nextId none id' = none := by
            by_cases hnew : id' = s.nextId <;> simp [only, hnew, hid]
          simpa [State.open, State.setRequest, State.setSub, only, hnext, hid, h.subs] using hnone
      receivers := by
        simp [State.open, State.setRequest, State.setSub, hnext, Ne.symm hk, h.receivers]
      sent := by simp [State.open, State.setRequest, State.setSub, hnext, Ne.symm hk, h.sent]
      bodies := by
        simp [State.open, State.setRequest, State.setSub, hnext, Ne.symm hk, h.bodies] }

theorem matched_register (h : Alone k s t) {id : Nat}
    (hstep : step env s (.register id) = some s') :
    Matched env pk full k s' t := by
  have hrequests : t.requests = s.requests := by
    rw [h.same]
    rfl
  have hcore : t.core = s.core := by
    rw [h.same]
    rfl
  have herror (read : PreparedRead) : Alone k (s.setRequest id read .done)
      (t.setRequest id read .done) := by
    have hframe : Alone k (s.setRequest id read .done) ((s.setRequest id read .done).withHub t) :=
      h.frame rfl
    rw [h.same]
    exact hframe
  simp only [step] at hstep
  split at hstep
  next read hrequest =>
    split at hstep
    next version snapshot hcall =>
      obtain rfl := Option.some.inj hstep
      obtain ⟨first, sub, hopen⟩ := hubSubscribe_open env read.query
        (lowerHex read.query.fingerprint) version snapshot.body none none id read
      rw [hopen]
      refine matched_open h ?_
      simp only [step, hrequests, hcore, hrequest, hcall, ← hopen]
    next hcall =>
      obtain rfl := Option.some.inj hstep
      refine h.step (b := .register id) ?_ (herror read)
      simp only [step, hrequests, hcore, hrequest, hcall]
    · cases hstep
  next read version body hrequest =>
    obtain rfl := Option.some.inj hstep
    obtain ⟨first, sub, hopen⟩ := hubSubscribe_open env read.query "" version body read.principal
      read.headers id read
    rw [hopen]
    refine matched_open h ?_
    simp only [step, hrequests, hrequest, ← hopen]
  · cases hstep

/-- **Whatever a step does, the others left out, some steps do.** -/
theorem simulates_alone (env : Env γ) (pk : List (String × String)) (full : List String) (k : Nat) :
    Simulates (system env pk full) (system env pk full) free (ServesOnly k) (Alone k) := by
  intro s t a s' h _ hstep
  change step env s a = some s' at hstep
  have hbeside : a.beside = true → Matched env pk full k s' t :=
    fun ha => matched_beside h ha hstep
  cases taken_of_step hstep with
  | core _ _ | advance _ _ | broadcast _ _ | overflow _ _ | subscribePublic _ _ _
  | subscribeScoped _ _ | fetch _ _ | fetchError _ => exact hbeside rfl
  | receive hidle hqueue hlabel hlagged horder =>
    exact matched_receive h hidle hqueue hlabel hlagged horder
  | resetAll hidle hlagged => exact matched_resetAll h hidle hlagged
  | requery hbusy => exact matched_requery h hbusy
  | emit hbusy hlabel hprev hnext => exact matched_emit h hbusy hlabel hprev hnext
  | discard hbusy => exact matched_discard h hbusy
  | finish hbusy => exact matched_finish h hbusy
  | registerPublic _ _ | registerScoped _ | registerError _ => exact matched_register h hstep
  | drop hid => exact matched_drop h hid
  | release hid hgone => exact matched_release h hid hgone

/-- **A subscriber is served as if it were the only one.** -/
theorem served_as_if_alone {s₀ : State γ} (hinit : (system env pk full).init s₀)
    (hrun : (system env pk full).Leads free s₀ s) (k : Nat) :
    ∃ t, (system env pk full).Leads (ServesOnly k) s₀ t ∧ t.sent k = s.sent k ∧
      t.subs k = s.subs k ∧ t.receivers k = s.receivers k ∧ t.core = s.core ∧
      t.queue = s.queue ∧ t.requests = s.requests := by
  have hfresh : Fresh pk full s₀ := hinit
  obtain ⟨t, hleads, halone⟩ := (simulates_alone env pk full k).leads
    (alone_self hfresh.worker hfresh.subs) hrun
  have hsame (s : State γ) : (s.withHub t).core = s.core ∧ (s.withHub t).queue = s.queue ∧
    (s.withHub t).requests = s.requests := ⟨rfl, rfl, rfl⟩
  obtain ⟨hcore, hqueue, hrequests⟩ := hsame s
  rw [← halone.same] at hcore hqueue hrequests
  exact ⟨t, hleads, halone.sent, (halone.at_self rfl).1, halone.receivers, hcore, hqueue,
    hrequests⟩

end Simulation

/-- Two subscribe on the empty table, and the first row is sent to both, to the later one first. -/
def twoSubscribers : List (Action String) :=
  [.subscribe 0 usersPublic, .core (.lookup 0), .core (.execute 0), .core (.insert 0),
    .core (.reply 0), .register 0, .subscribe 1 usersPublic, .core (.lookup 1), .core (.reply 1),
    .register 1, .core firstUser, .core (.advance 0), .broadcast, .receive [1, 0], .requery,
    .emit ∅ (AList.singleton "1" userRow), .requery, .emit ∅ (AList.singleton "1" userRow),
    .finish]

theorem served_as_if_alone_users :
    ∃ s t, (system usersEnv [("users", "id")] []).run usersStart twoSubscribers = some s ∧
      s.sent 0 = [.snapshotUrl (lowerHex usersRead.fingerprint) 0,
        .delta (.insert "1" userRow) 7, .upToDate 7] ∧
      (system usersEnv [("users", "id")] []).Leads (ServesOnly 0) usersStart t ∧
        t.sent 0 = s.sent 0 := by
  have hend : ((system usersEnv [("users", "id")] []).run usersStart twoSubscribers).map
      (fun s => s.sent 0) = some [.snapshotUrl (lowerHex usersRead.fingerprint) 0,
        .delta (.insert "1" userRow) 7, .upToDate 7] := by rfl
  obtain ⟨s, hs, hsent⟩ := Option.map_eq_some_iff.mp hend
  have hfree : (system usersEnv [("users", "id")] []).Along free usersStart twoSubscribers :=
    along_of_forall fun _ _ _ => trivial
  obtain ⟨t, hleads, hsame, -⟩ :=
    served_as_if_alone (fresh_start _ _ _) (leads_of_run hfree hs) 0
  exact ⟨s, t, hs, hsent, hleads, hsame⟩

end PgPaw.Live
